import StoryMachine.Proofs.Integrity
import StoryMachine.Proofs.Session

/-!
# The representation of the stack and the frames

Leaving a routine puts the top of the stack back to the floor, whatever the floor is. This is sound because
the floors of the active routines never fall from the main routine to the running one.

* `Store.returnPCs` : the addresses at which the callers go on;
* `Machine.Anchored` : these addresses, and the program counter of a machine that has left its initial one,
  are not outside the image. Every move keeps it (`Anchored.move`);
* `Machine.Represented image settings` : the invariant as a whole, with the limits of the settings;
* `represented_serve` : **it holds at the end of every session, whatever the machine was asked and
  wherever an instruction failed.**
-/

namespace StoryMachine

/-! ## Return addresses -/

namespace Store

/-- The addresses at which the callers go on, outermost first. -/
def returnPCs (store : Store) : List UInt32 :=
  store.calls.frames.toList.map Frame.returnPC

theorem returnPCs_change {store after : Store} (h : Change store after) :
    after.returnPCs = store.returnPCs := by
  cases h with
  | @setLocal frame set index value htop hset =>
    obtain ⟨-, -, _, rfl⟩ := Frame.of_writeLocal hset
    obtain ⟨callers, hframes⟩ := exists_push_of_top? htop
    simp [returnPCs, CallStack.replaceTop, hframes]
  | _ => rfl

theorem returnPCs_enter {store : Store} {frame : Frame} {calls : CallStack}
    (h : store.calls.push frame = .ok calls) (stack : Stack) :
    ({ store with calls, stack } : Store).returnPCs = store.returnPCs ++ [frame.returnPC] := by
  obtain ⟨-, rfl⟩ := CallStack.of_push h
  simp [returnPCs]

theorem returnPCs_leave {store : Store} {frame : Frame} (h : store.calls.top? = some frame)
    (stack : Stack) :
    store.returnPCs =
      ({ store with calls := store.calls.pop, stack } : Store).returnPCs ++ [frame.returnPC] := by
  obtain ⟨callers, hframes⟩ := exists_push_of_top? h
  simp [returnPCs, CallStack.pop, hframes]

end Store

theorem Image.SameStory.length_eq {image after : Image} (h : image.SameStory after) :
    after.length = image.length := by
  rw [Image.length, Image.length, h.size_eq]

namespace Machine

variable {G S : Type}

/-- The machine goes on inside the image or right behind it, now and behind every active call, or it
stands at the initial address. -/
structure Anchored (machine : Machine G S) : Prop where
  returns : ∀ address ∈ machine.returnPCs, address.toNat ≤ machine.image.length.toNat
  pc : machine.pc.toNat ≤ machine.image.length.toNat ∨
    machine.pc = machine.image.header.initialPC.toUInt32

section
variable [Sink S]

theorem Anchored.change {machine after : Machine G S} (h : Anchored machine)
    (hchange : Change machine after) (hsame : machine.image.SameStory after.image) :
    Anchored after := by
  cases hchange with
  | store hstore =>
    refine ⟨?_, ?_⟩
    · intro address haddress
      have hmem : address ∈ machine.returnPCs := by
        rwa [← Store.returnPCs_change hstore]
      rw [hsame.length_eq]
      exact h.returns address hmem
    · rw [hsame.length_eq, hsame.header_eq]
      exact h.pc
  | goTo hinside => exact ⟨h.returns, .inl hinside⟩
  | input => exact ⟨h.returns, h.pc⟩
  | output _ => exact ⟨h.returns, h.pc⟩
  | generator => exact ⟨h.returns, h.pc⟩
  | quit => exact ⟨h.returns, h.pc⟩

theorem Anchored.move {machine after : Machine G S} (hgood : machine.WellFormed)
    (hmove : Move machine after) (h : Anchored machine) : Anchored after := by
  have hsame := hmove.sameStory hgood
  cases hmove with
  | change hchange => exact h.change hchange hsame
  | enter henters hpc =>
    obtain ⟨hpush, hreturn, -, -, -, -, hbody⟩ := henters
    refine ⟨?_, .inl hbody⟩
    intro address haddress
    rw [Store.returnPCs_enter hpush, List.mem_append, List.mem_singleton] at haddress
    rcases haddress with hmem | rfl
    · exact h.returns address hmem
    · rw [hreturn]
      exact hpc
  | @leave frame stack htop _ =>
    have hreturns := h.returns
    rw [Store.returnPCs_leave htop stack] at hreturns
    refine ⟨?_, .inl (hreturns _ (List.mem_append_right _ (List.mem_singleton_self _)))⟩
    intro address haddress
    exact hreturns address (List.mem_append_left _ haddress)
  | restart =>
    refine ⟨?_, .inr rfl⟩
    intro address haddress
    cases haddress
  | resume => exact ⟨h.returns, h.pc⟩
  | wait _ => exact ⟨h.returns, h.pc⟩
  | halt _ => exact ⟨h.returns, h.pc⟩

end

/-! ## The invariant -/

/-- How the stack, the frames and the program counter of a machine stand to each other, to the image that
was loaded and to the settings. -/
structure Represented (image : Image) (settings : Settings) (machine : Machine G S) : Prop where
  /-- The floors of the active routines, the running one's last, start at 0. -/
  floors_start : machine.floors.head? = some 0
  floors_sorted : machine.floors.Pairwise (· ≤ ·)
  floor_main : machine.calls.frames = #[] → machine.stack.floor = 0
  floor_le : machine.stack.floor ≤ machine.stack.size
  size_le : (machine.stack.size : Int) ≤
    if settings.machine.maxStack ≤ 0 then 1024 else settings.machine.maxStack
  depth_le : (machine.calls.depth : Int) ≤
    if settings.machine.maxCallDepth ≤ 0 then 64 else settings.machine.maxCallDepth
  locals_le : ∀ frame ∈ machine.calls.frames, frame.numLocals ≤ 15
  returns_le : ∀ frame ∈ machine.calls.frames, frame.returnPC.toNat ≤ image.bytes.size
  pc_le : machine.pc.toNat ≤ image.bytes.size ∨ machine.pc = image.header.initialPC.toUInt32

/-- A limit that is not positive stands for the default. -/
theorem le_limit {size fallback : Nat} {limit usual : Int} (husual : (fallback : Int) = usual)
    (h : size ≤ if limit ≤ 0 then fallback else limit.toNat) :
    (size : Int) ≤ if limit ≤ 0 then usual else limit := by
  by_cases hlimit : limit ≤ 0
  · rw [if_pos hlimit] at h ⊢
    omega
  · rw [if_neg hlimit] at h ⊢
    omega

theorem represented_of {image : Image} {settings : Settings} {machine : Machine G S}
    (himage : image.WellFormed) (hgood : machine.toStore.WellFormed)
    (hconfigured : Configured settings machine) (hanchored : Anchored machine)
    (hsame : image.SameStory machine.image) : Represented image settings machine := by
  have hlength : machine.image.length.toNat = image.bytes.size := by
    rw [hsame.length_eq, himage.toNat_length]
  have hstack : ((Stack.defaultCapacity : Nat) : Int) = 1024 := rfl
  have hcalls : ((CallStack.defaultCapacity : Nat) : Int) = 64 := rfl
  have hsize := hgood.size_le
  have hdepth := hgood.depth_le
  rw [hconfigured.stack_eq] at hsize
  rw [hconfigured.calls_eq] at hdepth
  refine ⟨hgood.floors_start, hgood.floors_sorted, ?_, hgood.floor_le, le_limit hstack hsize,
    le_limit hcalls hdepth, ?_, ?_, ?_⟩
  · intro hmain
    have hstart := hgood.floors_start
    simpa [Store.floors, hmain] using hstart
  · intro frame hframe
    exact hgood.locals_le frame (Array.mem_toList_iff.mpr hframe)
  · intro frame hframe
    rw [← hlength]
    exact hanchored.returns _ (List.mem_map_of_mem (Array.mem_toList_iff.mpr hframe))
  · rw [← hlength, ← hsame.header_eq]
    exact hanchored.pc

variable [Generator G] [Sink S]

/-- **The stack and the frames of every session are well represented.** -/
theorem represented_serve {file : Array UInt8} {image : Image} (hload : Image.load file = .ok image)
    (settings : Settings) (session : String) (input : Option LineSource) (sink : Option S)
    (generator : G) (unicode : Text.Unicode) (requests : List Request) :
    Represented image settings
      ((new image settings session input sink generator unicode).serve requests).2 := by
  have himage := Image.load_wellFormed hload
  have hgood := wellFormed_new himage settings session input sink generator unicode
  have hreachable : Reachable image (new image settings session input sink generator unicode) :=
    .new settings session input sink generator unicode
  have hanchored : Anchored (new image settings session input sink generator unicode) := by
    refine ⟨?_, .inr rfl⟩
    intro address haddress
    cases haddress
  exact represented_of himage (hgood.serve requests).store
    (configured_serve himage settings session input sink generator unicode requests)
    (hgood.keeps (fun _ _ => Anchored.move) (moves_serve requests hgood) hanchored)
    ((hreachable.serve requests).sameStory himage)

/-- The sample story in its routine, where it waits for a line. -/
theorem represented_serve_sample :
    (sampleMachine.serve [.run 10 0, .step]).2.calls.depth = 1 ∧
      Represented sampleImage {} (sampleMachine.serve [.run 10 0, .step]).2 := by
  have h := represented_serve (S := Transcript) load_sampleStory {} "" none none (Dice.ofClock 0) .fifteen
    [.run 10 0, .step]
  exact ⟨by decide +kernel, h⟩

end Machine

end StoryMachine
