import StoryMachine.Proofs.Reachable

/-!
# Calls and returns

A routine works above its floor and in its own frame. While it runs, with whatever it calls in turn, its
caller's frames and words lie untouched below.

* `Store.Written number value` : what setting a variable by its number does;
* `Store.Inside caller entry store inner` : the store is inside a call made from `caller`. The frame that
  the call entered lies above the caller's, the frames in `inner` above that one, and the floor of the
  called routine is the top of the caller's stack. Changes keep it, a nested call adds to `inner`, and
  a return takes from it until nothing is left to take;
* `Machine.Continues` : a continuation by steps that neither fault nor restart, with any changes of input,
  for as long as the call has not returned;
* `call_isolation` : **a call leaves its caller's frames and words alone until it returns, and then
  differs from the caller by the result in the variable that the call names.**
-/

namespace StoryMachine

open Relation (ReflTransGen)

namespace Store

/-! ## Setting a variable -/

/-- The variable `number` has been set to `value`, and nothing else has happened. -/
inductive Written (number : UInt8) (value : UInt16) (before after : Store) : Prop
  | pushed (hnumber : number = 0) (himage : after.image = before.image)
      (hcalls : after.calls = before.calls) (hfloor : after.stack.floor = before.stack.floor)
      (hvalues : after.stack.values = before.stack.values.push value)
  | toLocal {callers : Array Frame} {frame : Frame} {slot : Nat} (hslot : slot < maxLocals)
      (hnumber : number.toNat = slot + 1) (hused : slot < frame.numLocals)
      (himage : after.image = before.image) (hstack : after.stack = before.stack)
      (hbefore : before.calls.frames = callers.push frame)
      (hafter : after.calls.frames =
        callers.push { frame with locals := frame.locals.set slot value })
  | toGlobal (hnumber : firstGlobal ≤ number)
      (hwrite : before.image.writeWord (globalAddress before.image number) value = .ok after.image)
      (hcalls : after.calls = before.calls) (hstack : after.stack = before.stack)

theorem written_of_write {number : UInt8} {value : UInt16} {before after : Store}
    (h : (write number value).perform before = (.ok (), after)) :
    Written number value before after := by
  unfold write at h
  split at h
  · rename_i hnumber
    rw [push, changeStack, Exec.perform_change] at h
    cases hpush : before.stack.push value with
    | error e =>
      rw [hpush] at h
      cases h
    | ok stack =>
      rw [hpush] at h
      cases h
      obtain ⟨-, hvalues, -, hfloor⟩ := Stack.of_push hpush
      exact .pushed hnumber rfl rfl hfloor hvalues
  · split at h
    · rw [writeLocal, changeFrame, Exec.perform_change] at h
      cases htop : before.calls.top? with
      | none =>
        rw [htop] at h
        cases h
      | some frame =>
        rw [htop] at h
        cases hset : frame.writeLocal number.toNat value with
        | error e =>
          dsimp only at h
          rw [hset] at h
          cases h
        | ok changed =>
          dsimp only at h
          rw [hset] at h
          cases h
          obtain ⟨hone, hused, hslot, rfl⟩ := Frame.of_writeLocal hset
          obtain ⟨callers, hframes⟩ := exists_push_of_top? htop
          refine .toLocal hslot (by omega) (by omega) rfl rfl hframes ?_
          change before.calls.frames.pop.push _ = _
          rw [hframes, Array.pop_push]
    · rename_i hlocal
      rw [writeGlobal, if_neg hlocal, changeImage, Exec.perform_change] at h
      cases hwrite : before.image.writeWord (globalAddress before.image number) value with
      | error e =>
        rw [hwrite] at h
        cases h
      | ok image =>
        rw [hwrite] at h
        cases h
        exact .toGlobal (UInt8.not_lt.mp hlocal) hwrite rfl rfl

theorem Written.depth_eq {number : UInt8} {value : UInt16} {before after : Store}
    (h : Written number value before after) : after.calls.depth = before.calls.depth := by
  unfold CallStack.depth
  cases h with
  | pushed _ _ hcalls _ _ => rw [hcalls]
  | toLocal _ _ _ _ _ hbefore hafter => rw [hbefore, hafter, Array.size_push, Array.size_push]
  | toGlobal _ _ hcalls _ => rw [hcalls]

/-! ## Inside a call -/

/-- The store is inside a call that `caller` made and that entered the frame `entry`; the routines called
since then have the frames `inner`. -/
structure Inside (caller : Store) (entry : Frame) (store : Store) (inner : List Frame) : Prop where
  frames : ∃ locals, store.calls.frames.toList =
    caller.calls.frames.toList ++ { entry with locals } :: inner
  floor : (inner.map Frame.savedFloor ++ [store.stack.floor]).head? = some (caller.stack.size : Int)
  values : caller.stack.values.toList <+: store.stack.values.toList

theorem prefix_dropLast {α : Type} {front list : List α} (h : front <+: list)
    (hlength : front.length < list.length) : front <+: list.dropLast := by
  obtain ⟨rest, rfl⟩ := h
  have hne : rest ≠ [] := by
    rintro rfl
    simp at hlength
  rw [List.dropLast_append_of_ne_nil hne]
  exact List.prefix_append _ _

namespace Inside

variable {caller store after : Store} {entry : Frame} {inner : List Frame}

theorem depth_eq (h : Inside caller entry store inner) :
    store.calls.depth = caller.calls.depth + 1 + inner.length := by
  obtain ⟨locals, hframes⟩ := h.frames
  have hlength := congrArg List.length hframes
  simp only [Array.length_toList, List.length_append, List.length_cons] at hlength
  unfold CallStack.depth
  omega

/-- The running routine's floor is not below the top of the caller's stack. -/
theorem le_floor (h : Inside caller entry store inner) (hgood : store.WellFormed) :
    (caller.stack.size : Int) ≤ store.stack.floor := by
  apply hgood.le_floor
  obtain ⟨locals, hframes⟩ := h.frames
  have hmem := List.mem_of_mem_head? h.floor
  unfold floors
  rw [hframes, List.map_append, List.map_cons, List.append_assoc, List.cons_append]
  exact List.mem_append_right _ (List.mem_cons_of_mem _ hmem)

/-- The running routine is the called one, or the last of those called since then. -/
theorem top_cases (h : Inside caller entry store inner) {callers : Array Frame} {frame : Frame}
    (hpush : store.calls.frames = callers.push frame) :
    (inner = [] ∧ callers.toList = caller.calls.frames.toList ∧ ∃ locals, frame = { entry with locals }) ∨
      ∃ rest locals, inner = rest ++ [frame] ∧
        callers.toList = caller.calls.frames.toList ++ { entry with locals } :: rest := by
  obtain ⟨locals, hframes⟩ := h.frames
  rw [hpush, Array.toList_push] at hframes
  rcases List.eq_nil_or_concat inner with rfl | ⟨rest, last, rfl⟩
  · obtain ⟨hcallers, hframe⟩ := List.append_inj' hframes rfl
    exact .inl ⟨rfl, hcallers, locals, List.singleton_inj.mp hframe⟩
  · rw [List.concat_eq_append, ← List.cons_append, ← List.append_assoc] at hframes
    obtain ⟨hcallers, hframe⟩ := List.append_inj' hframes rfl
    refine .inr ⟨rest, locals, ?_, hcallers⟩
    rw [List.concat_eq_append, List.singleton_inj.mp hframe]

theorem change (h : Inside caller entry store inner) (hgood : store.WellFormed)
    (hchange : Change store after) : ∃ inner', Inside caller entry after inner' := by
  have hle := h.le_floor hgood
  have htops := @top_cases _ _ _ _ h
  obtain ⟨⟨locals, hframes⟩, hfloor, hvalues⟩ := h
  cases hchange with
  | push hpush =>
    obtain ⟨-, hpushed, -, hsame⟩ := Stack.of_push hpush
    refine ⟨inner, ⟨locals, hframes⟩, by rwa [hsame], ?_⟩
    rw [hpushed, Array.toList_push]
    exact hvalues.trans (List.prefix_append _ _)
  | pop hpop =>
    obtain ⟨habove, -, hpopped, -, hsame⟩ := Stack.of_pop hpop
    refine ⟨inner, ⟨locals, hframes⟩, by rwa [hsame], ?_⟩
    rw [hpopped, Array.toList_pop]
    exact prefix_dropLast hvalues (by simp only [Array.length_toList]; unfold Stack.size at *; omega)
  | replaceTop hreplace =>
    obtain ⟨habove, rfl⟩ := Stack.of_replaceTop hreplace
    refine ⟨inner, ⟨locals, hframes⟩, hfloor, ?_⟩
    rw [Array.toList_push, Array.toList_pop]
    refine (prefix_dropLast hvalues ?_).trans (List.prefix_append _ _)
    simp only [Array.length_toList]
    unfold Stack.size at *
    omega
  | @setLocal frame set index value htop hset =>
    obtain ⟨-, -, _, hchanged⟩ := Frame.of_writeLocal hset
    obtain ⟨callers, hpush⟩ := exists_push_of_top? htop
    have hafter : (store.calls.replaceTop set).frames.toList = callers.toList ++ [set] := by
      rw [CallStack.replaceTop, hpush, Array.pop_push, Array.toList_push]
    rcases htops hpush with ⟨rfl, hcallers, locals', hframe⟩ | ⟨rest, locals', rfl, hcallers⟩
    · refine ⟨[], ⟨set.locals, ?_⟩, hfloor, hvalues⟩
      rw [hafter, hcallers, hchanged, hframe]
    · refine ⟨rest ++ [set], ⟨locals', ?_⟩, ?_, hvalues⟩
      · rw [hafter, hcallers, List.append_assoc, List.cons_append]
      · rw [List.map_append] at hfloor ⊢
        rw [hchanged]
        exact hfloor
  | write hwrite => exact ⟨inner, ⟨locals, hframes⟩, hfloor, hvalues⟩

theorem changes (h : Inside caller entry store inner) (hgood : store.WellFormed)
    (hchanges : ReflTransGen Change store after) : ∃ inner', Inside caller entry after inner' := by
  induction hchanges with
  | refl => exact ⟨inner, h⟩
  | tail hchanges hlast ih =>
    obtain ⟨inner', hinside⟩ := ih
    exact hinside.change (hgood.changes hchanges) hlast

/-- A routine has just been entered. -/
theorem of_enter {calls : CallStack} (hpush : caller.calls.push entry = .ok calls) :
    Inside caller entry { caller with calls, stack := caller.stack.enter } [] := by
  obtain ⟨-, rfl⟩ := CallStack.of_push hpush
  exact ⟨⟨entry.locals, Array.toList_push⟩, rfl, List.prefix_refl _⟩

/-- A nested call. -/
theorem enter (h : Inside caller entry store inner) {frame : Frame} {calls : CallStack}
    (hpush : store.calls.push frame = .ok calls) (hsaved : frame.savedFloor = store.stack.floor) :
    Inside caller entry { store with calls, stack := store.stack.enter } (inner ++ [frame]) := by
  obtain ⟨⟨locals, hframes⟩, hfloor, hvalues⟩ := h
  obtain ⟨-, rfl⟩ := CallStack.of_push hpush
  refine ⟨⟨locals, ?_⟩, ?_, hvalues⟩
  · rw [Array.toList_push, hframes, List.append_assoc, List.cons_append]
  · rw [List.map_append, List.map_singleton, hsaved, List.head?_append, hfloor]
    rfl

/-- A return ends a nested call, or gives the caller its frames, its stack and its floor back. -/
theorem leave (h : Inside caller entry store inner) (hgood : store.WellFormed) {frame : Frame}
    {stack : Stack} (htop : store.calls.top? = some frame)
    (hleave : store.stack.leave frame.savedFloor = .ok stack) :
    (∃ inner', Inside caller entry { store with calls := store.calls.pop, stack } inner') ∨
      store.calls.pop.frames = caller.calls.frames ∧ stack.values = caller.stack.values ∧
        stack.floor = entry.savedFloor ∧ ∃ locals, frame = { entry with locals } := by
  have hle := h.le_floor hgood
  obtain ⟨callers, hpush⟩ := exists_push_of_top? htop
  have hpop : store.calls.pop.frames = callers := by rw [CallStack.pop, hpush, Array.pop_push]
  have htops := h.top_cases hpush
  obtain ⟨-, hfloor, hvalues⟩ := h
  obtain ⟨hnonneg, hleft, -, hsaved⟩ := Stack.of_leave hleave hgood.floor_le
  rcases htops with ⟨rfl, hcallers, locals, rfl⟩ | ⟨rest, locals, rfl, hcallers⟩
  · refine .inr ⟨?_, ?_, hsaved, locals, rfl⟩
    · rw [hpop]
      exact Array.toList_inj.mp hcallers
    · have hheight : store.stack.floor.toNat = caller.stack.values.size := by
        have hbase : store.stack.floor = (caller.stack.size : Int) := Option.some.inj hfloor
        rw [hbase]
        rfl
      apply Array.toList_inj.mp
      rw [hleft, hheight, Array.toList_extract, List.extract_eq_take_drop, List.drop_zero, Nat.sub_zero,
        ← Array.length_toList]
      exact (List.prefix_iff_eq_take.mp hvalues).symm
  · refine .inl ⟨rest, ⟨locals, ?_⟩, ?_, ?_⟩
    · rw [hpop, hcallers]
    · rw [hsaved]
      cases rest with
      | nil => exact hfloor
      | cons first rest => exact hfloor
    · rw [hleft, Array.toList_extract, List.extract_eq_take_drop, List.drop_zero, Nat.sub_zero,
        List.prefix_take_iff, Array.length_toList]
      exact ⟨hvalues, by unfold Stack.size at hle; omega⟩

end Inside

end Store

namespace Machine

variable {G S : Type} {caller : Store} {entry : Frame} {inner : List Frame}

/-! ## Steps inside a call -/

theorem inside_changes [Sink S] {machine after : Machine G S}
    (h : Store.Inside caller entry machine.toStore inner) (hgood : machine.toStore.WellFormed)
    (hchanges : ReflTransGen Change machine after) :
    ∃ inner', Store.Inside caller entry after.toStore inner' :=
  h.changes hgood (storeChanges hchanges)

/-- The store is the caller's, but for a result in the variable that the call names, and the machine goes
on behind the call. -/
structure Delivered (caller : Store) (storeVariable : UInt8) (address : UInt32) (value : UInt16)
    (before after : Machine G S) : Prop where
  pc_eq : after.pc = address
  store : ∃ home : Store, home.image = before.image ∧ home.calls.frames = caller.calls.frames ∧
    home.stack.values = caller.stack.values ∧ home.stack.floor = caller.stack.floor ∧
    Store.Written storeVariable value home after.toStore

theorem Delivered.depth_eq {storeVariable : UInt8} {address : UInt32} {value : UInt16}
    {before after : Machine G S} (h : Delivered caller storeVariable address value before after) :
    after.calls.depth = caller.calls.depth := by
  obtain ⟨home, -, hframes, -, -, hwritten⟩ := h.store
  rw [hwritten.depth_eq, CallStack.depth, hframes]
  rfl

/-- A return ends a nested call, or the call itself. -/
theorem inside_return [Sink S] {value : UInt16} {before after : Machine G S}
    (h : Store.Inside caller entry before.toStore inner) (hgood : before.toStore.WellFormed)
    (hsaved : entry.savedFloor = caller.stack.floor) (hkeeps : entry.discardResult = false)
    (hreturn : (returnValue value).perform before = (.ok (), after)) :
    (∃ inner', Store.Inside caller entry after.toStore inner') ∨
      Delivered caller entry.storeVariable entry.returnPC value before after := by
  rw [perform_returnValue] at hreturn
  cases htop : before.calls.top? with
  | none =>
    rw [htop] at hreturn
    cases hreturn
    exact .inl ⟨inner, h⟩
  | some frame =>
    obtain ⟨stack, hleave⟩ := Stack.exists_leave hgood.floor_nonneg hgood.floor_le frame.savedFloor
    rw [htop] at hreturn
    dsimp only at hreturn
    rw [hleave] at hreturn
    dsimp only at hreturn
    rcases h.leave hgood htop hleave with ⟨inner', hinside⟩ | ⟨hframes, hvalues, hfloor, locals, rfl⟩
    · split at hreturn
      · cases hreturn
        exact .inl ⟨inner', hinside⟩
      · have hstore := hgood.leave htop hleave
        have hchanges := (obeys_setVariable frame.storeVariable value).changes
          { before with calls := before.calls.pop, stack, pc := frame.returnPC } hstore
        rw [hreturn] at hchanges
        exact .inl (inside_changes hinside hstore hchanges)
    · rw [if_neg (by rw [hkeeps]; exact Bool.false_ne_true), onStore, Exec.perform_within] at hreturn
      obtain ⟨hresult, rfl⟩ := Prod.mk.inj hreturn
      refine .inr ⟨rfl, ⟨before.image, stack, before.calls.pop⟩, rfl, hframes, hvalues,
        hfloor.trans hsaved, ?_⟩
      exact Store.written_of_write (Prod.ext hresult rfl)

theorem inside_fetched {machine before : Machine G S} {instruction : Instruction}
    (h : Store.Inside caller entry machine.toStore inner) (hgood : machine.WellFormed)
    (hfetched : machine.fetched? = some (instruction, before)) :
    ∃ inner', Store.Inside caller entry before.toStore inner' := by
  obtain ⟨-, -, ⟨-, rfl⟩ | ⟨-, -, -, rfl⟩⟩ := of_fetched hfetched
  · exact ⟨inner, h⟩
  · have hpops := Instruction.decode_pops machine.pc machine.toStore
    exact h.changes hgood.store (Store.changes_of_pops hpops)

theorem upcoming_of_fetched {machine before : Machine G S} {instruction : Instruction}
    {found : Option Operation} (hfetched : machine.fetched? = some (instruction, before))
    (hfind : Operation.find instruction.count instruction.number = .ok found) :
    machine.upcoming? = found := by
  unfold upcoming?
  rw [hfetched]
  dsimp only
  rw [hfind]

/-! ## The depth of calls -/

theorem depth_of_fetched {machine before : Machine G S} {instruction : Instruction}
    (hfetched : machine.fetched? = some (instruction, before)) :
    before.calls.depth = machine.calls.depth := by
  obtain ⟨-, -, ⟨-, rfl⟩ | ⟨-, -, -, rfl⟩⟩ := of_fetched hfetched
  · rfl
  · exact congrArg _ (Store.calls_of_pops (Instruction.decode_pops machine.pc machine.toStore))

variable [Sink S]

theorem depth_of_changes {machine after : Machine G S} (h : ReflTransGen Change machine after) :
    after.calls.depth = machine.calls.depth := by
  have hfloors := congrArg List.length (Store.floors_changes (storeChanges h))
  simpa [Store.floors, CallStack.depth] using hfloors

theorem depth_return_le (value : UInt16) {machine : Machine G S} (hgood : machine.toStore.WellFormed) :
    ((returnValue value).perform machine).2.calls.depth ≤ machine.calls.depth := by
  rw [perform_returnValue]
  cases htop : machine.calls.top? with
  | none => exact Nat.le_refl _
  | some frame =>
    obtain ⟨stack, hleave⟩ := Stack.exists_leave hgood.floor_nonneg hgood.floor_le frame.savedFloor
    dsimp only
    rw [hleave]
    dsimp only
    have hpop : machine.calls.pop.depth ≤ machine.calls.depth := by
      unfold CallStack.depth CallStack.pop
      rw [Array.size_pop]
      omega
    split
    · exact hpop
    · have hchanges := (obeys_setVariable frame.storeVariable value).changes
        { machine with calls := machine.calls.pop, stack, pc := frame.returnPC } (hgood.leave htop hleave)
      rw [depth_of_changes hchanges]
      exact hpop

/-- Only a call adds to the calls. -/
theorem enters_of_deeper {machine after : Machine G S} {operation : Operation}
    (hgood : machine.toStore.WellFormed) (h : Effect machine operation (.ok (), after))
    (hdepth : after.calls.depth = machine.calls.depth + 1) :
    operation = .call ∧ ∃ storeVariable behind,
      nextByte.perform machine = (.ok storeVariable, behind) ∧ Enters behind storeVariable after := by
  generalize hresult : (Except.ok (), after) = result at h
  cases h with
  | changes hchanges _ =>
    subst hresult
    have hkept : after.calls.depth = machine.calls.depth := depth_of_changes hchanges
    omega
  | @returns before value hchanges =>
    have hle := depth_return_le value (wellFormed_of_changes hchanges hgood)
    rw [← hresult, depth_of_changes hchanges] at hle
    dsimp only at hle
    omega
  | @enters storeVariable behind _ hoperation hbyte henters =>
    cases hresult
    exact ⟨hoperation, storeVariable, behind, hbyte, henters⟩
  | waits _ => cases hresult
  | restarts _ =>
    cases hresult
    cases hdepth

/-! ## Steps -/

variable [Generator G]

/-- **A step inside a call stays inside it or returns from it.** -/
theorem inside_step {machine : Machine G S} (h : Store.Inside caller entry machine.toStore inner)
    (hgood : machine.WellFormed) (hsaved : entry.savedFloor = caller.stack.floor)
    (hkeeps : entry.discardResult = false)
    (hfault : ∀ fault, machine.step.1 ≠ some (.fault fault))
    (hrestart : machine.upcoming? ≠ some .restart) :
    (∃ inner', Store.Inside caller entry machine.step.2.toStore inner') ∨
      machine.step.1 = none ∧ ∃ value before, ReflTransGen Move machine before ∧
        (returnValue value).perform before = (.ok (), machine.step.2) ∧
        Delivered caller entry.storeVariable entry.returnPC value before machine.step.2 := by
  have heffect := step_effect hgood
  generalize machine.step = outcome at heffect hfault ⊢
  cases heffect with
  | idle _ => exact .inl ⟨inner, h⟩
  | @faults _ fault _ _ => exact absurd rfl (hfault fault)
  | skips hfetched => exact .inl (inside_fetched h hgood hfetched)
  | waits hfetched _ =>
    obtain ⟨inner', hinside⟩ := inside_fetched h hgood hfetched
    exact .inl ⟨inner', hinside⟩
  | @performs _ fetched after _ hfetched hfind heffect =>
    obtain ⟨inner', hinside⟩ := inside_fetched h hgood hfetched
    have hmoves := (hgood.fetched hfetched).2
    have hstore := (hgood.moves hmoves).store
    generalize hresult : (Except.ok (), after) = result at heffect
    cases heffect with
    | changes hchanges _ =>
      subst hresult
      exact .inl (inside_changes hinside hstore hchanges)
    | @returns before value hchanges =>
      obtain ⟨inner'', hbefore⟩ := inside_changes hinside hstore hchanges
      have hgood' := wellFormed_of_changes hchanges hstore
      refine (inside_return hbefore hgood' hsaved hkeeps hresult.symm).imp_right ?_
      intro hdelivered
      exact ⟨rfl, value, before, hmoves.trans (moves_of_changes hchanges), rfl, hdelivered⟩
    | enters _ hbyte henters =>
      cases hresult
      have hchanges := obeys_nextByte.changes fetched hstore
      rw [hbyte] at hchanges
      obtain ⟨inner'', hbehind⟩ := inside_changes hinside hstore hchanges
      obtain ⟨hpush, -, -, -, hfloor, -, -⟩ := henters
      exact .inl ⟨_, hbehind.enter hpush hfloor⟩
    | waits _ => cases hresult
    | restarts hoperation =>
      refine absurd ?_ hrestart
      rw [upcoming_of_fetched hfetched hfind, hoperation]

/-! ## From the call to its return -/

/-- What a machine can be brought to by steps that neither fault nor restart the story, with any changes
of its input, while there are more than `depth` calls. -/
inductive Continues (depth : Nat) (start : Machine G S) : Machine G S → Prop
  | refl : Continues depth start start
  | step {machine : Machine G S} (h : Continues depth start machine)
      (hfault : ∀ fault, machine.step.1 ≠ some (.fault fault))
      (hrestart : machine.upcoming? ≠ some .restart) (hdepth : depth < machine.step.2.calls.depth) :
      Continues depth start machine.step.2
  | setInput {machine : Machine G S} (input : Option LineSource) (h : Continues depth start machine) :
      Continues depth start { machine with input }

theorem Continues.inside {start machine : Machine G S}
    (h : Continues caller.calls.depth start machine) (hgood : start.WellFormed)
    (hinside : Store.Inside caller entry start.toStore inner)
    (hsaved : entry.savedFloor = caller.stack.floor) (hkeeps : entry.discardResult = false) :
    machine.WellFormed ∧ ∃ inner', Store.Inside caller entry machine.toStore inner' := by
  induction h with
  | refl => exact ⟨hgood, inner, hinside⟩
  | step _ hfault hrestart hdepth ih =>
    obtain ⟨hgood', inner', hinside'⟩ := ih
    refine ⟨hgood'.step, ?_⟩
    rcases inside_step hinside' hgood' hsaved hkeeps hfault hrestart with
      hstays | ⟨-, value, before, -, -, hdelivered⟩
    · exact hstays
    · exact absurd hdelivered.depth_eq (Nat.ne_of_gt hdepth)
  | setInput input _ ih =>
    obtain ⟨hgood', inner', hinside'⟩ := ih
    exact ⟨hgood'.move (.change .input), inner', hinside'⟩

/-- A step that adds to the calls is a call, and leaves the machine inside it. -/
theorem inside_of_deeper {machine : Machine G S} (hgood : machine.WellFormed)
    (hstep : machine.step.1 = none) (hdepth : machine.step.2.calls.depth = machine.calls.depth + 1) :
    machine.upcoming? = some .call ∧ ∃ entry : Frame,
      machine.image.readByte (Instruction.decode machine.pc machine.toStore).1.next =
        .ok entry.storeVariable ∧
      entry.returnPC = (Instruction.decode machine.pc machine.toStore).1.next + 1 ∧
      entry.savedFloor = (Instruction.decode machine.pc machine.toStore).2.stack.floor ∧
      entry.discardResult = false ∧
      Store.Inside (Instruction.decode machine.pc machine.toStore).2 entry machine.step.2.toStore [] := by
  have heffect := step_effect hgood
  generalize machine.step = outcome at heffect hstep hdepth ⊢
  cases heffect with
  | idle _ => exact absurd hdepth (Nat.ne_of_lt (Nat.lt_succ_self _))
  | faults _ _ => cases hstep
  | skips hfetched =>
    rw [depth_of_fetched hfetched] at hdepth
    exact absurd hdepth (Nat.ne_of_lt (Nat.lt_succ_self _))
  | waits _ _ => cases hstep
  | @performs instruction fetched after _ hfetched hfind heffect =>
    have hstore := (hgood.moves (hgood.fetched hfetched).2).store
    dsimp only at hdepth
    rw [← depth_of_fetched hfetched] at hdepth
    obtain ⟨rfl, storeVariable, behind, hbyte, henters⟩ := enters_of_deeper hstore heffect hdepth
    refine ⟨upcoming_of_fetched hfetched hfind, ?_⟩
    obtain ⟨-, -, ⟨hpending, -⟩ | ⟨-, -, rfl, rfl⟩⟩ := of_fetched hfetched
    · -- an instruction that waits for input is no call
      rw [(hgood.pending instruction hpending).find_eq] at hfind
      cases hfind
    · have himage := Store.image_of_pops (Instruction.decode_pops machine.pc machine.toStore)
      rw [perform_nextByte] at hbyte
      dsimp only at hbyte
      rw [himage] at hbyte
      split at hbyte
      · rename_i byte hread
        cases hbyte
        obtain ⟨hpush, hreturn, hstored, hkeeps, hfloor, -, -⟩ := henters
        rename_i frame calls body
        exact ⟨frame, by rw [hread, hstored], hreturn, hfloor, hkeeps, .of_enter hpush⟩
      · cases hbyte

/-- **A call is isolated from its caller.** Let a step from a reachable machine add to the calls. It is a
call, and its store byte stands behind its operands. For as long as the call has not returned, the frames
and the words that its operands left lie unchanged below, whatever is executed. A step that brings the
number of calls back returns some value: the machine goes on behind the store byte with the caller's
frames and words, but for the value in the variable that the byte names. -/
theorem call_isolation {file : Array UInt8} {image : Image} (hload : Image.load file = .ok image)
    {machine : Machine G S} (h : Reachable image machine) (hstep : machine.step.1 = none)
    (hdepth : machine.step.2.calls.depth = machine.calls.depth + 1) :
    machine.upcoming? = some .call ∧
    (Instruction.decode machine.pc machine.toStore).2.calls = machine.calls ∧
    ∃ storeVariable,
      machine.image.readByte (Instruction.decode machine.pc machine.toStore).1.next =
        .ok storeVariable ∧
      ∀ running : Machine G S, Continues machine.calls.depth machine.step.2 running →
        machine.calls.frames.toList <+: running.calls.frames.toList ∧
        (Instruction.decode machine.pc machine.toStore).2.stack.values.toList <+:
          running.stack.values.toList ∧
        ((∀ fault, running.step.1 ≠ some (.fault fault)) → running.upcoming? ≠ some .restart →
          running.step.2.calls.depth ≤ machine.calls.depth →
          running.step.1 = none ∧ running.step.2.calls.depth = machine.calls.depth ∧
          ∃ value before, ReflTransGen Move running before ∧
            (returnValue value).perform before = (.ok (), running.step.2) ∧
            Delivered (Instruction.decode machine.pc machine.toStore).2 storeVariable
              ((Instruction.decode machine.pc machine.toStore).1.next + 1) value before
              running.step.2) := by
  have hgood := h.wellFormed (Image.load_wellFormed hload)
  have hcalls := Store.calls_of_pops (Instruction.decode_pops machine.pc machine.toStore)
  obtain ⟨hcall, entry, hbyte, hreturn, hsaved, hkeeps, hinside⟩ := inside_of_deeper hgood hstep hdepth
  refine ⟨hcall, hcalls, entry.storeVariable, hbyte, ?_⟩
  intro running hcontinues
  rw [← hcalls] at hcontinues ⊢
  obtain ⟨hrunning, inner, hinside'⟩ := hcontinues.inside hgood.step hinside hsaved hkeeps
  obtain ⟨locals, hframes⟩ := hinside'.frames
  refine ⟨⟨_, hframes.symm⟩, hinside'.values, ?_⟩
  intro hfault hrestart hback
  rcases inside_step hinside' hrunning hsaved hkeeps hfault hrestart with
    ⟨inner', hstays⟩ | ⟨hnone, value, before, hmoves, hreturned, hdelivered⟩
  · have hdeep := hstays.depth_eq
    omega
  · rw [hreturn] at hdelivered
    exact ⟨hnone, hdelivered.depth_eq, value, before, hmoves, hreturned, hdelivered⟩

/-- The sample story in its routine, which has waited for a line and got one. -/
def sampleRoutine : Machine Dice Transcript :=
  { sampleMachine.step.2.step.2.step.2 with input := some (.ofLines [[0x61]]) }.step.2

theorem continues_sampleRoutine :
    Continues sampleMachine.step.2.calls.depth sampleMachine.step.2.step.2 sampleRoutine := by
  have hwait : Continues sampleMachine.step.2.calls.depth sampleMachine.step.2.step.2
      sampleMachine.step.2.step.2.step.2 := by
    refine .step .refl (fun fault h => ?_) (by decide +kernel) (by decide +kernel)
    have hnone : sampleMachine.step.2.step.2.step.1 = some (.noLine .noSource) := by decide +kernel
    rw [hnone] at h
    cases h
  refine .step (.setInput _ hwait) (fun fault h => ?_) (by decide +kernel) (by decide +kernel)
  have hnone : { sampleMachine.step.2.step.2.step.2 with
      input := some (.ofLines [[0x61]]) : Machine Dice Transcript }.step.1 = none := by decide +kernel
  rw [hnone] at h
  cases h

theorem call_isolation_sample :
    sampleMachine.step.2.calls.frames.toList <+: sampleRoutine.calls.frames.toList ∧
      ∃ value before, (returnValue value).perform before = (.ok (), sampleRoutine.step.2) ∧
        sampleRoutine.step.2.pc = 0x4B := by
  obtain ⟨-, -, storeVariable, -, hrunning⟩ := call_isolation load_sampleStory
    reachable_sampleMachine.step (by decide +kernel) (by decide +kernel)
  obtain ⟨hframes, -, hreturns⟩ := hrunning sampleRoutine continues_sampleRoutine
  have hnone : sampleRoutine.step.1 = none := by decide +kernel
  obtain ⟨-, -, value, before, -, hreturn, hdelivered⟩ :=
    hreturns (by rw [hnone]; exact nofun) (by decide +kernel) (by decide +kernel)
  refine ⟨hframes, value, before, hreturn, ?_⟩
  rw [hdelivered.pc_eq]
  decide +kernel

end Machine

end StoryMachine
