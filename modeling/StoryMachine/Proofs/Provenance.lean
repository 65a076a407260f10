import Mathlib.Data.List.Induction
import StoryMachine.Proofs.Run

/-!
# Where a fault comes from

A fault reports the address and the opcode of an instruction. By then the program counter may be anywhere, and
an instruction that waited for a line was decoded many steps ago.

* `Instruction.decode_names` : an instruction carries the address and the byte that it was decoded from;
* `Machine.HeldBy instruction` : the machine waits for a line of the instruction, or is halted by a fault that
  names it. A step that leaves the machine held up has decoded the instruction that does so, or found the
  machine held up already (`heldBy_step`);
* `Machine.spelled` : the requests of a session with every run spelled out in steps, so that each state in
  between is behind a list of requests (`serve_spelled`);
* `Machine.Traced` : the instruction that holds a session up was decoded by one of its steps, and has held it
  up since; `exists_traced`, by induction over the requests;
* `fault_provenance` : **a fault names the instruction that failed.**
-/

namespace StoryMachine

/-! ## What an instruction was decoded from -/

/-- An instruction that was decoded, in full or up to an operand, has the address it was decoded at, and its
opcode is the byte there, or 0 if there is none. -/
theorem Instruction.decode_names (pc : UInt32) {store : Store} (himage : store.image.WellFormed) :
    (decode pc store).1.instruction.address = pc ∧
      (decode pc store).1.instruction.opcode = store.image.bytes.getD pc.toNat 0 := by
  rcases decode_cases pc store with ⟨e, hread, h⟩ | ⟨opcode, cursor, hread, hreads, h⟩
  · rw [h, Image.getD_of_readByte_error himage hread]
    exact ⟨rfl, rfl⟩
  · have hinstruction : (decode pc store).1.instruction = cursor.instruction := by
      rcases h with h | ⟨e, -, h⟩ <;> rw [h]
    rw [hinstruction, hreads.keeps, Image.getD_of_readByte hread]
    exact ⟨rfl, rfl⟩

namespace Machine

variable {G S : Type}

/-- The next step decodes an instruction. -/
structure Ready (machine : Machine G S) : Prop where
  halted : machine.halted = none
  done : machine.done = false
  pending : machine.pending = none

/-- The instruction that a step of the machine decodes. -/
def decoded (machine : Machine G S) : Instruction :=
  (Instruction.decode machine.pc machine.toStore).1.instruction

/-- The machine waits for a line, or is halted. -/
def HeldUp (machine : Machine G S) : Prop :=
  machine.pending.isSome ∨ machine.halted.isSome

/-- The instruction waits for a line, or has halted the machine with a fault that names it. -/
def HeldBy (instruction : Instruction) (machine : Machine G S) : Prop :=
  machine.pending = some instruction ∨
    ∃ fault, machine.halted = some fault ∧
      fault.pc = instruction.address ∧ fault.opcode = instruction.opcode

theorem HeldBy.pending_or_halted {instruction : Instruction} {machine : Machine G S}
    (h : HeldBy instruction machine) : machine.pending = some instruction ∨ machine.halted.isSome := by
  refine h.imp_right ?_
  rintro ⟨fault, hfault, -⟩
  exact Option.isSome_iff_exists.mpr ⟨fault, hfault⟩

/-! ## Failures name an instruction -/

theorem heldBy_fail (instruction : Instruction) {error : Error}
    (h : ∀ table, error ≠ .outsideTable table) (machine : Machine G S) :
    HeldBy instruction (fail instruction error machine).2 := by
  unfold fail
  split
  · exact .inl rfl
  · exact absurd rfl (h _)
  · exact .inr ⟨_, rfl, rfl, rfl⟩

/-- A machine that is neither halted nor done, and can fetch nothing, failed to decode an instruction. -/
theorem ready_of_not_fetched {machine : Machine G S} (hidle : ¬ (machine.halted.isSome ∨ machine.done))
    (h : machine.fetched? = none) : machine.Ready := by
  unfold fetched? at h
  rw [if_neg hidle] at h
  simp only [not_or, Bool.not_eq_true, Option.isSome_eq_false_iff, Option.isNone_iff_eq_none] at hidle
  refine ⟨hidle.1, hidle.2, ?_⟩
  cases hpending : machine.pending with
  | none => rfl
  | some instruction =>
    rw [hpending] at h
    cases h

variable [Generator G] [Sink S]

/-- An instruction that is executed fails, if at all, as itself. -/
theorem execute_eq_none_or_fail (instruction : Instruction) (machine : Machine G S) :
    (execute instruction machine).1 = none ∨
      ∃ error after, execute instruction machine = fail instruction error after := by
  unfold execute
  split
  · exact .inr ⟨_, _, rfl⟩
  · split
    · exact .inl rfl
    · exact .inr ⟨_, _, rfl⟩
  · split
    · exact .inl rfl
    · exact .inr ⟨_, _, rfl⟩

theorem heldBy_execute {instruction : Instruction} {machine : Machine G S}
    (hsettled : Settled (execute instruction machine)) (h : HeldUp (execute instruction machine).2) :
    HeldBy instruction (execute instruction machine).2 := by
  rcases execute_eq_none_or_fail instruction machine with hnone | ⟨error, after, hfail⟩
  · generalize execute instruction machine = outcome at hsettled h hnone
    cases hsettled with
    | goesOn hpending hhalted => simp [HeldUp, hpending, hhalted] at h
    | waits _ _ _ => cases hnone
    | faults _ _ _ => cases hnone
  · rw [hfail] at hsettled ⊢
    refine heldBy_fail instruction ?_ after
    rintro table rfl
    cases hsettled

/-! ## One request -/

/-- What held the machine up before a request still does behind it. -/
structure StillHeld (machine after : Machine G S) : Prop where
  heldUp : HeldUp machine
  heldBy : ∀ instruction, HeldBy instruction machine → HeldBy instruction after
  halted_eq : machine.halted.isSome → after.halted = machine.halted

/-- A step that leaves the machine held up has decoded the instruction that does so, or the machine was held up
before. -/
theorem heldBy_step {machine : Machine G S} (hgood : machine.WellFormed) (hexclusive : Exclusive machine)
    (h : HeldUp machine.step.2) :
    machine.Ready ∧ HeldBy machine.decoded machine.step.2 ∨ StillHeld machine machine.step.2 := by
  have hsettled := step_settled hgood hexclusive
  by_cases hidle : machine.halted.isSome ∨ machine.done
  · have hstill : machine.step.2 = machine := by
      rcases hidle with hhalted | hdone
      · obtain ⟨fault, hfault⟩ := Option.isSome_iff_exists.mp hhalted
        rw [step_of_halted hfault]
      · rw [step_of_done hexclusive hdone]
    rw [hstill] at h ⊢
    exact .inr ⟨h, fun _ hheld => hheld, fun _ => rfl⟩
  · rcases step_cases machine with ⟨hstopped, -⟩ | ⟨error, hfailure, hnone, hstep⟩ |
      ⟨instruction, before, hfetched, hstep⟩
    · exact absurd hstopped hidle
    · -- the instruction was decoded up to the operand that failed
      obtain ⟨hoperational, -⟩ := Instruction.decode_failure _ _ hgood.store hfailure
      rw [hstep]
      exact .inl ⟨ready_of_not_fetched hidle hnone, heldBy_fail _
        (Error.halting_ne_outsideTable (Error.halting_of_operational hoperational)) _⟩
    · rw [hstep] at hsettled h ⊢
      have hheld := heldBy_execute hsettled h
      obtain ⟨hhalted, hdone, ⟨hpending, -⟩ | ⟨hpending, -, rfl, -⟩⟩ := of_fetched hfetched
      · refine .inr ⟨.inl (by simp [hpending]), ?_, by simp [hhalted]⟩
        rintro other (hother | ⟨fault, hfault, -⟩)
        · rw [hpending] at hother
          cases hother
          exact hheld
        · rw [hhalted] at hfault
          cases hfault
      · exact .inl ⟨⟨hhalted, hdone, hpending⟩, hheld⟩

end Machine

/-! ## Runs spelled out -/

/-- The request is a run. -/
def Request.isRun : Request → Bool
  | run _ _ => true
  | _ => false

namespace Machine

variable {G S : Type} [Generator G] [Sink S]

/-- A request that leaves the machine held up is a step that has decoded the instruction that does so, or the
machine was held up before. -/
theorem heldBy_answer {machine : Machine G S} (hgood : machine.WellFormed) (hexclusive : Exclusive machine)
    {request : Request} (hrequest : request.isRun = false) (h : HeldUp (machine.answer request).2) :
    request = .step ∧ machine.Ready ∧ HeldBy machine.decoded (machine.answer request).2 ∨
      StillHeld machine (machine.answer request).2 := by
  cases request with
  | run fuel budget => cases hrequest
  | restart =>
    rcases h with h | h
    · cases h
    · cases h
  | setInput input => exact .inr ⟨h, fun _ hheld => hheld, fun _ => rfl⟩
  | step =>
    rcases heldBy_step hgood hexclusive h with hfresh | hstill
    · exact .inl ⟨rfl, hfresh⟩
    · exact .inr hstill

/-- The number of steps in a run: those completed, and the one that failed. -/
def Outcome.steps (outcome : Outcome) : Nat :=
  outcome.executed + if outcome.failure.isSome then 1 else 0

/-- A request in single steps. -/
def spell (machine : Machine G S) : Request → List Request
  | .run fuel budget => List.replicate (machine.run fuel budget).1.steps .step
  | request => [request]

/-- Requests with every run spelled out in steps. -/
def spelled (machine : Machine G S) : List Request → List Request
  | [] => []
  | request :: rest => machine.spell request ++ (machine.answer request).2.spelled rest

theorem isRun_of_mem_spelled {machine : Machine G S} {requests : List Request} {request : Request}
    (h : request ∈ machine.spelled requests) : request.isRun = false := by
  induction requests generalizing machine with
  | nil => cases h
  | cons first rest ih =>
    rcases List.mem_append.mp h with hfirst | hrest
    · cases first with
      | run fuel budget =>
        rw [List.eq_of_mem_replicate hfirst]
        rfl
      | _ =>
        rw [List.mem_singleton.mp hfirst]
        rfl
    · exact ih hrest

theorem serve_steps (budget : Nat) (machine : Machine G S) :
    (machine.serve (List.replicate (machine.runFor budget).1.steps .step)).2 =
      (machine.runFor budget).2 := by
  unfold runFor Outcome.steps
  dsimp only
  induction budget generalizing machine with
  | zero => rfl
  | succ budget ih =>
    rw [drive]
    split
    · simp [serve]
    · rcases hstep : machine.step with ⟨_ | failure, after⟩
      · dsimp only
        rw [Nat.succ_sub (left_drive_le budget after), Nat.succ_add, List.replicate_succ]
        change (machine.step.2.serve _).2 = _
        rw [hstep, ih after]
      · simp [serve, answer, hstep]

theorem serve_spelled (machine : Machine G S) (requests : List Request) :
    (machine.serve (machine.spelled requests)).2 = (machine.serve requests).2 := by
  induction requests generalizing machine with
  | nil => rfl
  | cons request rest ih =>
    have hfirst : (machine.serve (machine.spell request)).2 = (machine.answer request).2 := by
      cases request with
      | run fuel budget => exact serve_steps _ machine
      | _ => rfl
    rw [spelled, serve_append, hfirst]
    exact ih (machine.answer request).2

/-! ## Sessions -/

/-- The instruction that holds a session up was decoded by one of its steps, and has held it up since. -/
structure Traced (machine : Machine G S) (requests before later : List Request) : Prop where
  split : requests = before ++ .step :: later
  ready : (machine.serve before).2.Ready
  heldBy : HeldBy (machine.serve before).2.decoded (machine.serve requests).2
  since : ∀ waited, waited <+: later →
    ((machine.serve before).2.step.2.serve waited).2.pending = some (machine.serve before).2.decoded ∨
      ((machine.serve before).2.step.2.serve waited).2.halted.isSome ∧
        ((machine.serve before).2.step.2.serve waited).2.halted = (machine.serve requests).2.halted

theorem serve_concat (machine : Machine G S) (requests : List Request) (request : Request) :
    machine.serve (requests ++ [request]) =
      ((machine.serve requests).1 ++ [((machine.serve requests).2.answer request).1],
        ((machine.serve requests).2.answer request).2) :=
  serve_append machine requests [request]

section
variable {machine : Machine G S} {requests before later : List Request} {request : Request}

/-- The trace of an instruction begins with the step that decodes it. -/
theorem Traced.begin (hready : (machine.serve requests).2.Ready)
    (hheld : HeldBy (machine.serve requests).2.decoded (machine.serve requests).2.step.2) :
    Traced machine (requests ++ [.step]) requests [] := by
  have hlast := congrArg Prod.snd (serve_concat machine requests .step)
  refine ⟨rfl, hready, by rwa [hlast], ?_⟩
  intro waited hwaited
  rw [List.prefix_nil.mp hwaited, hlast]
  exact hheld.pending_or_halted.imp_right fun hhalted => ⟨hhalted, rfl⟩

/-- It goes on as long as nothing frees the machine. -/
theorem Traced.concat (h : Traced machine requests before later)
    (hstill : StillHeld (machine.serve requests).2 ((machine.serve requests).2.answer request).2) :
    Traced machine (requests ++ [request]) before (later ++ [request]) := by
  have hlast := congrArg Prod.snd (serve_concat machine requests request)
  have hheld := hstill.heldBy _ h.heldBy
  refine ⟨?_, h.ready, by rwa [hlast], ?_⟩
  · rw [h.split, List.append_assoc]
    rfl
  · intro waited hwaited
    rw [hlast]
    rcases List.prefix_concat_iff.mp hwaited with rfl | hearlier
    · have hnow : ((machine.serve before).2.step.2.serve later).2 = (machine.serve requests).2 := by
        rw [h.split, serve_append]
        rfl
      rw [serve_concat, hnow]
      exact hheld.pending_or_halted.imp_right fun hhalted => ⟨hhalted, rfl⟩
    · rcases h.since waited hearlier with hpending | ⟨hhalted, heq⟩
      · exact .inl hpending
      · rw [hstill.halted_eq (heq ▸ hhalted)]
        exact .inr ⟨hhalted, heq⟩

end

/-- **What holds a session up was decoded by one of its steps**, if the session began with nothing that does. -/
theorem exists_traced {image : Image} (himage : image.WellFormed) {machine : Machine G S}
    (hmachine : Reachable image machine) (hstart : ¬ HeldUp machine) {requests : List Request}
    (hruns : ∀ request ∈ requests, request.isRun = false) (h : HeldUp (machine.serve requests).2) :
    ∃ before later, Traced machine requests before later := by
  induction requests using List.reverseRecOn with
  | nil => exact absurd h hstart
  | append_singleton requests request ih =>
    have hreachable := hmachine.serve requests
    rw [serve_concat] at h
    rcases heldBy_answer (hreachable.wellFormed himage) (hreachable.exclusive himage)
      (hruns request (by simp)) h with ⟨rfl, hready, hheld⟩ | hstill
    · exact ⟨requests, [], .begin hready hheld⟩
    · obtain ⟨before, later, htraced⟩ := ih (fun request hmem => hruns request (by simp [hmem]))
        hstill.heldUp
      exact ⟨before, later ++ [request], htraced.concat hstill⟩

/-- A fault that a reply reports has halted the machine. -/
theorem halted_of_reply {machine : Machine G S} (hgood : machine.WellFormed) {request : Request}
    {fault : Fault} (h : (machine.answer request).1.failure? = some (.fault fault)) :
    (machine.answer request).2.halted = some fault := by
  have hstep : ∀ {before after : Machine G S}, before.WellFormed →
      before.step = (some (.fault fault), after) → after.halted = some fault := by
    intro before after hbefore hfailed
    rcases step_failure hbefore (by rw [hfailed]) with ⟨raised, hraised, hhalted⟩ |
      ⟨reason, _, _, _, hreason, -⟩
    · cases hraised
      rwa [hfailed] at hhalted
    · cases hreason
  cases request with
  | step => exact hstep hgood (Prod.ext h rfl)
  | run fuel budget =>
    obtain ⟨before, hbefore, hfailed⟩ :=
      exists_step_of_drive (fun _ hgood => WellFormed.step hgood) _ hgood h
    exact hstep hbefore hfailed
  | restart => cases h
  | setInput input => cases h

theorem halted_of_last {machine : Machine G S} (hgood : machine.WellFormed) {requests : List Request}
    {fault : Fault}
    (h : (machine.serve requests).1.getLast?.bind Reply.failure? = some (.fault fault)) :
    (machine.serve requests).2.halted = some fault := by
  cases requests using List.reverseRecOn with
  | nil => cases h
  | append_singleton requests request =>
    rw [serve_concat] at h ⊢
    rw [List.getLast?_concat] at h
    exact halted_of_reply (hgood.serve requests) h

/-- **A fault names the instruction that failed.** If a session of a loaded story ends in a fault, then one of
its steps, also one inside a run, found the machine ready and decoded an instruction, at the address that the
fault reports and with the byte there as its opcode. Since then that instruction was all that the session
executed: the machine waited for its line, or was halted by the fault. -/
theorem fault_provenance {file : Array UInt8} {image : Image} (hload : Image.load file = .ok image)
    {settings : Settings} {session : String} {input : Option LineSource} {sink : Option S}
    {generator : G} {unicode : Text.Unicode} {machine : Machine G S}
    (hmachine : new image settings session input sink generator unicode = machine) (requests : List Request)
    {fault : Fault}
    (hfault : (machine.serve requests).2.halted = some fault ∨
      (machine.serve requests).1.getLast?.bind Reply.failure? = some (.fault fault)) :
    ∃ before later, machine.spelled requests = before ++ .step :: later ∧
      let start := (machine.serve before).2
      start.Ready ∧ fault.pc = start.pc ∧ fault.opcode = start.image.bytes.getD start.pc.toNat 0 ∧
      ∀ waited, waited <+: later →
        (start.step.2.serve waited).2.pending = some start.decoded ∨
          (start.step.2.serve waited).2.halted = some fault := by
  have himage := Image.load_wellFormed hload
  have hreachable : Reachable image machine := hmachine ▸ .new settings session input sink generator unicode
  have hstart : ¬ HeldUp machine := by
    subst hmachine
    exact fun h => h.elim nofun nofun
  have hhalted : (machine.serve requests).2.halted = some fault :=
    hfault.elim id (halted_of_last (hreachable.wellFormed himage))
  have hheld : HeldUp (machine.serve (machine.spelled requests)).2 := by
    rw [serve_spelled]
    exact .inr (by simp [hhalted])
  obtain ⟨before, later, htraced⟩ := exists_traced himage hreachable hstart
    (fun _ hmem => isRun_of_mem_spelled hmem) hheld
  obtain ⟨hsplit, hready, hheldBy, hsince⟩ := htraced
  rw [serve_spelled] at hheldBy hsince
  have hexclusive := (hreachable.serve requests).exclusive himage
  have hpending := hexclusive.halted_or_pending.resolve_left (by simp [hhalted])
  rw [HeldBy, hpending, hhalted] at hheldBy
  rw [hhalted] at hsince
  obtain ⟨raised, hraised, hpc, hopcode⟩ := hheldBy.resolve_left nofun
  cases hraised
  have hbefore := (hreachable.serve before).wellFormed himage
  obtain ⟨haddress, hbyte⟩ := Instruction.decode_names (machine.serve before).2.pc hbefore.store.image
  refine ⟨before, later, hsplit, hready, hpc.trans haddress, hopcode.trans hbyte, ?_⟩
  exact fun waited hwaited => (hsince waited hwaited).imp_right And.right

/-- The small story, whose buffer has no room for a line. -/
def crampedStory : Array UInt8 :=
  sampleStory.setIfInBounds 0x4C 0

def crampedImage : Image :=
  .whole crampedStory

theorem load_crampedStory : Image.load crampedStory = .ok crampedImage :=
  Image.load_eq_whole (by decide) (by decide) (by decide) (by decide) (by decide) (by decide)

def crampedMachine : Machine Dice Transcript :=
  .new crampedImage {} "" none none (.ofClock 0) .fifteen

/-- The story waits for a line, is asked again in vain, and gets one. -/
def crampedSession : List Request :=
  [.run 10 0, .step, .setInput (some (.ofLines [[0x61]])), .run 5 0]

theorem fault_provenance_sample :
    (crampedMachine.serve crampedSession).2.halted = some ⟨"", 0x55, 0xE4, .noRoom 0x4C⟩ ∧
    (crampedMachine.spelled crampedSession).length = 6 ∧
    ∃ before later, crampedMachine.spelled crampedSession = before ++ .step :: later ∧
      (crampedMachine.serve before).2.Ready ∧ (crampedMachine.serve before).2.pc = 0x55 ∧
      (crampedMachine.serve before).2.image.bytes.getD 0x55 0 = 0xE4 := by
  have hhalted : (crampedMachine.serve crampedSession).2.halted =
      some ⟨"", 0x55, 0xE4, .noRoom 0x4C⟩ := by decide +kernel
  obtain ⟨before, later, hsplit, hready, hpc, hopcode, -⟩ :=
    fault_provenance load_crampedStory (show _ = crampedMachine from rfl) crampedSession (.inl hhalted)
  rw [← hpc] at hopcode
  exact ⟨hhalted, by decide +kernel, before, later, hsplit, hready, hpc.symm, hopcode.symm⟩

end Machine

end StoryMachine
