import StoryMachine.Machine.Step
import StoryMachine.Proofs.Machine

/-!
# What a step does to a machine

* `Machine.Move` : all that can happen to a machine in a step, one thing at a time: a change, a routine
  entered or left, a restart, and the three ways in which its status changes;
* `Machine.WellFormed` : the invariant of machines, kept by every move (`WellFormed.move`);
* `Machine.fetched?` : the instruction that the next step executes, decoded or waiting for input;
  `step_cases` : a step is idle, fails to decode, or executes the fetched instruction;
* `Machine.StepEffect`, `step_effect` : **all that a step can do**;
* `step_moves` : **a step is made of moves**; `step_failure` : **a step that fails has halted the
  machine or waits for a line.**
-/

namespace StoryMachine

open Relation (ReflTransGen)

/-- The instruction reads a line of input. -/
structure Instruction.AsksForLine (instruction : Instruction) : Prop where
  wellFormed : instruction.WellFormed
  find_eq : Operation.find instruction.count instruction.number = .ok (some .readLine)

namespace Machine

variable {G S : Type}

/-! ## The invariant -/

/-- The invariant of machines: the store is well-formed, only an instruction that reads a line waits for
one, and a fault has a cause that ends in one. -/
structure WellFormed (machine : Machine G S) : Prop where
  store : machine.toStore.WellFormed
  pending : ∀ instruction, machine.pending = some instruction → instruction.AsksForLine
  halted : ∀ fault, machine.halted = some fault → fault.cause.Faults

theorem wellFormed_restart {machine : Machine G S} (h : machine.toStore.WellFormed) :
    machine.restart.WellFormed := by
  refine ⟨.fresh ?_ ?_ rfl rfl, ?_, ?_⟩
  · exact (Image.SameStory.reset h.image).wellFormed h.image
  · simp [restart, Stack.clear, Stack.moveTop]
  · intro instruction h
    cases h
  · intro fault h
    cases h

theorem fail_of_faults (instruction : Instruction) {error : Error} (machine : Machine G S) (h : error.Faults) :
    ∃ fault : Fault, fault.cause = error ∧
      fail instruction error machine = (some (.fault fault), { machine with halted := some fault }) := by
  unfold fail
  split
  · exact absurd rfl (h.ne_noLine _)
  · exact absurd rfl (h.ne_outsideTable _)
  · exact ⟨_, rfl, rfl⟩

/-! ## Moves -/

section
variable [Sink S]

/-- What can happen to a machine in a step. -/
inductive Move : Machine G S → Machine G S → Prop
  | change {machine after : Machine G S} (h : Change machine after) : Move machine after
  | enter {machine after : Machine G S} {storeVariable : UInt8}
      (h : Enters machine storeVariable after)
      (hpc : machine.pc.toNat ≤ machine.image.length.toNat) : Move machine after
  | leave {machine : Machine G S} {frame : Frame} {stack : Stack}
      (htop : machine.calls.top? = some frame)
      (h : machine.stack.leave frame.savedFloor = .ok stack) :
      Move machine { machine with calls := machine.calls.pop, stack, pc := frame.returnPC }
  | restart {machine : Machine G S} : Move machine machine.restart
  | resume {machine : Machine G S} : Move machine { machine with pending := none }
  | wait {machine : Machine G S} {instruction : Instruction} (h : instruction.AsksForLine) :
      Move machine { machine with pending := some instruction }
  | halt {machine : Machine G S} {fault : Fault} (h : fault.cause.Faults) :
      Move machine { machine with halted := some fault }

theorem Change.status_eq {machine after : Machine G S} (h : Change machine after) :
    after.pending = machine.pending ∧ after.halted = machine.halted := by
  cases h <;> exact ⟨rfl, rfl⟩

theorem WellFormed.move {machine after : Machine G S} (h : machine.WellFormed)
    (hmove : Move machine after) : after.WellFormed := by
  cases hmove with
  | change hchange =>
    obtain ⟨hpending, hhalted⟩ := hchange.status_eq
    refine ⟨wellFormed_of_changes (.single hchange) h.store, ?_, ?_⟩
    · rw [hpending]
      exact h.pending
    · rw [hhalted]
      exact h.halted
  | enter henters =>
    obtain ⟨hpush, -, -, -, hfloor, hlocals, -⟩ := henters
    exact ⟨h.store.enter hpush hfloor hlocals, h.pending, h.halted⟩
  | leave htop hleave => exact ⟨h.store.leave htop hleave, h.pending, h.halted⟩
  | restart => exact wellFormed_restart h.store
  | resume => exact ⟨h.store, nofun, h.halted⟩
  | @wait instruction hasks =>
    refine ⟨h.store, fun waiting hwaiting => ?_, h.halted⟩
    cases hwaiting
    exact hasks
  | @halt fault hfaults =>
    refine ⟨h.store, h.pending, ?_⟩
    intro raised hraised
    cases hraised
    exact hfaults

theorem WellFormed.moves {machine after : Machine G S} (h : machine.WellFormed)
    (hmoves : ReflTransGen Move machine after) : after.WellFormed := by
  induction hmoves with
  | refl => exact h
  | tail _ hmove ih => exact ih.move hmove

/-- What every move of a well-formed machine keeps, any number of them keep. -/
theorem WellFormed.keeps {P : Machine G S → Prop}
    (hmove : ∀ machine after : Machine G S, machine.WellFormed → Move machine after → P machine → P after)
    {machine after : Machine G S} (h : machine.WellFormed) (hmoves : ReflTransGen Move machine after)
    (hmachine : P machine) : P after := by
  induction hmoves with
  | refl => exact hmachine
  | tail hmoves hlast ih => exact hmove _ _ (h.moves hmoves) hlast ih

theorem Move.takesAll {machine after : Machine G S} (h : Move machine after) (hmachine : machine.TakesAll) :
    after.TakesAll := by
  cases h with
  | change hchange => exact hchange.takesAll hmachine
  | enter henters =>
    cases henters
    exact hmachine
  | _ => exact hmachine

theorem takesAll_of_moves {machine after : Machine G S} (h : ReflTransGen Move machine after)
    (hmachine : machine.TakesAll) : after.TakesAll := by
  induction h with
  | refl => exact hmachine
  | tail _ hmove ih => exact hmove.takesAll ih

/-- What a machine raises behind some moves, it may have raised before them. -/
theorem Raises.of_moves {machine after : Machine G S} {error : Error} (h : ReflTransGen Move machine after)
    (hraises : after.Raises error) : machine.Raises error :=
  hraises.imp_right fun hrefused => ⟨hrefused.1, mt (takesAll_of_moves h) hrefused.2⟩

theorem moves_of_changes {machine after : Machine G S} (h : ReflTransGen Change machine after) :
    ReflTransGen Move machine after := by
  induction h with
  | refl => exact .refl
  | tail _ hchange ih => exact ih.tail (.change hchange)

theorem changes_of_pops {machine : Machine G S} {store : Store}
    (h : ReflTransGen Store.Pop machine.toStore store) :
    ReflTransGen Change machine { machine with toStore := store } := by
  induction h with
  | refl => exact .refl
  | @tail middle after _ hpop ih =>
    obtain ⟨hpop⟩ := hpop
    have hchange : Change { machine with toStore := middle } _ := .store (.pop hpop)
    exact ih.tail hchange

/-! ## Returns -/

/-- A return is made of moves; storing the result is all that can fail. -/
theorem returnValue_moves (value : UInt16) {machine : Machine G S} (h : machine.toStore.WellFormed) :
    ReflTransGen Move machine ((returnValue value).perform machine).2 ∧
      ∀ error, ((returnValue value).perform machine).1 = .error error → machine.Throws error := by
  rw [perform_returnValue]
  cases htop : machine.calls.top? with
  | none => exact ⟨.single (.change .quit), nofun⟩
  | some frame =>
    obtain ⟨stack, hleave⟩ := Stack.exists_leave h.floor_nonneg h.floor_le frame.savedFloor
    dsimp only
    rw [hleave]
    have hleft : Move machine _ := .leave htop hleave
    dsimp only
    split
    · exact ⟨.single hleft, nofun⟩
    · have hwrites := @obeys_setVariable G S _ frame.storeVariable value
      have hstore := h.leave htop hleave
      refine ⟨.head hleft (moves_of_changes (hwrites.changes _ hstore)), ?_⟩
      exact hwrites.raises { machine with calls := machine.calls.pop, stack, pc := frame.returnPC } hstore

/-! ## The moves of an operation -/

section
variable {machine : Machine G S} {operation : Operation} {outcome : Except Error Unit × Machine G S}

theorem Effect.moves (h : Effect machine operation outcome) (hgood : machine.toStore.WellFormed) :
    ReflTransGen Move machine outcome.2 := by
  cases h with
  | changes hchanges _ => exact moves_of_changes hchanges
  | returns hchanges =>
    have hbefore := wellFormed_of_changes hchanges hgood
    exact (moves_of_changes hchanges).trans (returnValue_moves _ hbefore).1
  | enters _ hbyte henters =>
    have hchanges := obeys_nextByte.changes machine hgood
    rw [hbyte] at hchanges
    exact (moves_of_changes hchanges).tail (.enter henters (pc_le_of_nextByte hbyte))
  | waits _ => exact .single (.change .input)
  | restarts _ => exact .single .restart

/-- An operation fails with an error that halts the machine, unless it lacks a line of input. -/
theorem Effect.error (h : Effect machine operation outcome) (hgood : machine.toStore.WellFormed)
    {error : Error} (he : outcome.1 = .error error) :
    machine.Throws error ∨
      ∃ reason input, operation = .readLine ∧ outcome = (.error (.noLine reason), { machine with input }) := by
  cases h with
  | changes _ herror => exact .inl (herror error he)
  | returns hchanges =>
    have hbefore := wellFormed_of_changes hchanges hgood
    exact .inl (((returnValue_moves _ hbefore).2 error he).of_changes hchanges)
  | enters => cases he
  | waits hoperation => exact .inr ⟨_, _, hoperation, rfl⟩
  | restarts => cases he

end

end

/-! ## Fetching an instruction -/

/-- The instruction that the next step executes and the machine it works on. There is none if the
machine is halted or done, or cannot decode an instruction. -/
def fetched? (machine : Machine G S) : Option (Instruction × Machine G S) :=
  if machine.halted.isSome ∨ machine.done then none
  else
    match machine.pending with
    | some instruction => some (instruction, { machine with pending := none })
    | none =>
      let (decoded, store) := Instruction.decode machine.pc machine.toStore
      match decoded.failure with
      | some _ => none
      | none => some (decoded.instruction, { machine with toStore := store, pc := decoded.next })

/-- The operation that the next step performs, if any. -/
def upcoming? (machine : Machine G S) : Option Operation :=
  match machine.fetched? with
  | none => none
  | some (instruction, _) =>
    match Operation.find instruction.count instruction.number with
    | .ok entry => entry
    | .error _ => none

theorem of_fetched {machine before : Machine G S} {instruction : Instruction}
    (h : machine.fetched? = some (instruction, before)) :
    machine.halted = none ∧ machine.done = false ∧
      (machine.pending = some instruction ∧ before = { machine with pending := none } ∨
        machine.pending = none ∧ (Instruction.decode machine.pc machine.toStore).1.failure = none ∧
          instruction = (Instruction.decode machine.pc machine.toStore).1.instruction ∧
          before = { machine with
            toStore := (Instruction.decode machine.pc machine.toStore).2
            pc := (Instruction.decode machine.pc machine.toStore).1.next }) := by
  unfold fetched? at h
  split at h
  · cases h
  · rename_i hlive
    simp only [not_or, Bool.not_eq_true, Option.isSome_eq_false_iff, Option.isNone_iff_eq_none] at hlive
    refine ⟨hlive.1, hlive.2, ?_⟩
    cases hpending : machine.pending with
    | some waiting =>
      rw [hpending] at h
      cases h
      exact .inl ⟨rfl, rfl⟩
    | none =>
      rw [hpending] at h
      dsimp only at h
      split at h
      · cases h
      · rename_i hfailure
        cases h
        exact .inr ⟨rfl, hfailure, rfl, rfl⟩

/-- The next step performs an operation that was fetched. -/
theorem fetched_of_upcoming {machine : Machine G S} {operation : Operation}
    (h : machine.upcoming? = some operation) :
    ∃ instruction before, machine.fetched? = some (instruction, before) ∧
      Operation.find instruction.count instruction.number = .ok (some operation) := by
  unfold upcoming? at h
  split at h
  · cases h
  · rename_i instruction before hfetched
    split at h
    · rename_i entry hfind
      exact ⟨instruction, before, hfetched, by rw [hfind, h]⟩
    · cases h

/-- A fetched instruction is executed by a machine that is neither halted nor done nor waiting. -/
theorem status_of_fetched {machine before : Machine G S} {instruction : Instruction}
    (h : machine.fetched? = some (instruction, before)) :
    before.halted = none ∧ before.done = false ∧ before.pending = none := by
  obtain ⟨hhalted, hdone, ⟨-, rfl⟩ | ⟨hpending, -, -, rfl⟩⟩ := of_fetched h
  · exact ⟨hhalted, hdone, rfl⟩
  · exact ⟨hhalted, hdone, hpending⟩

theorem WellFormed.fetched [Sink S] {machine before : Machine G S} {instruction : Instruction}
    (h : machine.WellFormed) (hfetched : machine.fetched? = some (instruction, before)) :
    instruction.WellFormed ∧ ReflTransGen Move machine before := by
  obtain ⟨-, -, ⟨hpending, rfl⟩ | ⟨-, hfailure, rfl, rfl⟩⟩ := of_fetched hfetched
  · exact ⟨(h.pending instruction hpending).wellFormed, .single .resume⟩
  · refine ⟨Instruction.decode_wellFormed _ _, ?_⟩
    have hpops := Instruction.decode_pops machine.pc machine.toStore
    have hnext := Instruction.decode_next _ _ hfailure
    rw [← Store.image_of_pops hpops] at hnext
    have hgo : Change { machine with toStore := (Instruction.decode machine.pc machine.toStore).2 } _ :=
      .goTo hnext
    exact (moves_of_changes (changes_of_pops hpops)).tail (.change hgo)

theorem decode_failure_moves [Sink S] {machine : Machine G S} (h : machine.WellFormed) {error : Error}
    (hfailure : (Instruction.decode machine.pc machine.toStore).1.failure = some error) :
    ∃ after fault, ReflTransGen Move machine after ∧ machine.Raises fault.cause ∧
      fail (Instruction.decode machine.pc machine.toStore).1.instruction error
        { machine with
          toStore := (Instruction.decode machine.pc machine.toStore).2
          pc := (Instruction.decode machine.pc machine.toStore).1.next } =
        (some (.fault fault), { after with halted := some fault }) := by
  obtain ⟨hoperational, hnext⟩ := Instruction.decode_failure _ _ h.store hfailure
  have hhalting := Error.halting_of_operational hoperational
  have hpops := Instruction.decode_pops machine.pc machine.toStore
  rw [hnext]
  have hraises : machine.Raises error := .inl hhalting
  obtain ⟨fault, hcause, hfail⟩ := fail_of_faults
    (Instruction.decode machine.pc machine.toStore).1.instruction _ hraises.faults
  rw [hfail]
  refine ⟨_, fault, moves_of_changes (changes_of_pops hpops), ?_, rfl⟩
  rwa [hcause]

/-! ## Executing an instruction -/

section
variable [Generator G] [Sink S]

theorem execute_eq_fail {instruction : Instruction} {machine : Machine G S}
    (hfind : Operation.find instruction.count instruction.number = .ok none)
    (hpolicy : machine.settings.machine.opcodePolicy = .fatal) :
    execute instruction machine =
      fail instruction (.unsupported instruction.count instruction.number) machine := by
  unfold execute
  rw [hfind]
  dsimp only
  rw [hpolicy]

theorem execute_eq_skip {instruction : Instruction} {machine : Machine G S}
    (hfind : Operation.find instruction.count instruction.number = .ok none)
    (hpolicy : machine.settings.machine.opcodePolicy = .skipLenient) :
    execute instruction machine = (none, machine) := by
  unfold execute
  rw [hfind]
  dsimp only
  rw [hpolicy]

/-- The end of an instruction whose operation had the given outcome. -/
def finish (instruction : Instruction) :
    Except Error Unit × Machine G S → Option Failure × Machine G S
  | (.ok (), machine) => (none, machine)
  | (.error error, machine) => fail instruction error machine

theorem execute_eq_finish {instruction : Instruction} {machine : Machine G S} {operation : Operation}
    (hfind : Operation.find instruction.count instruction.number = .ok (some operation)) :
    execute instruction machine =
      finish instruction ((operate operation instruction).perform machine) := by
  unfold execute
  rw [hfind]
  rfl

/-- Executing an instruction passes over it, halts the machine, waits for a line, or has performed an
operation to its end. -/
theorem execute_cases {instruction : Instruction} (hinstruction : instruction.WellFormed)
    {machine : Machine G S} (h : machine.toStore.WellFormed) :
    execute instruction machine = (none, machine) ∨
    (∃ after fault, ReflTransGen Move machine after ∧ machine.Raises fault.cause ∧
      execute instruction machine = (some (.fault fault), { after with halted := some fault })) ∨
    (∃ reason input, instruction.AsksForLine ∧
      execute instruction machine =
        (some (.noLine reason), { machine with input, pending := some instruction })) ∨
    ∃ operation after, Operation.find instruction.count instruction.number = .ok (some operation) ∧
      Effect machine operation (.ok (), after) ∧ execute instruction machine = (none, after) := by
  obtain ⟨entry, hfind⟩ := hinstruction.exists_find
  cases entry with
  | none =>
    cases hpolicy : machine.settings.machine.opcodePolicy with
    | skipLenient => exact .inl (execute_eq_skip hfind hpolicy)
    | fatal =>
      have hraises : machine.Raises (.unsupported instruction.count instruction.number) := .inl rfl
      obtain ⟨fault, hcause, hfail⟩ := fail_of_faults instruction machine hraises.faults
      refine .inr (.inl ⟨machine, fault, .refl, by rwa [hcause], ?_⟩)
      rw [execute_eq_fail hfind hpolicy, hfail]
  | some operation =>
    have heffect := operate_effect operation hinstruction h
    rw [execute_eq_finish hfind]
    rcases hp : (operate operation instruction).perform machine with ⟨error | value, after⟩ <;>
      rw [hp] at heffect
    · have hmoves := heffect.moves h
      rcases heffect.error h rfl with hthrows | ⟨reason, input, rfl, heq⟩
      · obtain ⟨fault, rfl, hfail⟩ := fail_of_faults instruction after hthrows.raises.faults
        exact .inr (.inl ⟨after, fault, hmoves, hthrows.raises, hfail⟩)
      · cases heq
        exact .inr (.inr (.inl ⟨reason, input, ⟨hinstruction, hfind⟩, rfl⟩))
    · exact .inr (.inr (.inr ⟨operation, after, hfind, heffect, rfl⟩))

/-! ## Steps -/

/-- A step is idle, fails to decode, or executes the fetched instruction. -/
theorem step_cases (machine : Machine G S) :
    ((machine.halted.isSome ∨ machine.done) ∧
      machine.step = (machine.halted.map Failure.fault, machine)) ∨
    (∃ error, (Instruction.decode machine.pc machine.toStore).1.failure = some error ∧
      machine.fetched? = none ∧
      machine.step = fail (Instruction.decode machine.pc machine.toStore).1.instruction error
        { machine with
          toStore := (Instruction.decode machine.pc machine.toStore).2
          pc := (Instruction.decode machine.pc machine.toStore).1.next }) ∨
    ∃ instruction before, machine.fetched? = some (instruction, before) ∧
      machine.step = execute instruction before := by
  unfold step fetched?
  cases hhalted : machine.halted with
  | some fault => exact .inl ⟨.inl rfl, rfl⟩
  | none =>
    by_cases hdone : machine.done
    · rw [if_pos hdone]
      exact .inl ⟨.inr hdone, rfl⟩
    · rw [if_neg hdone, if_neg (by simp [hdone])]
      right
      cases hpending : machine.pending with
      | some instruction => exact .inr ⟨instruction, _, rfl, rfl⟩
      | none =>
        dsimp only
        cases hfailure : (Instruction.decode machine.pc machine.toStore).1.failure with
        | some error => exact .inl ⟨error, rfl, rfl, rfl⟩
        | none => exact .inr ⟨_, _, rfl, rfl⟩

theorem step_of_fetched {machine before : Machine G S} {instruction : Instruction}
    (h : machine.fetched? = some (instruction, before)) : machine.step = execute instruction before := by
  rcases step_cases machine with ⟨hidle, -⟩ | ⟨error, -, hnone, -⟩ | ⟨fetched, state, hsome, heq⟩
  · unfold fetched? at h
    rw [if_pos hidle] at h
    cases h
  · rw [hnone] at h
    cases h
  · rw [hsome] at h
    cases h
    exact heq

/-- What a step can do to a machine, with the result it ends in. -/
inductive StepEffect (machine : Machine G S) : Option Failure × Machine G S → Prop
  | idle (h : machine.halted.isSome ∨ machine.done) :
      StepEffect machine (machine.halted.map Failure.fault, machine)
  | faults {after : Machine G S} {fault : Fault} (hmoves : ReflTransGen Move machine after)
      (hraises : machine.Raises fault.cause) :
      StepEffect machine (some (.fault fault), { after with halted := some fault })
  | skips {instruction : Instruction} {before : Machine G S}
      (hfetched : machine.fetched? = some (instruction, before)) : StepEffect machine (none, before)
  | waits {instruction : Instruction} {before : Machine G S} {reason : InputFailure}
      {input : Option LineSource} (hfetched : machine.fetched? = some (instruction, before))
      (hasks : instruction.AsksForLine) :
      StepEffect machine
        (some (.noLine reason), { before with input, pending := some instruction })
  | performs {instruction : Instruction} {before after : Machine G S} {operation : Operation}
      (hfetched : machine.fetched? = some (instruction, before))
      (hfind : Operation.find instruction.count instruction.number = .ok (some operation))
      (heffect : Effect before operation (.ok (), after)) : StepEffect machine (none, after)

/-- **All that a step can do.** -/
theorem step_effect {machine : Machine G S} (h : machine.WellFormed) :
    StepEffect machine machine.step := by
  rcases step_cases machine with ⟨hidle, heq⟩ | ⟨error, hfailure, -, heq⟩ |
    ⟨instruction, before, hfetched, heq⟩
  · rw [heq]
    exact .idle hidle
  · obtain ⟨after, fault, hmoves, hraises, hfail⟩ := decode_failure_moves h hfailure
    rw [heq, hfail]
    exact .faults hmoves hraises
  · obtain ⟨hinstruction, hmoves⟩ := h.fetched hfetched
    rw [heq]
    rcases execute_cases hinstruction (h.moves hmoves).store with hexecute |
      ⟨after, fault, hmoves', hraises, hexecute⟩ | ⟨reason, input, hasks, hexecute⟩ |
      ⟨operation, after, hfind, heffect, hexecute⟩ <;> rw [hexecute]
    · exact .skips hfetched
    · exact .faults (hmoves.trans hmoves') (hraises.of_moves hmoves)
    · exact .waits hfetched hasks
    · exact .performs hfetched hfind heffect

/-- **A step is made of moves.** -/
theorem step_moves {machine : Machine G S} (h : machine.WellFormed) :
    ReflTransGen Move machine machine.step.2 := by
  have heffect := step_effect h
  generalize machine.step = outcome at heffect ⊢
  cases heffect with
  | idle _ => exact .refl
  | faults hmoves hraises => exact hmoves.tail (.halt hraises.faults)
  | skips hfetched => exact (h.fetched hfetched).2
  | @waits _ before _ input hfetched hasks =>
    have hinput : Move before { before with input } := .change .input
    exact ((h.fetched hfetched).2.tail hinput).tail (.wait hasks)
  | performs hfetched _ heffect =>
    have hmoves := (h.fetched hfetched).2
    exact hmoves.trans (heffect.moves (h.moves hmoves).store)

theorem WellFormed.step {machine : Machine G S} (h : machine.WellFormed) : machine.step.2.WellFormed :=
  h.moves (step_moves h)

/-- **A step that fails has halted the machine, or waits for a line.** -/
theorem step_failure {machine : Machine G S} (h : machine.WellFormed) {failure : Failure}
    (hfailure : machine.step.1 = some failure) :
    (∃ fault, failure = .fault fault ∧ machine.step.2.halted = some fault) ∨
      ∃ reason instruction before input, failure = .noLine reason ∧ instruction.AsksForLine ∧
        machine.fetched? = some (instruction, before) ∧
        machine.step.2 = { before with input, pending := some instruction } := by
  have heffect := step_effect h
  generalize machine.step = outcome at heffect hfailure ⊢
  cases heffect with
  | idle _ =>
    obtain ⟨fault, hhalted, rfl⟩ := Option.map_eq_some_iff.mp hfailure
    exact .inl ⟨fault, rfl, hhalted⟩
  | faults _ _ =>
    cases hfailure
    exact .inl ⟨_, rfl, rfl⟩
  | skips _ => cases hfailure
  | waits hfetched hasks =>
    cases hfailure
    exact .inr ⟨_, _, _, _, rfl, hasks, hfetched, rfl⟩
  | performs _ _ _ => cases hfailure

end

end Machine

end StoryMachine
