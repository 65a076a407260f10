import StoryMachine.Proofs.Step

/-!
# What operations do not look at

No operation looks at the limits and the policy that a machine was configured with, and none but one that
reads a line looks at its input.

* `Machine.refit limits feed` : the machine with its settings and its input changed;
* `commutes_operate` : **an operation does the same on a refitted machine**, if it reads no line or the input
  is left alone;
* `Machine.Overlooks` : nothing in the execution of an instruction depends on what is refitted;
  `execute_refit`, `step_refit` : the instruction, and the step that executes it, do the same on a refitted
  machine.
-/

namespace StoryMachine.Machine

variable {G S : Type}

/-- The machine with its settings, other than those of text, and its input changed. -/
def refit (limits : MachineSettings → MachineSettings)
    (feed : Option LineSource → Option LineSource) (machine : Machine G S) : Machine G S :=
  { machine with
    settings := { machine.settings with machine := limits machine.settings.machine }
    input := feed machine.input }

/-! ## Operations -/

section Commutes
variable (limits : MachineSettings → MachineSettings) (feed : Option LineSource → Option LineSource)

theorem commutes_onStore {α : Type} (step : Exec Store α) :
    (onStore step).Commutes (refit (G := G) (S := S) limits feed) :=
  .within (fun _ => rfl) fun _ _ => rfl

theorem commutes_onImage {α : Type} (step : Exec Image α) :
    (onImage step).Commutes (refit (G := G) (S := S) limits feed) :=
  .within (fun _ => rfl) fun _ _ => rfl

theorem commutes_nextByte :
    (nextByte : Exec (Machine G S) UInt8).Commutes (refit limits feed) := by
  intro machine
  rw [perform_nextByte, perform_nextByte]
  have hsame : (refit limits feed machine).image.readByte (refit limits feed machine).pc =
      machine.image.readByte machine.pc := rfl
  rw [hsame]
  cases machine.image.readByte machine.pc with
  | error e => rfl
  | ok byte => rfl

theorem commutes_jumpTo (target : Int) :
    (jumpTo target : Exec (Machine G S) Unit).Commutes (refit limits feed) := by
  intro machine
  rw [perform_jumpTo, perform_jumpTo]
  change (if target < 0 ∨ target ≥ machine.image.length.toNat then _ else _) = _
  split
  · rfl
  · rfl

/-- The line is lowered as it would be on the other machine. -/
theorem commutes_storeLine (line : List UInt8) (text parse : UInt32) :
    (storeLine line text parse : Exec (Machine G S) Unit).Commutes (refit limits feed) :=
  .getting (fun _ => rfl) fun _ => commutes_onImage limits feed _

section
variable [Sink S]

theorem commutes_print (text : List UInt8) :
    (print text : Exec (Machine G S) Unit).Commutes (refit limits feed) := by
  intro machine
  rw [perform_print, perform_print]
  have hsame : (refit limits feed machine).sink = machine.sink := rfl
  rw [hsame]
  cases machine.sink with
  | none => rfl
  | some sink =>
    dsimp only
    split
    · rfl
    · cases (Sink.write text sink).1 with
      | none => rfl
      | some reason => rfl

theorem commutes_printDecoded (decoded : Text.Decoded) :
    (printDecoded decoded : Exec (Machine G S) Unit).Commutes (refit limits feed) := by
  unfold printDecoded
  cases decoded.failure with
  | none => exact commutes_print limits feed _
  | some error =>
    dsimp only
    split
    · exact commutes_print limits feed _
    · exact .throw error

theorem commutes_printString (address : UInt32) :
    (printString address : Exec (Machine G S) Unit).Commutes (refit limits feed) :=
  .getting (fun _ => rfl) fun _ => commutes_printDecoded limits feed _

theorem commutes_printInline :
    (printInline : Exec (Machine G S) Unit).Commutes (refit limits feed) := by
  refine .getting (fun _ => rfl) ?_
  intro machine
  refine .bind (commutes_printString limits feed machine.pc) ?_
  intro _
  exact .bind (.query fun _ => rfl) fun _ _ => rfl

end

theorem commutes_returnValue (value : UInt16) :
    (returnValue value : Exec (Machine G S) Unit).Commutes (refit limits feed) := by
  intro machine
  rw [perform_returnValue, perform_returnValue]
  have hcalls : (refit limits feed machine).calls = machine.calls := rfl
  have hstack : (refit limits feed machine).stack = machine.stack := rfl
  rw [hcalls, hstack]
  cases machine.calls.top? with
  | none => rfl
  | some frame =>
    dsimp only
    cases machine.stack.leave frame.savedFloor with
    | error e => rfl
    | ok stack =>
      dsimp only
      split
      · rfl
      · exact commutes_onStore limits feed _
          { machine with calls := machine.calls.pop, stack, pc := frame.returnPC }

theorem commutes_callRoutine (packed : UInt16) (arguments : List UInt16) (storeVariable : UInt8) :
    (callRoutine packed arguments storeVariable : Exec (Machine G S) Unit).Commutes
      (refit limits feed) := by
  intro machine
  rw [perform_callRoutine, perform_callRoutine]
  split
  · exact commutes_onStore limits feed _ machine
  · have hsame : (refit limits feed machine).entered packed arguments storeVariable =
        machine.entered packed arguments storeVariable := rfl
    rw [hsame]
    cases machine.entered packed arguments storeVariable with
    | error e => rfl
    | ok routine => rfl

/-- A line is taken from the input that there is, so that must not be another one. -/
theorem commutes_nextLine :
    (nextLine : Exec (Machine G S) (List UInt8)).Commutes (refit limits id) := by
  intro machine
  rw [perform_nextLine, perform_nextLine]
  have hsame : (refit limits id machine).input = machine.input := rfl
  rw [hsame]
  cases machine.input with
  | none => rfl
  | some source =>
    dsimp only
    cases source.next.1 with
    | error reason => rfl
    | ok line => rfl

variable [Generator G]

theorem commutes_draw (range : Int) :
    (draw range : Exec (Machine G S) UInt16).Commutes (refit limits feed) := by
  intro machine
  unfold draw
  rw [Exec.perform_bind_ok (Exec.perform_get _), Exec.perform_bind_ok (Exec.perform_get _)]
  split
  · rfl
  · rfl

variable [Sink S]

theorem closed_commutes :
    Closed (fun {α} (step : Exec (Machine G S) α) => step.Commutes (refit limits feed))
      (fun step => step.Commutes (refit limits feed)) where
  pure := .pure
  throw _ := .throw _
  bind := .bind
  onStore _ _ := commutes_onStore limits feed _
  look _ := .query fun _ => rfl
  nextByte := commutes_nextByte limits feed
  jump _ := .getting (fun _ => rfl) fun _ => commutes_jumpTo limits feed _
  print := commutes_print limits feed
  printString := commutes_printString limits feed
  printObject _ := .getting (fun _ => rfl) fun _ => commutes_printDecoded limits feed _
  printInline := commutes_printInline limits feed
  draw := commutes_draw limits feed
  quit _ := rfl
  whole h := h
  last := .bind
  returnValue := commutes_returnValue limits feed

theorem commutes_call {instruction : Instruction} (hinstruction : instruction.WellFormed) :
    (operate .call instruction : Exec (Machine G S) Unit).Commutes (refit limits feed) := by
  unfold operate
  dsimp only
  rw [hinstruction.checkArguments]
  refine .bind (commutes_nextByte limits feed) fun storeVariable => .bind (.ofExcept _) ?_
  intro arguments
  cases arguments with
  | nil => exact commutes_onStore limits feed _
  | cons packed arguments => exact commutes_callRoutine limits feed packed arguments storeVariable

/-- **No operation sees what is refitted**, unless it reads a line from another input. -/
theorem commutes_operate {operation : Operation} (hline : operation = .readLine → feed = id)
    {instruction : Instruction} (hinstruction : instruction.WellFormed) :
    (operate operation instruction : Exec (Machine G S) Unit).Commutes (refit limits feed) := by
  by_cases hordinary : operation.ordinary
  · exact (closed_commutes limits feed).operate hordinary hinstruction
  · cases operation with
    | readLine =>
      rw [hline rfl]
      exact .bind (commutes_nextLine limits) fun _ => commutes_storeLine limits id _ _ _
    | call => exact commutes_call limits feed hinstruction
    | restart => exact fun _ => rfl
    | _ => exact absurd rfl hordinary

end Commutes

/-! ## Steps -/

section
variable (limits : MachineSettings → MachineSettings) (feed : Option LineSource → Option LineSource)

theorem fail_refit (instruction : Instruction) (error : Error) (machine : Machine G S) :
    fail instruction error (refit limits feed machine) =
      ((fail instruction error machine).1, refit limits feed (fail instruction error machine).2) := by
  cases error <;> rfl

theorem finish_refit (instruction : Instruction) (result : Except Error Unit) (machine : Machine G S) :
    finish instruction (result, refit limits feed machine) =
      ((finish instruction (result, machine)).1,
        refit limits feed (finish instruction (result, machine)).2) := by
  cases result with
  | error error => exact fail_refit limits feed instruction error machine
  | ok value => rfl

theorem fetched_refit (machine : Machine G S) :
    (refit limits feed machine).fetched? =
      machine.fetched?.map fun fetched => (fetched.1, refit limits feed fetched.2) := by
  have hhalted : (refit limits feed machine).halted = machine.halted := rfl
  have hdone : (refit limits feed machine).done = machine.done := rfl
  have hpending : (refit limits feed machine).pending = machine.pending := rfl
  have hdecode : Instruction.decode (refit limits feed machine).pc (refit limits feed machine).toStore =
      Instruction.decode machine.pc machine.toStore := rfl
  unfold fetched?
  rw [hhalted, hdone, hpending, hdecode]
  split
  · rfl
  · cases machine.pending with
    | some instruction => rfl
    | none =>
      dsimp only
      cases (Instruction.decode machine.pc machine.toStore).1.failure with
      | some error => rfl
      | none => rfl

/-- Nothing in the execution of the instruction depends on what is refitted: if it reads a line, the input is
the same, and if it has no operation, the policy is. -/
structure Overlooks (machine : Machine G S) (instruction : Instruction) : Prop where
  line : Operation.find instruction.count instruction.number = .ok (some .readLine) → feed = id
  policy : Operation.find instruction.count instruction.number = .ok none →
    (limits machine.settings.machine).opcodePolicy = machine.settings.machine.opcodePolicy

variable [Generator G] [Sink S]

theorem execute_refit {instruction : Instruction} (hinstruction : instruction.WellFormed)
    {machine : Machine G S} (h : Overlooks limits feed machine instruction) :
    execute instruction (refit limits feed machine) =
      ((execute instruction machine).1, refit limits feed (execute instruction machine).2) := by
  obtain ⟨entry, hfind⟩ := hinstruction.exists_find
  cases entry with
  | none =>
    have hpolicy : (refit limits feed machine).settings.machine.opcodePolicy =
        machine.settings.machine.opcodePolicy := h.policy hfind
    unfold execute
    rw [hfind]
    dsimp only
    rw [hpolicy]
    cases machine.settings.machine.opcodePolicy with
    | skipLenient => rfl
    | fatal => exact fail_refit limits feed _ _ machine
  | some operation =>
    have hline : operation = .readLine → feed = id := fun heq => h.line (by rw [hfind, heq])
    rw [execute_eq_finish hfind, execute_eq_finish hfind,
      commutes_operate limits feed hline hinstruction machine]
    exact finish_refit limits feed instruction _ _

/-- A machine that is halted or done, or cannot decode an instruction, depends on nothing that is
refitted. -/
theorem step_refit_of_not_fetched {machine : Machine G S} (h : machine.fetched? = none) :
    (refit limits feed machine).step = (machine.step.1, refit limits feed machine.step.2) := by
  have hhalted : (refit limits feed machine).halted = machine.halted := rfl
  have hdone : (refit limits feed machine).done = machine.done := rfl
  have hpending : (refit limits feed machine).pending = machine.pending := rfl
  have hdecode : Instruction.decode (refit limits feed machine).pc (refit limits feed machine).toStore =
      Instruction.decode machine.pc machine.toStore := rfl
  unfold fetched? at h
  unfold step
  rw [hhalted, hdone, hpending, hdecode]
  cases hlive : machine.halted with
  | some fault => rfl
  | none =>
    rw [hlive] at h
    dsimp only
    split
    · rfl
    · rename_i hrunning
      rw [if_neg (by simp [hrunning])] at h
      cases hwaiting : machine.pending with
      | some instruction =>
        rw [hwaiting] at h
        cases h
      | none =>
        rw [hwaiting] at h
        dsimp only at h ⊢
        cases hfailure : (Instruction.decode machine.pc machine.toStore).1.failure with
        | some error =>
          exact fail_refit limits feed _ error
            { machine with
              toStore := (Instruction.decode machine.pc machine.toStore).2
              pc := (Instruction.decode machine.pc machine.toStore).1.next
              pending := none
              halted := none }
        | none =>
          rw [hfailure] at h
          cases h

/-- **A step does the same on a refitted machine** if the instruction that it executes overlooks what is
refitted. -/
theorem step_refit {machine : Machine G S} (hgood : machine.WellFormed)
    (h : ∀ instruction before, machine.fetched? = some (instruction, before) →
      Overlooks limits feed before instruction) :
    (refit limits feed machine).step = (machine.step.1, refit limits feed machine.step.2) := by
  rcases hfetched : machine.fetched? with _ | ⟨instruction, before⟩
  · exact step_refit_of_not_fetched limits feed hfetched
  · have hfetched' : (refit limits feed machine).fetched? =
        some (instruction, refit limits feed before) := by
      rw [fetched_refit, hfetched]
      rfl
    rw [step_of_fetched hfetched', step_of_fetched hfetched,
      execute_refit limits feed (hgood.fetched hfetched).1 (h instruction before hfetched)]

end

end StoryMachine.Machine
