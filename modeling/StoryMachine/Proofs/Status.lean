import StoryMachine.Proofs.Session

/-!
# The status of a machine

A machine runs, or it is done, halted by a fault, or waiting for a line of input.

* `Machine.statusLaw` : steps that leave the status alone. Nearly all pieces of operations do; a story ends
  only in the last step of an operation, and then the operation has not failed (`MayEnd`, `mayEnd_operate`);
* `Machine.Exclusive` : at most one of done, halted and waiting;
* `Machine.Settled` : what the result of a step says about the status behind it; `step_settled` : **every
  step of a machine with an exclusive status is settled**;
* `serve_of_stopped` : a machine that is done or halted stays as it is until it is restarted;
* `status_automaton` : all this of every reachable machine.
-/

namespace StoryMachine.Machine

open Relation (ReflTransGen)

variable {G S : Type}

/-! ## Steps that leave the status alone -/

/-- The status is the same. -/
structure SameStatus (machine after : Machine G S) : Prop where
  pending_eq : after.pending = machine.pending
  halted_eq : after.halted = machine.halted
  done_eq : after.done = machine.done

theorem SameStatus.trans {a b c : Machine G S} (hab : SameStatus a b) (hbc : SameStatus b c) :
    SameStatus a c :=
  ⟨hbc.pending_eq.trans hab.pending_eq, hbc.halted_eq.trans hab.halted_eq,
    hbc.done_eq.trans hab.done_eq⟩

/-- Steps that leave the status alone, whatever they raise. -/
def statusLaw : Law (Machine G S) where
  Change := SameStatus
  Good _ := True
  Raises _ _ := True
  good_of_change _ _ := trivial
  raises_of_change _ _ := trivial

section Pieces
variable {α : Type}

theorem keepsStatus {step : Exec (Machine G S) α}
    (h : ∀ machine, SameStatus machine (step.perform machine).2) : step.Obeys statusLaw :=
  ⟨fun machine _ => .single (h machine), fun _ _ _ _ => trivial⟩

theorem sameStatus_of_obeys {step : Exec (Machine G S) α} (h : step.Obeys statusLaw)
    (machine : Machine G S) : SameStatus machine (step.perform machine).2 := by
  have hchanges := h.changes machine trivial
  generalize (step.perform machine).2 = after at hchanges
  induction hchanges with
  | refl => exact ⟨rfl, rfl, rfl⟩
  | tail _ hsame ih => exact ih.trans hsame

theorem keepsStatus_onStore (step : Exec Store α) :
    (onStore step : Exec (Machine G S) α).Obeys statusLaw := by
  refine keepsStatus fun machine => ?_
  rw [onStore, Exec.perform_within]
  exact ⟨rfl, rfl, rfl⟩

theorem keepsStatus_onImage (step : Exec Image α) :
    (onImage step : Exec (Machine G S) α).Obeys statusLaw := by
  refine keepsStatus fun machine => ?_
  rw [onImage, Exec.perform_within]
  exact ⟨rfl, rfl, rfl⟩

theorem keepsStatus_nextByte : (nextByte : Exec (Machine G S) UInt8).Obeys statusLaw := by
  refine keepsStatus fun machine => ?_
  rw [perform_nextByte]
  cases machine.image.readByte machine.pc <;> exact ⟨rfl, rfl, rfl⟩

theorem keepsStatus_jumpTo (target : Int) :
    (jumpTo target : Exec (Machine G S) Unit).Obeys statusLaw := by
  refine keepsStatus fun machine => ?_
  rw [perform_jumpTo]
  split <;> exact ⟨rfl, rfl, rfl⟩

theorem keepsStatus_of_printsOnly {step : Exec (Machine G S) α} (h : PrintsOnly step) :
    step.Obeys statusLaw := by
  refine keepsStatus fun machine => ?_
  obtain ⟨sink, hsink⟩ := h machine
  rw [hsink]
  exact ⟨rfl, rfl, rfl⟩

theorem keepsStatus_printInline [Sink S] : (printInline : Exec (Machine G S) Unit).Obeys statusLaw := by
  refine .getting fun machine _ => ?_
  refine .bind (keepsStatus_of_printsOnly (printsOnly_printString machine.pc)) fun _ => ?_
  refine .bind (.query fun _ _ _ _ => trivial) fun behind => ?_
  exact keepsStatus fun _ => ⟨rfl, rfl, rfl⟩

theorem keepsStatus_callRoutine (packed : UInt16) (arguments : List UInt16)
    (storeVariable : UInt8) :
    (callRoutine packed arguments storeVariable : Exec (Machine G S) Unit).Obeys statusLaw := by
  refine keepsStatus fun machine => ?_
  rw [perform_callRoutine]
  split
  · exact sameStatus_of_obeys (keepsStatus_onStore _) machine
  · cases machine.entered packed arguments storeVariable <;> exact ⟨rfl, rfl, rfl⟩

theorem keepsStatus_nextLine :
    (nextLine : Exec (Machine G S) (List UInt8)).Obeys statusLaw := by
  refine keepsStatus fun machine => ?_
  obtain ⟨input, ⟨line, hline⟩ | ⟨reason, hline⟩⟩ := nextLine_cases machine
  · rw [hline]
    exact ⟨rfl, rfl, rfl⟩
  · rw [hline]
    exact ⟨rfl, rfl, rfl⟩

theorem keepsStatus_storeLine (line : List UInt8) (text parse : UInt32) :
    (storeLine line text parse : Exec (Machine G S) Unit).Obeys statusLaw :=
  .getting fun _ _ => keepsStatus_onImage _

end Pieces

/-! ## Steps that may end the story -/

/-- The step neither halts the machine nor makes it wait, and it does not end the story if it fails. -/
structure MayEnd (step : Exec (Machine G S) Unit) : Prop where
  pending_eq : ∀ machine, (step.perform machine).2.pending = machine.pending
  halted_eq : ∀ machine, (step.perform machine).2.halted = machine.halted
  done_eq : ∀ machine error, (step.perform machine).1 = .error error →
    (step.perform machine).2.done = machine.done

theorem MayEnd.of_obeys {step : Exec (Machine G S) Unit} (h : step.Obeys statusLaw) : MayEnd step :=
  ⟨fun machine => (sameStatus_of_obeys h machine).pending_eq,
    fun machine => (sameStatus_of_obeys h machine).halted_eq,
    fun machine _ _ => (sameStatus_of_obeys h machine).done_eq⟩

theorem MayEnd.last {α : Type} {step : Exec (Machine G S) α} {next : α → Exec (Machine G S) Unit}
    (h : step.Obeys statusLaw) (hnext : ∀ value, MayEnd (next value)) : MayEnd (step >>= next) := by
  have hcases : ∀ machine : Machine G S,
      SameStatus machine ((step >>= next).perform machine).2 ∨
      ∃ value middle, SameStatus machine middle ∧
        (step >>= next).perform machine = (next value).perform middle := by
    intro machine
    have hsame := sameStatus_of_obeys h machine
    rcases hp : step.perform machine with ⟨_ | value, middle⟩ <;> rw [hp] at hsame
    · rw [Exec.perform_bind_error hp]
      exact .inl hsame
    · exact .inr ⟨value, middle, hsame, Exec.perform_bind_ok hp⟩
  constructor
  · intro machine
    rcases hcases machine with hsame | ⟨value, middle, hsame, heq⟩
    · exact hsame.pending_eq
    · rw [heq, (hnext value).pending_eq, hsame.pending_eq]
  · intro machine
    rcases hcases machine with hsame | ⟨value, middle, hsame, heq⟩
    · exact hsame.halted_eq
    · rw [heq, (hnext value).halted_eq, hsame.halted_eq]
  · intro machine error he
    rcases hcases machine with hsame | ⟨value, middle, hsame, heq⟩
    · exact hsame.done_eq
    · rw [heq] at he ⊢
      rw [(hnext value).done_eq middle error he, hsame.done_eq]

/-- The outcomes of a return: the story has ended, or the status is the same. -/
theorem returnValue_status (value : UInt16) (machine : Machine G S) :
    (returnValue value).perform machine = (.ok (), { machine with done := true }) ∨
      SameStatus machine ((returnValue value).perform machine).2 := by
  rw [perform_returnValue]
  cases machine.calls.top? with
  | none => exact .inl rfl
  | some frame =>
    right
    dsimp only
    cases machine.stack.leave frame.savedFloor with
    | error e => exact ⟨rfl, rfl, rfl⟩
    | ok stack =>
      dsimp only
      split
      · exact ⟨rfl, rfl, rfl⟩
      · have hwrite := sameStatus_of_obeys
          (keepsStatus_onStore (G := G) (S := S) (Store.write frame.storeVariable value))
          { machine with calls := machine.calls.pop, stack, pc := frame.returnPC }
        exact ⟨hwrite.pending_eq, hwrite.halted_eq, hwrite.done_eq⟩

theorem mayEnd_returnValue (value : UInt16) :
    MayEnd (returnValue value : Exec (Machine G S) Unit) := by
  constructor
  · intro machine
    rcases returnValue_status value machine with heq | hsame
    · rw [heq]
    · exact hsame.pending_eq
  · intro machine
    rcases returnValue_status value machine with heq | hsame
    · rw [heq]
    · exact hsame.halted_eq
  · intro machine error he
    rcases returnValue_status value machine with heq | hsame
    · rw [heq] at he
      cases he
    · exact hsame.done_eq

theorem mayEnd_quit :
    MayEnd (modify fun machine => { machine with done := true } : Exec (Machine G S) Unit) := by
  refine ⟨fun _ => rfl, fun _ => rfl, ?_⟩
  intro machine error he
  cases he

/-! ## Results and status -/

/-- At most one of done, halted and waiting. -/
structure Exclusive (machine : Machine G S) : Prop where
  done_or_halted : machine.done = false ∨ machine.halted = none
  done_or_pending : machine.done = false ∨ machine.pending = none
  halted_or_pending : machine.halted = none ∨ machine.pending = none

/-- The result of a step and the status behind it: the machine runs or is done, it waits for a line, or
it is halted by the fault that the result reports. -/
inductive Settled : Option Failure × Machine G S → Prop
  | goesOn {machine : Machine G S} (hpending : machine.pending = none)
      (hhalted : machine.halted = none) : Settled (none, machine)
  | waits {machine : Machine G S} {reason : InputFailure} {instruction : Instruction}
      (hpending : machine.pending = some instruction) (hhalted : machine.halted = none)
      (hdone : machine.done = false) : Settled (some (.noLine reason), machine)
  | faults {machine : Machine G S} {fault : Fault} (hpending : machine.pending = none)
      (hhalted : machine.halted = some fault) (hdone : machine.done = false) :
      Settled (some (.fault fault), machine)

theorem Settled.exclusive {outcome : Option Failure × Machine G S} (h : Settled outcome) :
    Exclusive outcome.2 := by
  cases h with
  | goesOn hpending hhalted => exact ⟨.inr hhalted, .inr hpending, .inl hhalted⟩
  | waits _ hhalted hdone => exact ⟨.inl hdone, .inl hdone, .inl hhalted⟩
  | faults hpending _ hdone => exact ⟨.inl hdone, .inl hdone, .inr hpending⟩

theorem settled_fail (instruction : Instruction) {error : Error} {machine : Machine G S}
    (herror : error.Faults ∨ ∃ reason, error = .noLine reason)
    (hpending : machine.pending = none) (hhalted : machine.halted = none)
    (hdone : machine.done = false) : Settled (fail instruction error machine) := by
  rcases herror with hfaults | ⟨reason, rfl⟩
  · obtain ⟨fault, -, hfail⟩ := fail_of_faults instruction machine hfaults
    rw [hfail]
    exact .faults hpending rfl hdone
  · exact .waits rfl hhalted hdone

/-! ## Operations and steps -/

section
variable [Generator G]

theorem keepsStatus_draw (range : Int) :
    (draw range : Exec (Machine G S) UInt16).Obeys statusLaw := by
  refine keepsStatus fun machine => ?_
  unfold draw
  rw [Exec.perform_bind_ok (Exec.perform_get machine)]
  split <;> exact ⟨rfl, rfl, rfl⟩

variable [Sink S]

theorem closed_mayEnd :
    Closed (fun {α} (step : Exec (Machine G S) α) => step.Obeys statusLaw) MayEnd where
  pure := .pure
  throw _ := .throw fun _ _ => trivial
  bind := .bind
  onStore _ _ := keepsStatus_onStore _
  look _ := .query fun _ _ _ _ => trivial
  nextByte := keepsStatus_nextByte
  jump _ := .getting fun _ _ => keepsStatus_jumpTo _
  print text := keepsStatus_of_printsOnly (printsOnly_print text)
  printString address := keepsStatus_of_printsOnly (printsOnly_printString address)
  printObject object := keepsStatus_of_printsOnly (printsOnly_printObject object)
  printInline := keepsStatus_printInline
  draw := keepsStatus_draw
  quit := mayEnd_quit
  whole := .of_obeys
  last := .last
  returnValue := mayEnd_returnValue

/-- An operation other than a restart changes the status only by ending the story, and not if it fails. -/
theorem mayEnd_operate {operation : Operation} (hoperation : operation ≠ .restart)
    {instruction : Instruction} (hinstruction : instruction.WellFormed) :
    MayEnd (operate operation instruction : Exec (Machine G S) Unit) := by
  by_cases hordinary : operation.ordinary
  · exact closed_mayEnd.operate hordinary hinstruction
  · cases operation with
    | restart => exact absurd rfl hoperation
    | call =>
      unfold operate
      dsimp only
      rw [hinstruction.checkArguments]
      refine .of_obeys (.bind keepsStatus_nextByte fun storeVariable => ?_)
      refine .bind (.ofExcept fun _ _ _ _ => trivial) fun arguments => ?_
      cases arguments with
      | nil => exact keepsStatus_onStore _
      | cons packed arguments => exact keepsStatus_callRoutine packed arguments storeVariable
    | readLine => exact .of_obeys (.bind keepsStatus_nextLine fun _ => keepsStatus_storeLine _ _ _)
    | _ => exact absurd rfl hordinary

/-- The machine that executes an instruction is neither done nor halted nor waiting. -/
theorem execute_settled {instruction : Instruction} (hinstruction : instruction.WellFormed)
    {machine : Machine G S} (h : machine.toStore.WellFormed) (hpending : machine.pending = none)
    (hhalted : machine.halted = none) (hdone : machine.done = false) :
    Settled (execute instruction machine) := by
  obtain ⟨entry, hfind⟩ := hinstruction.exists_find
  cases entry with
  | none =>
    cases hpolicy : machine.settings.machine.opcodePolicy with
    | skipLenient =>
      rw [execute_eq_skip hfind hpolicy]
      exact .goesOn hpending hhalted
    | fatal =>
      rw [execute_eq_fail hfind hpolicy]
      have hraises : machine.Raises (.unsupported instruction.count instruction.number) := .inl rfl
      exact settled_fail instruction (.inl hraises.faults) hpending hhalted hdone
  | some operation =>
    rw [execute_eq_finish hfind]
    by_cases hrestart : operation = .restart
    · subst hrestart
      exact .goesOn rfl rfl
    · have hstatus := mayEnd_operate (G := G) (S := S) hrestart hinstruction
      have heffect := operate_effect operation hinstruction h
      have hpending' := (hstatus.pending_eq machine).trans hpending
      have hhalted' := (hstatus.halted_eq machine).trans hhalted
      have hdone' := hstatus.done_eq machine
      rcases hp : (operate operation instruction).perform machine with ⟨error | value, after⟩ <;>
        rw [hp] at heffect hpending' hhalted' hdone'
      · refine settled_fail instruction ?_ hpending' hhalted' ((hdone' error rfl).trans hdone)
        rcases heffect.error h rfl with hthrows | ⟨reason, input, -, heq⟩
        · exact .inl hthrows.raises.faults
        · cases heq
          exact .inr ⟨reason, rfl⟩
      · exact .goesOn hpending' hhalted'

/-- **The result of a step says what the status behind it is.** -/
theorem step_settled {machine : Machine G S} (h : machine.WellFormed) (hexclusive : Exclusive machine) :
    Settled machine.step := by
  unfold step
  cases hhalted : machine.halted with
  | some fault =>
    have hsome : machine.halted ≠ none := by simp [hhalted]
    exact .faults (hexclusive.halted_or_pending.resolve_left hsome) hhalted
      (hexclusive.done_or_halted.resolve_right hsome)
  | none =>
    dsimp only
    by_cases hdone : machine.done
    · rw [if_pos hdone]
      exact .goesOn (hexclusive.done_or_pending.resolve_left (by simp [hdone])) hhalted
    · rw [if_neg hdone]
      rw [Bool.not_eq_true] at hdone
      cases hpending : machine.pending with
      | some instruction =>
        exact execute_settled (h.pending instruction hpending).wellFormed h.store rfl rfl hdone
      | none =>
        dsimp only
        have hpops := Instruction.decode_pops machine.pc machine.toStore
        cases hfailure : (Instruction.decode machine.pc machine.toStore).1.failure with
        | some error =>
          have hthrows : machine.Throws error := .inl (Instruction.decode_failure _ _ h.store hfailure).1
          exact settled_fail _ (.inl hthrows.raises.faults) rfl rfl hdone
        | none =>
          exact execute_settled (Instruction.decode_wellFormed _ _)
            (h.store.changes (Store.changes_of_pops hpops)) rfl rfl hdone

/-- The result of a step says whether the machine behind it is halted, and by which fault. -/
theorem halted_step {machine : Machine G S} (hgood : machine.WellFormed) (hexclusive : Exclusive machine)
    {fault : Fault} (h : machine.step.2.halted = some fault) : machine.step.1 = some (.fault fault) := by
  have hsettled := step_settled hgood hexclusive
  generalize machine.step = outcome at hsettled h ⊢
  cases hsettled with
  | goesOn _ hhalted =>
    rw [hhalted] at h
    cases h
  | waits _ hhalted _ =>
    rw [hhalted] at h
    cases h
  | faults _ hhalted _ =>
    rw [hhalted] at h
    cases h
    rfl

theorem Reachable.exclusive {image : Image} (himage : image.WellFormed) {machine : Machine G S}
    (h : Reachable image machine) : Exclusive machine := by
  refine (h.induct (P := fun machine => machine.WellFormed ∧ Exclusive machine) ?_ ?_ ?_ ?_).2
  · intro settings session input sink generator unicode
    exact ⟨wellFormed_new himage _ _ _ _ _ _, .inl rfl, .inl rfl, .inl rfl⟩
  · rintro machine ⟨hgood, hexclusive⟩
    exact ⟨hgood.step, (step_settled hgood hexclusive).exclusive⟩
  · rintro machine ⟨hgood, -⟩
    exact ⟨hgood.move .restart, .inl rfl, .inl rfl, .inl rfl⟩
  · rintro machine input ⟨hgood, hexclusive⟩
    exact ⟨hgood.move (.change .input), hexclusive.1, hexclusive.2, hexclusive.3⟩

/-! ## Machines that have stopped -/

/-- The machine is done, or halted by a fault. -/
def Stopped (machine : Machine G S) : Prop :=
  machine.done = true ∨ machine.halted.isSome

theorem step_of_done {machine : Machine G S} (hexclusive : Exclusive machine)
    (hdone : machine.done = true) : machine.step = (none, machine) := by
  have hhalted := hexclusive.done_or_halted.resolve_left (by simp [hdone])
  unfold step
  rw [hhalted]
  dsimp only
  rw [if_pos hdone]

theorem step_of_halted {machine : Machine G S} {fault : Fault} (hhalted : machine.halted = some fault) :
    machine.step = (some (.fault fault), machine) := by
  unfold step
  rw [hhalted]

theorem run_of_done {machine : Machine G S} (hdone : machine.done = true) (fuel : Nat) (budget : Int) :
    machine.run fuel budget = (⟨0, none⟩, machine) := by
  unfold run runFor
  cases (machine.limit? budget).getD fuel with
  | zero => rfl
  | succ left =>
    rw [drive, if_pos hdone]
    simp

/-- A run whose budget is not limited takes at least one step, as `fuel` is not 0. -/
theorem run_of_halted {machine : Machine G S} (hexclusive : Exclusive machine) {fault : Fault}
    (hhalted : machine.halted = some fault) {fuel : Nat} (hfuel : 0 < fuel) (budget : Int) :
    machine.run fuel budget = (⟨0, some (.fault fault)⟩, machine) := by
  have hdone := hexclusive.done_or_halted.resolve_right (by simp [hhalted])
  have hlimit : 0 < (machine.limit? budget).getD fuel := by
    unfold limit?
    split
    · rw [Option.getD_some]
      omega
    · split
      · rw [Option.getD_some]
        omega
      · exact hfuel
  unfold run runFor
  cases hleft : (machine.limit? budget).getD fuel with
  | zero => omega
  | succ left =>
    rw [drive, if_neg (by simp [hdone]), step_of_halted hhalted]
    simp

/-- A step or a run of a machine that has stopped leaves it as it is. -/
theorem drive_of_stopped {machine : Machine G S} (h : Stopped machine) (budget : Nat) :
    (machine.drive budget).2 = machine := by
  cases budget with
  | zero => rfl
  | succ left =>
    rw [drive]
    split
    · rfl
    · rename_i hdone
      obtain ⟨fault, hhalted⟩ := Option.isSome_iff_exists.mp (h.resolve_left hdone)
      rw [step_of_halted hhalted]

/-- **Only a restart leaves a machine's end.** Without one, whatever is asked changes its input at most. -/
theorem serve_of_stopped {machine : Machine G S} (hexclusive : Exclusive machine) (h : Stopped machine)
    {requests : List Request} (hrequests : .restart ∉ requests) :
    ∃ input, (machine.serve requests).2 = { machine with input } := by
  induction requests generalizing machine with
  | nil => exact ⟨machine.input, rfl⟩
  | cons request rest ih =>
    rw [List.mem_cons, not_or] at hrequests
    have hfirst : ∃ input, (machine.answer request).2 = { machine with input } := by
      cases request with
      | restart => exact absurd rfl hrequests.1
      | setInput input => exact ⟨input, rfl⟩
      | run fuel budget => exact ⟨machine.input, drive_of_stopped h _⟩
      | step =>
        refine ⟨machine.input, ?_⟩
        rcases h with hdone | hhalted
        · exact congrArg Prod.snd (step_of_done hexclusive hdone)
        · obtain ⟨fault, hhalted⟩ := Option.isSome_iff_exists.mp hhalted
          exact congrArg Prod.snd (step_of_halted hhalted)
    obtain ⟨input, heq⟩ := hfirst
    have hexclusive' : Exclusive { machine with input } :=
      ⟨hexclusive.1, hexclusive.2, hexclusive.3⟩
    obtain ⟨last, hlast⟩ := ih hexclusive' h hrequests.2
    refine ⟨last, ?_⟩
    change ((machine.answer request).2.serve rest).2 = _
    rw [heq, hlast]

/-- **The status of a reachable machine.** At most one of done, halted and waiting holds. A step returns
nothing exactly if the machine behind it is neither halted nor waiting, lacks a line only if it waits for
one, and returns the fault that halts the machine otherwise. A machine that is done or halted stays so,
and repeats its answer, until it is restarted. -/
theorem status_automaton {file : Array UInt8} {image : Image} (hload : Image.load file = .ok image)
    {machine : Machine G S} (h : Reachable image machine) :
    Exclusive machine ∧
    (machine.step.1 = none ↔ machine.step.2.halted = none ∧ machine.step.2.pending = none) ∧
    (∀ failure, machine.step.1 = some failure →
      (∃ reason, failure = .noLine reason) ∧ failure.kind? = some .noInput ∧
        machine.step.2.pending.isSome ∨
      ∃ fault, failure = .fault fault ∧ machine.step.2.halted = some fault) ∧
    (machine.done = true → machine.step = (none, machine) ∧
      ∀ fuel budget, machine.run fuel budget = (⟨0, none⟩, machine)) ∧
    (∀ fault, machine.halted = some fault → machine.step = (some (.fault fault), machine) ∧
      ∀ fuel budget, 0 < fuel → machine.run fuel budget = (⟨0, some (.fault fault)⟩, machine)) ∧
    (Stopped machine → ∀ requests, .restart ∉ requests →
      ∃ input, (machine.serve requests).2 = { machine with input }) := by
  have himage := Image.load_wellFormed hload
  have hexclusive := h.exclusive himage
  have hsettled := step_settled (h.wellFormed himage) hexclusive
  refine ⟨hexclusive, ?_, ?_, ?_, ?_, ?_⟩
  · generalize machine.step = outcome at hsettled ⊢
    cases hsettled with
    | goesOn hpending hhalted => simp [hpending, hhalted]
    | waits hpending _ _ => simp [hpending]
    | faults _ hhalted _ => simp [hhalted]
  · intro failure hfailure
    generalize machine.step = outcome at hsettled hfailure ⊢
    cases hsettled with
    | goesOn _ _ => cases hfailure
    | waits hpending _ _ =>
      cases hfailure
      exact .inl ⟨⟨_, rfl⟩, rfl, by simp [hpending]⟩
    | faults _ hhalted _ =>
      cases hfailure
      exact .inr ⟨_, rfl, hhalted⟩
  · exact fun hdone => ⟨step_of_done hexclusive hdone, run_of_done hdone⟩
  · exact fun fault hhalted => ⟨step_of_halted hhalted, fun _ budget hfuel =>
      run_of_halted hexclusive hhalted hfuel budget⟩
  · exact fun hstopped _ hrequests => serve_of_stopped hexclusive hstopped hrequests

/-- The sample story waits for a line, and has quit when it has got one. -/
theorem status_automaton_sample :
    (sampleMachine.serve [.run 10 0]).2.pending.isSome ∧
    (sampleMachine.serve [.run 10 0]).2.done = false ∧
    ∀ fuel budget, (sampleMachine.serve
        [.run 10 0, .setInput (some (.ofLines [[0x61]])), .run 10 0]).2.run fuel budget =
      (⟨0, none⟩, (sampleMachine.serve
        [.run 10 0, .setInput (some (.ofLines [[0x61]])), .run 10 0]).2) := by
  have hwaiting := status_automaton load_sampleStory (reachable_sampleMachine.serve [.run 10 0])
  have hended := status_automaton load_sampleStory
    (reachable_sampleMachine.serve [.run 10 0, .setInput (some (.ofLines [[0x61]])), .run 10 0])
  have hpending : (sampleMachine.serve [.run 10 0]).2.pending.isSome := by decide +kernel
  obtain ⟨-, -, -, hdone, -⟩ := hended
  refine ⟨hpending, ?_, (hdone (by decide +kernel)).2⟩
  refine hwaiting.1.done_or_pending.resolve_right ?_
  exact Option.isSome_iff_ne_none.mp hpending

end

end StoryMachine.Machine
