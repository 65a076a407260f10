import StoryMachine.Proofs.Step

/-!
# Reachable machines

* `Machine.Reachable image` : the machines that a new session of an image can be brought to by steps,
  runs, restarts and changes of its input, in any order;
* `Reachable.induct` : a property of new machines that steps, restarts and changes of the input keep holds
  of every reachable machine. A run needs no case of its own (`drive_keeps`);
* `Reachable.wellFormed`, `Reachable.keeps` : every reachable machine is well-formed, and has every
  property that new machines have and moves keep;
* `no_access_outside_tables` : whatever bytes were loaded, a step or a run ends normally, lacks a line of
  input, or ends in a fault.
-/

namespace StoryMachine.Machine

open Relation (ReflTransGen)

variable {G S : Type} [Generator G] {image : Image}

theorem wellFormed_new (h : image.WellFormed) (settings : Settings) (session : String)
    (input : Option LineSource) (sink : Option S) (generator : G) (unicode : Text.Unicode) :
    (new image settings session input sink generator unicode).WellFormed :=
  ⟨.fresh h rfl rfl rfl, nofun, nofun⟩

variable [Sink S]

/-- What a session of a story can be brought to. -/
inductive Reachable (image : Image) : Machine G S → Prop
  | new (settings : Settings) (session : String) (input : Option LineSource) (sink : Option S)
      (generator : G) (unicode : Text.Unicode) :
      Reachable image (.new image settings session input sink generator unicode)
  | step {machine : Machine G S} (h : Reachable image machine) : Reachable image machine.step.2
  | run {machine : Machine G S} (fuel : Nat) (budget : Int) (h : Reachable image machine) :
      Reachable image (machine.run fuel budget).2
  | restart {machine : Machine G S} (h : Reachable image machine) : Reachable image machine.restart
  | setInput {machine : Machine G S} (input : Option LineSource) (h : Reachable image machine) :
      Reachable image { machine with input }

/-! ## Runs are made of steps -/

/-- What steps keep, a run keeps. -/
theorem drive_keeps {P : Machine G S → Prop} (hstep : ∀ machine, P machine → P machine.step.2)
    (budget : Nat) {machine : Machine G S} (h : P machine) : P (machine.drive budget).2 := by
  induction budget generalizing machine with
  | zero => exact h
  | succ budget ih =>
    rw [drive]
    split
    · exact h
    · have hnext := hstep machine h
      rcases hs : machine.step with ⟨_ | failure, after⟩ <;> rw [hs] at hnext
      · exact ih hnext
      · exact hnext

/-- A run that fails ends with the step that failed. -/
theorem exists_step_of_drive {P : Machine G S → Prop} (hstep : ∀ machine, P machine → P machine.step.2)
    (budget : Nat) {machine : Machine G S} (h : P machine) {failure : Failure}
    (hfailure : (machine.drive budget).1.failure = some failure) :
    ∃ before, P before ∧ before.step = (some failure, (machine.drive budget).2) := by
  induction budget generalizing machine with
  | zero => cases hfailure
  | succ budget ih =>
    rw [drive] at hfailure ⊢
    split at hfailure
    · cases hfailure
    · rename_i hdone
      rw [if_neg hdone]
      have hnext := hstep machine h
      rcases hs : machine.step with ⟨_ | raised, after⟩ <;> rw [hs] at hnext hfailure
      · exact ih hnext hfailure
      · cases hfailure
        exact ⟨machine, h, hs⟩

/-- The failure of a run is the failure of a step in it. -/
theorem drive_failure {P : Machine G S → Prop} (hstep : ∀ machine, P machine → P machine.step.2)
    (budget : Nat) {machine : Machine G S} (h : P machine) {failure : Failure}
    (hfailure : (machine.drive budget).1.failure = some failure) :
    ∃ before, P before ∧ before.step.1 = some failure := by
  obtain ⟨before, hbefore, hfailed⟩ := exists_step_of_drive hstep budget h hfailure
  exact ⟨before, hbefore, by rw [hfailed]⟩

/-! ## Invariants -/

theorem Reachable.induct {P : Machine G S → Prop}
    (hnew : ∀ settings session input sink generator unicode,
      P (.new image settings session input sink generator unicode))
    (hstep : ∀ machine, P machine → P machine.step.2)
    (hrestart : ∀ machine : Machine G S, P machine → P machine.restart)
    (hinput : ∀ (machine : Machine G S) input, P machine → P { machine with input })
    {machine : Machine G S} (h : Reachable image machine) : P machine := by
  induction h with
  | new settings session input sink generator unicode => exact hnew settings session input sink generator unicode
  | step _ ih => exact hstep _ ih
  | run fuel budget _ ih => exact drive_keeps hstep _ ih
  | restart _ ih => exact hrestart _ ih
  | setInput input _ ih => exact hinput _ input ih

theorem Reachable.wellFormed (himage : image.WellFormed) {machine : Machine G S}
    (h : Reachable image machine) : machine.WellFormed := by
  refine h.induct (P := WellFormed) (wellFormed_new himage) (fun _ hgood => hgood.step) ?_ ?_
  · exact fun _ hgood => hgood.move .restart
  · exact fun _ _ hgood => hgood.move (.change .input)

/-- **What every move of a well-formed machine keeps holds of every reachable machine.** -/
theorem Reachable.keeps {P : Machine G S → Prop} (himage : image.WellFormed)
    (hnew : ∀ settings session input sink generator unicode,
      P (.new image settings session input sink generator unicode))
    (hmove : ∀ machine after : Machine G S, machine.WellFormed → Move machine after → P machine → P after)
    {machine : Machine G S} (h : Reachable image machine) : P machine := by
  refine (h.induct (P := fun machine => machine.WellFormed ∧ P machine) ?_ ?_ ?_ ?_).2
  · intro settings session input sink generator unicode
    exact ⟨wellFormed_new himage _ _ _ _ _ _, hnew _ _ _ _ _ _⟩
  · rintro machine ⟨hgood, hmachine⟩
    exact ⟨hgood.step, hgood.keeps hmove (step_moves hgood) hmachine⟩
  · rintro machine ⟨hgood, hmachine⟩
    exact ⟨hgood.move .restart, hmove _ _ hgood .restart hmachine⟩
  · rintro machine input ⟨hgood, hmachine⟩
    exact ⟨hgood.move (.change .input), hmove _ _ hgood (.change .input) hmachine⟩

/-! ## Failures -/

/-- A step or a run ended normally, or lacks a line, or ended in a fault, and no table was left. -/
def InsideTables : Option Failure → Prop
  | none => True
  | some (.noLine _) => True
  | some (.fault fault) => ∀ table, fault.cause ≠ .outsideTable table
  | some (.broken _) => False

theorem WellFormed.insideTables_step {machine : Machine G S} (h : machine.WellFormed) :
    InsideTables machine.step.1 := by
  cases hfailure : machine.step.1 with
  | none => trivial
  | some failure =>
    rcases step_failure h hfailure with ⟨fault, rfl, hhalted⟩ | ⟨reason, _, _, _, rfl, -⟩
    · exact (h.step.halted fault hhalted).ne_outsideTable
    · trivial

/-- **Whatever a story file holds, no step and no run of it leaves a table.** -/
theorem no_access_outside_tables {file : Array UInt8} (hload : Image.load file = .ok image)
    {machine : Machine G S} (h : Reachable image machine) :
    InsideTables machine.step.1 ∧
      ∀ fuel budget, InsideTables (machine.run fuel budget).1.failure := by
  have hgood := h.wellFormed (Image.load_wellFormed hload)
  refine ⟨hgood.insideTables_step, ?_⟩
  intro fuel budget
  cases hfailure : (machine.run fuel budget).1.failure with
  | none => trivial
  | some failure =>
    obtain ⟨before, hbefore, hstep⟩ :=
      drive_failure (fun _ hgood => WellFormed.step hgood) _ hgood hfailure
    have hinside := hbefore.insideTables_step
    rwa [hstep] at hinside

/-! ## A small story -/

/-- A story that overwrites the static base in its header, calls a routine, and quits. The routine reads
a line into the buffer at 0x4C and returns 42. -/
def sampleStory : Array UInt8 :=
  #[0x03, 0x00, 0x00, 0x00, 0x00, 0x00, 0x00, 0x40, 0x00, 0x00, 0x00, 0x00, 0x00, 0x10, 0x00, 0x50,
    0x00, 0x00, 0x00, 0x00, 0x00, 0x00, 0x00, 0x00, 0x00, 0x00, 0x00, 0x00, 0x00, 0x00, 0x00, 0x00,
    0x00, 0x00, 0x00, 0x00, 0x00, 0x00, 0x00, 0x00, 0x00, 0x00, 0x00, 0x00, 0x00, 0x00, 0x00, 0x00,
    0x00, 0x00, 0x00, 0x00, 0x00, 0x00, 0x00, 0x00, 0x00, 0x00, 0x00, 0x00, 0x00, 0x00, 0x00, 0x00,
    0xE1, 0x53, 0x0E, 0x00, 0xFF, 0xFF, 0xE0, 0x3F, 0x00, 0x2A, 0x00, 0xBA, 0x04, 0x00, 0x00, 0x00,
    0x00, 0x00, 0x00, 0x00, 0x00, 0xE4, 0x7F, 0x4C, 0x9B, 0x2A]

def sampleImage : Image where
  header := { Header.parse sampleStory with length := 0x5A }
  bytes := sampleStory
  pristine := sampleStory.extract 0 0x50

/-- Options can be compared by evaluation, results cannot. -/
theorem load_eq_ok {file : Array UInt8} {image : Image}
    (h : (Image.load file).toOption = some image) : Image.load file = .ok image := by
  cases hload : Image.load file with
  | error e =>
    rw [hload] at h
    cases h
  | ok loaded =>
    rw [hload] at h
    rw [Option.some.inj h]

theorem load_sampleStory : Image.load sampleStory = .ok sampleImage :=
  load_eq_ok (by decide +kernel)

/-- A session of the story without input or output. -/
def sampleMachine : Machine Dice Transcript :=
  .new sampleImage {} "" none none (.ofClock 0) .fifteen

theorem reachable_sampleMachine : Reachable sampleImage sampleMachine :=
  .new _ _ _ _ _ _

theorem no_access_outside_tables_sample :
    InsideTables sampleMachine.step.2.step.2.step.1 ∧
      ∀ fuel budget, InsideTables (sampleMachine.step.2.step.2.run fuel budget).1.failure :=
  no_access_outside_tables load_sampleStory reachable_sampleMachine.step.step

end StoryMachine.Machine
