import Mathlib.Data.Prod.Basic
import StoryMachine.Proofs.Status

/-!
# Runs

* `drive_add` : a run for `m + n` instructions is one for `m` and, unless that fails, one for `n` from where
  it has stopped. If the first has ended early, the second finds the story done;
* `Machine.output` : what the story has printed. Moves only add to it (`output_of_moves`);
* `run_add` : **budgets add up**, for what is counted, for the failure and for the machine;
* `Classified` : a failure is recoverable just if the machine is not halted behind it, and a fault is of a
  kind that halts;
* `Machine.Reliable` : what a session keeps if its sink never refuses a text (`Reliable.serve`);
* `recoverable_iff_not_halted` : **every failure of a step or a run is classified.**
-/

namespace StoryMachine

open Relation (ReflTransGen)

namespace Machine

variable {G S : Type} [Sink S]

/-! ## Output -/

/-- What the story has printed. -/
def output (machine : Machine G S) : List UInt8 :=
  match machine.sink with
  | some sink => Sink.written sink
  | none => []

theorem Change.output_prefix {machine after : Machine G S} (h : Change machine after) :
    machine.output <+: after.output := by
  cases h with
  | output hsink =>
    unfold Machine.output
    rw [hsink]
    exact Sink.written_prefix _ _
  | _ => exact List.prefix_refl _

theorem Move.output_prefix {machine after : Machine G S} (h : Move machine after) :
    machine.output <+: after.output := by
  cases h with
  | change hchange => exact hchange.output_prefix
  | enter henters =>
    cases henters
    exact List.prefix_refl _
  | _ => exact List.prefix_refl _

theorem output_of_moves {machine after : Machine G S} (h : ReflTransGen Move machine after) :
    machine.output <+: after.output := by
  induction h with
  | refl => exact List.prefix_refl _
  | tail _ hmove ih => exact ih.trans hmove.output_prefix

variable [Generator G]

/-! ## Runs one after the other -/

theorem drive_of_done {machine : Machine G S} (hdone : machine.done = true) (budget : Nat) :
    machine.drive budget = (⟨budget, none⟩, machine) := by
  cases budget with
  | zero => rfl
  | succ left => rw [drive, if_pos hdone]

/-- A run goes on where a shorter one has stopped, unless that has failed. -/
theorem drive_add (m n : Nat) (machine : Machine G S) :
    machine.drive (m + n) =
      match machine.drive m with
      | (⟨left, some failure⟩, after) => (⟨left + n, some failure⟩, after)
      | (⟨left, none⟩, after) =>
        (⟨left + (after.drive n).1.left, (after.drive n).1.failure⟩, (after.drive n).2) := by
  induction m generalizing machine with
  | zero =>
    rw [Nat.zero_add, drive]
    dsimp only
    rw [Nat.zero_add]
  | succ m ih =>
    rw [Nat.add_right_comm, drive, drive]
    -- a story that is done leaves both budgets as they are
    by_cases hdone : machine.done = true
    · rw [if_pos hdone, if_pos hdone]
      dsimp only
      rw [drive_of_done hdone, Nat.add_right_comm]
    · rw [if_neg hdone, if_neg hdone]
      rcases machine.step with ⟨_ | failure, after⟩
      · exact ih after
      · dsimp only
        rw [Nat.add_right_comm]

theorem left_drive_le (budget : Nat) (machine : Machine G S) :
    (machine.drive budget).1.left ≤ budget := by
  induction budget generalizing machine with
  | zero => exact Nat.le_refl 0
  | succ budget ih =>
    rw [drive]
    split
    · exact Nat.le_refl _
    · rcases machine.step with ⟨_ | failure, after⟩
      · exact Nat.le_succ_of_le (ih after)
      · exact Nat.le_refl _

theorem runFor_add {m : Nat} {machine : Machine G S} (h : (machine.runFor m).1.failure = none) (n : Nat) :
    machine.runFor (m + n) =
      (⟨(machine.runFor m).1.executed + ((machine.runFor m).2.runFor n).1.executed,
        ((machine.runFor m).2.runFor n).1.failure⟩, ((machine.runFor m).2.runFor n).2) := by
  have hadd := drive_add m n machine
  have hfirst := left_drive_le m machine
  unfold runFor at h ⊢
  rcases hdrive : machine.drive m with ⟨⟨left, failure⟩, after⟩
  rw [hdrive] at h hadd hfirst
  dsimp only at h hfirst
  subst h
  have hsecond := left_drive_le n after
  rw [hadd]
  dsimp only
  congr 2
  omega

/-- A longer run prints what a shorter one prints, and then more. -/
theorem output_drive_prefix {machine : Machine G S} (h : machine.WellFormed) {m n : Nat} (hle : m ≤ n) :
    (machine.drive m).2.output <+: (machine.drive n).2.output := by
  obtain ⟨more, rfl⟩ := Nat.exists_eq_add_of_le hle
  have hgood := h.moves (moves_drive m h)
  rw [drive_add]
  rcases hdrive : machine.drive m with ⟨⟨left, _ | failure⟩, after⟩
  · rw [hdrive] at hgood
    exact output_of_moves (moves_drive more hgood)
  · exact List.prefix_refl _

theorem run_of_pos {budget : Int} (h : 0 < budget) (fuel : Nat) (machine : Machine G S) :
    machine.run fuel budget = machine.runFor budget.toNat := by
  unfold run limit?
  rw [if_pos h, Option.getD_some]

theorem output_run_prefix {machine : Machine G S} (hgood : machine.WellFormed) {j k : Int} (hj : 0 < j)
    (hjk : j ≤ k) (fuel : Nat) :
    (machine.run fuel j).2.output <+: (machine.run fuel k).2.output := by
  rw [run_of_pos hj, run_of_pos (by omega)]
  exact output_drive_prefix hgood (by omega)

/-- **Budgets add up.** Two runs, the first of which does not fail, are one with both budgets: it counts the
same, fails alike and leaves the same machine. A run completes no more than its budget, a longer one prints
what a shorter one prints and then more, and without a budget the configured one is taken. -/
theorem run_add {file : Array UInt8} {image : Image} (hload : Image.load file = .ok image)
    {machine : Machine G S} (h : Reachable image machine) (fuel : Nat) :
    (∀ a b : Int, 0 < a → 0 < b → ∀ n after m failure last,
      machine.run fuel a = (⟨n, none⟩, after) → after.run fuel b = (⟨m, failure⟩, last) →
      machine.run fuel (a + b) = (⟨n + m, failure⟩, last)) ∧
    (∀ k : Int, 0 < k → (machine.run fuel k).1.executed ≤ k) ∧
    (∀ j k : Int, 0 < j → j ≤ k → (machine.run fuel j).2.output <+: (machine.run fuel k).2.output) ∧
    (0 < machine.settings.machine.instructionBudget →
      machine.run fuel 0 = machine.run fuel machine.settings.machine.instructionBudget) := by
  refine ⟨?_, ?_, ?_, ?_⟩
  · intro a b ha hb n after m failure last hfirst hsecond
    rw [run_of_pos ha] at hfirst
    rw [run_of_pos hb] at hsecond
    have hadd := runFor_add (by rw [hfirst]) b.toNat
    rw [run_of_pos (by omega), Int.toNat_add (by omega) (by omega), hadd, hfirst, hsecond]
  · intro k hk
    rw [run_of_pos hk]
    change ((k.toNat - _ : Nat) : Int) ≤ k
    omega
  · intro j k hj hjk
    exact output_run_prefix (h.wellFormed (Image.load_wellFormed hload)) hj hjk fuel
  · intro hbudget
    rw [run_of_pos hbudget]
    unfold run limit?
    rw [if_neg (by omega), if_pos hbudget, Option.getD_some]

theorem run_add_sample :
    (sampleMachine.run 0 2).1 = ⟨2, none⟩ ∧
      ((sampleMachine.run 0 2).2.run 0 5).1 = ⟨0, some (.noLine .noSource)⟩ ∧
      sampleMachine.run 0 (2 + 5) =
        (⟨2 + 0, some (.noLine .noSource)⟩, ((sampleMachine.run 0 2).2.run 0 5).2) := by
  have hpause : (sampleMachine.run 0 2).1 = ⟨2, none⟩ := by decide +kernel
  have hwait : ((sampleMachine.run 0 2).2.run 0 5).1 = ⟨0, some (.noLine .noSource)⟩ := by
    decide +kernel
  have hfirst : sampleMachine.run 0 2 = (⟨2, none⟩, (sampleMachine.run 0 2).2) :=
    Prod.fst_eq_iff.mp hpause
  have hsecond : (sampleMachine.run 0 2).2.run 0 5 =
      (⟨0, some (.noLine .noSource)⟩, ((sampleMachine.run 0 2).2.run 0 5).2) :=
    Prod.fst_eq_iff.mp hwait
  obtain ⟨hadd, -⟩ := run_add load_sampleStory reachable_sampleMachine 0
  have hboth := hadd 2 5 (by decide) (by decide) _ _ _ _ _ hfirst hsecond
  exact ⟨hpause, hwait, hboth⟩

end Machine

/-! ## What a failure says about the machine -/

namespace Error

theorem exists_kind_of_halting {error : Error} (h : error.halting) :
    ∃ kind, error.kind? = some kind ∧ kind.halting := by
  unfold halting at h
  cases hkind : error.kind? with
  | none =>
    rw [hkind] at h
    cases h
  | some kind =>
    rw [hkind] at h
    exact ⟨kind, rfl, h⟩

theorem not_recoverable_of_halting {error : Error} (h : error.halting) : ¬ error.recoverable := by
  obtain ⟨kind, hkind, hhalting⟩ := exists_kind_of_halting h
  unfold recoverable
  rw [hkind]
  revert hhalting
  cases kind <;> decide

end Error

namespace Machine

section
variable {G S : Type}

/-- The failure is recoverable just if the machine is not halted, and a fault is of a kind that halts. -/
structure Classified (failure : Failure) (machine : Machine G S) : Prop where
  recoverable_iff : failure.error.recoverable ↔ machine.halted = none
  kind : ∀ fault, failure = .fault fault → ∃ kind, fault.kind? = some kind ∧ kind.halting

variable [Sink S]

/-- A machine of at most one status whose sink never refuses a text. If it is halted, then by a fault of a kind
that halts. -/
structure Reliable (machine : Machine G S) : Prop where
  good : machine.WellFormed
  exclusive : Exclusive machine
  takesAll : machine.TakesAll
  halted : ∀ fault, machine.halted = some fault → fault.cause.halting

theorem Reliable.restart {machine : Machine G S} (h : machine.Reliable) : machine.restart.Reliable where
  good := h.good.move .restart
  exclusive := ⟨.inl rfl, .inl rfl, .inl rfl⟩
  takesAll := h.takesAll
  halted := nofun

theorem Reliable.setInput {machine : Machine G S} (h : machine.Reliable) (input : Option LineSource) :
    { machine with input }.Reliable where
  good := h.good.move (.change .input)
  exclusive := ⟨h.exclusive.1, h.exclusive.2, h.exclusive.3⟩
  takesAll := h.takesAll
  halted := h.halted

end

namespace Reliable

variable {G S : Type} [Generator G] [Sink S] {machine : Machine G S}

/-- A fault that a step returns has halted the machine before, or is raised by the step itself, and then not
because of the sink. -/
theorem halting_of_step (h : machine.Reliable) {fault : Fault} (hfault : machine.step.1 = some (.fault fault)) :
    fault.cause.halting := by
  have heffect := step_effect h.good
  generalize machine.step = outcome at heffect hfault
  cases heffect with
  | idle _ =>
    obtain ⟨raised, hraised, heq⟩ := Option.map_eq_some_iff.mp hfault
    cases heq
    exact h.halted _ hraised
  | faults _ hraises =>
    cases hfault
    exact hraises.halting h.takesAll
  | skips _ => cases hfault
  | waits _ _ => cases hfault
  | performs _ _ _ => cases hfault

theorem step (h : machine.Reliable) : machine.step.2.Reliable where
  good := h.good.step
  exclusive := (step_settled h.good h.exclusive).exclusive
  takesAll := takesAll_of_moves (step_moves h.good) h.takesAll
  halted _ hhalted := h.halting_of_step (halted_step h.good h.exclusive hhalted)

theorem serve (h : machine.Reliable) (requests : List Request) : (machine.serve requests).2.Reliable :=
  serve_keeps (fun _ hbefore => hbefore.step) (fun _ hbefore => hbefore.restart)
    (fun _ input hbefore => hbefore.setInput input) requests h

theorem classified_step (h : machine.Reliable) {failure : Failure} (hfailure : machine.step.1 = some failure) :
    Classified failure machine.step.2 := by
  have hsettled := step_settled h.good h.exclusive
  have hafter := h.step
  generalize machine.step = outcome at hsettled hafter hfailure ⊢
  cases hsettled with
  | goesOn => cases hfailure
  | waits _ hhalted _ =>
    cases hfailure
    exact ⟨iff_of_true rfl hhalted, nofun⟩
  | faults _ hhalted _ =>
    cases hfailure
    have hhalting := hafter.halted _ hhalted
    refine ⟨iff_of_false (Error.not_recoverable_of_halting hhalting) (by simp [hhalted]), ?_⟩
    intro raised hraised
    cases hraised
    exact Error.exists_kind_of_halting hhalting

/-- The failure of a run is that of its last step, and the machine behind both is the same. -/
theorem classified_drive (h : machine.Reliable) {budget : Nat} {failure : Failure}
    (hfailure : (machine.drive budget).1.failure = some failure) :
    Classified failure (machine.drive budget).2 := by
  obtain ⟨before, hbefore, hstep⟩ := exists_step_of_drive (fun _ => step) budget h hfailure
  have hfailed : before.step.1 = some failure := by rw [hstep]
  have hclassified := hbefore.classified_step hfailed
  rwa [hstep] at hclassified

end Reliable

variable {G S : Type} [Generator G] [Sink S]

/-- **A failure is recoverable just if the machine is not halted.** This holds of every step and every run in a
session whose sink, if it has one, never refuses a text, and its faults are all of a kind that halts. -/
theorem recoverable_iff_not_halted {file : Array UInt8} {image : Image}
    (hload : Image.load file = .ok image) (settings : Settings) (session : String)
    (input : Option LineSource) {sink : Option S} (hsink : ∀ taking, sink = some taking → Sink.Unfailing taking)
    (generator : G) (unicode : Text.Unicode) (requests : List Request) {machine : Machine G S}
    (hmachine : ((new image settings session input sink generator unicode).serve requests).2 = machine) :
    (∀ failure, machine.step.1 = some failure → Classified failure machine.step.2) ∧
    (∀ fuel budget failure, (machine.run fuel budget).1.failure = some failure →
      Classified failure (machine.run fuel budget).2) ∧
    ∀ fault, machine.halted = some fault → ∃ kind, fault.kind? = some kind ∧ kind.halting := by
  have hgood := wellFormed_new (Image.load_wellFormed hload) settings session input sink generator unicode
  have hnew : (new image settings session input sink generator unicode).Reliable :=
    ⟨hgood, ⟨.inl rfl, .inl rfl, .inl rfl⟩, hsink, nofun⟩
  have hreliable := hnew.serve requests
  rw [hmachine] at hreliable
  refine ⟨?_, ?_, ?_⟩
  · exact fun failure hfailure => hreliable.classified_step hfailure
  · exact fun fuel budget failure hfailure => hreliable.classified_drive hfailure
  · exact fun fault hhalted => Error.exists_kind_of_halting (hreliable.halted fault hhalted)

/-- The small story, started at a byte that is no instruction. -/
def faultyStory : Array UInt8 :=
  sampleStory.setIfInBounds 7 0x4E

def faultyImage : Image where
  header := { sampleImage.header with initialPC := 0x4E }
  bytes := faultyStory
  pristine := faultyStory.extract 0 0x50

def faultyMachine : Machine Dice Transcript :=
  .new faultyImage {} "" none (some {}) (.ofClock 0) .fifteen

theorem recoverable_iff_not_halted_sample :
    (∃ failure, ((sampleMachine.serve [.step]).2.run 9 0).1.failure = some failure ∧ failure.error.recoverable ∧
      ((sampleMachine.serve [.step]).2.run 9 0).2.halted = none) ∧
    ∃ fault, faultyMachine.step.1 = some (.fault fault) ∧ ¬ fault.cause.recoverable ∧
      ∃ kind, fault.kind? = some kind ∧ kind.halting := by
  have hwaits : ((sampleMachine.serve [.step]).2.run 9 0).1.failure = some (.noLine .noSource) := by
    decide +kernel
  have hfaults : faultyMachine.step.1 = some (.fault ⟨"", 0x4E, 0, .unsupported .two 0⟩) := by
    decide +kernel
  have hhalted : faultyMachine.step.2.halted ≠ none := by decide +kernel
  have hload : Image.load faultyStory = .ok faultyImage := load_eq_ok (by decide +kernel)
  have hsilent : ∀ taking : Transcript, none = some taking → Sink.Unfailing taking := nofun
  obtain ⟨-, hrun, -⟩ := recoverable_iff_not_halted load_sampleStory {} "" none hsilent
    (Dice.ofClock 0) .fifteen [.step] (show _ = (sampleMachine.serve [.step]).2 from rfl)
  have hsink : ∀ taking, some ({} : Transcript) = some taking → Sink.Unfailing taking := by
    intro taking htaking
    cases htaking
    exact Transcript.unfailing rfl
  obtain ⟨hstep, -⟩ := recoverable_iff_not_halted hload {} "" none hsink (Dice.ofClock 0) .fifteen []
    (show _ = faultyMachine from rfl)
  have hfault := hstep _ hfaults
  exact ⟨⟨_, hwaits, rfl, (hrun 9 0 _ hwaits).recoverable_iff.mp rfl⟩,
    _, hfaults, fun hrecoverable => hhalted (hfault.recoverable_iff.mp hrecoverable), hfault.kind _ rfl⟩

end Machine

end StoryMachine
