import StoryMachine.Proofs.Disassembly
import StoryMachine.Proofs.Status
import StoryMachine.Proofs.Unseen

/-!
# The lenient policy

A machine may pass over opcodes without an operation instead of halting at them.

* `Machine.withPolicy` : the machine with another policy, and nothing else changed;
* `step_withPolicy`, `stepped_withPolicy` : a step, and any number of steps, that meet no such opcode do not
  depend on the policy;
* `Reachable.supported` : a lenient machine is never halted by such an opcode;
* `Machine.PassesOver` : what is left of an instruction that is passed over. Its operands were resolved, so
  the stack has lost the words that they popped, and the program counter is behind them;
* `lenient_conservative` : **leniency changes nothing but what happens at opcodes without an operation.**
-/

namespace StoryMachine

/-- The settings with another policy. -/
def Settings.withPolicy (policy : OpcodePolicy) (settings : Settings) : Settings :=
  { settings with machine := { settings.machine with opcodePolicy := policy } }

namespace Machine

variable {G S : Type}

/-- The machine with another policy. -/
def withPolicy (policy : OpcodePolicy) (machine : Machine G S) : Machine G S :=
  refit (fun limits => { limits with opcodePolicy := policy }) id machine

/-- The result of a step is the fault of an opcode without an operation. -/
def Unsupported (result : Option Failure) : Prop :=
  ∃ fault, result = some (.fault fault) ∧ fault.kind? = some .unsupportedOpcode

theorem Throws.kind_ne [Sink S] {machine : Machine G S} {error : Error} (h : machine.Throws error) :
    error.kind? ≠ some .unsupportedOpcode := by
  rcases h with h | ⟨⟨reason, rfl⟩, -⟩
  · exact Error.kind_ne_of_operational h
  · exact nofun

theorem settings_of_fetched {machine before : Machine G S} {instruction : Instruction}
    (h : machine.fetched? = some (instruction, before)) : before.settings = machine.settings := by
  obtain ⟨-, -, ⟨-, rfl⟩ | ⟨-, -, -, rfl⟩⟩ := of_fetched h
  · rfl
  · rfl

/-! ## Passing over an instruction -/

/-- The machine has passed over an instruction: its operands were resolved, and nothing else was done. -/
structure PassesOver (source : Source) (machine after : Machine G S) : Prop where
  holds : machine.image.Holds machine.pc source.assemble
  resolved : (resolveAll source.operands machine.toStore).failure = none
  pc_eq : after.pc.toNat = machine.pc.toNat + source.assemble.length
  loses : machine.stack.Loses
    (poppedValues source.operands (resolveAll source.operands machine.toStore).values) after.stack
  keeps : after = { machine with stack := after.stack, pc := after.pc }

theorem passesOver_of_fetched {machine before : Machine G S} (hgood : machine.WellFormed)
    {instruction : Instruction} (hfetched : machine.fetched? = some (instruction, before))
    (hfind : Operation.find instruction.count instruction.number = .ok none) :
    ∃ source : Source, Operation.find source.count source.number = .ok none ∧
      PassesOver source machine before := by
  obtain ⟨-, -, ⟨hpending, -⟩ | ⟨-, hfailure, rfl, rfl⟩⟩ := of_fetched hfetched
  · -- an instruction that waits reads a line, so it has an operation
    rw [(hgood.pending instruction hpending).find_eq] at hfind
    cases hfind
  · obtain ⟨source, hholds⟩ := Instruction.exists_source hfailure
    obtain ⟨next, hnext, -, hdecode⟩ := Instruction.decode_eq_resolveAll source machine.pc
      machine.toStore hgood.store.image.size_lt hholds
    obtain ⟨hstore, hloses⟩ := resolveAll_loses source.operands machine.toStore
    rw [hdecode] at hfailure hfind ⊢
    refine ⟨source, hfind, hholds, hfailure, hnext hfailure, hloses, ?_⟩
    dsimp only
    rw [hstore]

/-! ## Steps that do not depend on the policy -/

variable [Generator G] [Sink S]

/-- The machine behind a number of steps. -/
def stepped (machine : Machine G S) : Nat → Machine G S
  | 0 => machine
  | n + 1 => (machine.stepped n).step.2

/-- A machine that halts at opcodes without an operation, and did not in this step, has met none. -/
theorem step_withPolicy (policy : OpcodePolicy) {machine : Machine G S} (hgood : machine.WellFormed)
    (hfatal : machine.settings.machine.opcodePolicy = .fatal) (h : ¬ Unsupported machine.step.1) :
    (machine.withPolicy policy).step = (machine.step.1, machine.step.2.withPolicy policy) := by
  refine step_refit _ id hgood fun instruction before hfetched => ⟨fun _ => rfl, fun hfind => ?_⟩
  have hpolicy : before.settings.machine.opcodePolicy = .fatal := by
    rw [settings_of_fetched hfetched, hfatal]
  rw [step_of_fetched hfetched, execute_eq_fail hfind hpolicy] at h
  exact absurd ⟨_, rfl, rfl⟩ h

theorem settings_step {machine : Machine G S} (hgood : machine.WellFormed) :
    machine.step.2.settings = machine.settings := by
  refine hgood.keeps (P := fun after => after.settings = machine.settings) ?_ (step_moves hgood) rfl
  exact fun _ _ _ hmove hkept => hmove.settings_eq.trans hkept

theorem stepped_good {machine : Machine G S} (hgood : machine.WellFormed) (n : Nat) :
    (machine.stepped n).WellFormed ∧ (machine.stepped n).settings = machine.settings := by
  induction n with
  | zero => exact ⟨hgood, rfl⟩
  | succ n ih => exact ⟨ih.1.step, (settings_step ih.1).trans ih.2⟩

theorem stepped_withPolicy (policy : OpcodePolicy) {machine : Machine G S} (hgood : machine.WellFormed)
    (hfatal : machine.settings.machine.opcodePolicy = .fatal) (n : Nat)
    (h : ∀ k < n, ¬ Unsupported (machine.stepped k).step.1) :
    (machine.withPolicy policy).stepped n = (machine.stepped n).withPolicy policy := by
  induction n with
  | zero => rfl
  | succ n ih =>
    obtain ⟨hbefore, hsettings⟩ := stepped_good hgood n
    have hpolicy : (machine.stepped n).settings.machine.opcodePolicy = .fatal := by
      rw [hsettings, hfatal]
    rw [stepped, ih fun k hk => h k (Nat.lt_succ_of_lt hk),
      step_withPolicy policy hbefore hpolicy (h n (Nat.lt_succ_self n)), stepped]

/-! ## Lenient machines -/

theorem execute_supported {instruction : Instruction} (hinstruction : instruction.WellFormed)
    {machine : Machine G S} (hgood : machine.toStore.WellFormed)
    (hlenient : machine.settings.machine.opcodePolicy = .skipLenient) :
    ¬ Unsupported (execute instruction machine).1 := by
  rintro ⟨fault, hfault, hkind⟩
  obtain ⟨entry, hfind⟩ := hinstruction.exists_find
  cases entry with
  | none =>
    rw [execute_eq_skip hfind hlenient] at hfault
    cases hfault
  | some operation =>
    have heffect := operate_effect operation hinstruction hgood
    rw [execute_eq_finish hfind] at hfault
    rcases hp : (operate operation instruction).perform machine with ⟨error | value, after⟩ <;>
      rw [hp] at heffect hfault
    · rcases heffect.error hgood rfl with hthrows | ⟨reason, input, -, heq⟩
      · obtain ⟨raised, rfl, hfail⟩ := fail_of_faults instruction after hthrows.raises.faults
        rw [finish, hfail] at hfault
        cases hfault
        exact hthrows.kind_ne hkind
      · cases heq
        cases hfault
    · cases hfault

/-- A step of a lenient machine returns no such fault unless the machine is halted by it already. -/
theorem step_supported {machine : Machine G S} (hgood : machine.WellFormed)
    (hlenient : machine.settings.machine.opcodePolicy = .skipLenient)
    (hhalted : ∀ fault, machine.halted = some fault → fault.kind? ≠ some .unsupportedOpcode) :
    ¬ Unsupported machine.step.1 := by
  rcases step_cases machine with ⟨-, hstep⟩ | ⟨error, hfailure, -, hstep⟩ |
    ⟨instruction, before, hfetched, hstep⟩
  · rw [hstep]
    rintro ⟨fault, hfault, hkind⟩
    obtain ⟨raised, hraised, heq⟩ := Option.map_eq_some_iff.mp hfault
    cases heq
    exact hhalted _ hraised hkind
  · obtain ⟨hoperational, -⟩ := Instruction.decode_failure _ _ hgood.store hfailure
    rw [hstep]
    rintro ⟨fault, hfault, hkind⟩
    have hthrows : machine.Throws error := .inl hoperational
    obtain ⟨raised, rfl, hfail⟩ := fail_of_faults
      (Instruction.decode machine.pc machine.toStore).1.instruction _ hthrows.raises.faults
    rw [hfail] at hfault
    cases hfault
    exact Error.kind_ne_of_operational hoperational hkind
  · obtain ⟨hinstruction, hmoves⟩ := hgood.fetched hfetched
    rw [hstep]
    refine execute_supported hinstruction (hgood.moves hmoves).store ?_
    rw [settings_of_fetched hfetched, hlenient]

/-- **No opcode without an operation halts a lenient machine.** -/
theorem Reachable.supported {image : Image} (himage : image.WellFormed) {machine : Machine G S}
    (h : Reachable image machine) (hlenient : machine.settings.machine.opcodePolicy = .skipLenient)
    {fault : Fault} (hhalted : machine.halted = some fault) :
    fault.kind? ≠ some .unsupportedOpcode := by
  refine (h.induct (P := fun machine => (machine.WellFormed ∧ Exclusive machine) ∧
    (machine.settings.machine.opcodePolicy = .skipLenient →
      ∀ fault, machine.halted = some fault → fault.kind? ≠ some .unsupportedOpcode))
    ?_ ?_ ?_ ?_).2 hlenient fault hhalted
  · intro settings session input sink generator unicode
    exact ⟨⟨wellFormed_new himage _ _ _ _ _ _, .inl rfl, .inl rfl, .inl rfl⟩, nofun⟩
  · rintro machine ⟨⟨hgood, hexclusive⟩, hsupported⟩
    refine ⟨⟨hgood.step, (step_settled hgood hexclusive).exclusive⟩, ?_⟩
    intro hlenient fault hhalted hkind
    rw [settings_step hgood] at hlenient
    exact step_supported hgood hlenient (hsupported hlenient)
      ⟨fault, halted_step hgood hexclusive hhalted, hkind⟩
  · rintro machine ⟨⟨hgood, -⟩, -⟩
    exact ⟨⟨hgood.move .restart, .inl rfl, .inl rfl, .inl rfl⟩, fun _ => nofun⟩
  · rintro machine input ⟨⟨hgood, hexclusive⟩, hsupported⟩
    exact ⟨⟨hgood.move (.change .input), hexclusive.1, hexclusive.2, hexclusive.3⟩, hsupported⟩

/-- **Leniency changes nothing but what happens at opcodes without an operation.** As long as a machine that
halts at them returns no such fault, a lenient one goes through the same states and gives the same results.
No step of a lenient machine returns such a fault, whatever it was asked before. One that comes to such an
opcode moves the program counter behind the operands and takes the words that they popped off the stack, and
changes nothing else. -/
theorem lenient_conservative {file : Array UInt8} {image : Image}
    (hload : Image.load file = .ok image) :
    (∀ (settings : Settings) (session : String) (input : Option LineSource) (sink : Option S)
      (generator : G) (unicode : Text.Unicode) (n : Nat),
      let fatal := new image (settings.withPolicy .fatal) session input sink generator unicode
      let lenient := new image (settings.withPolicy .skipLenient) session input sink generator unicode
      (∀ k < n, ¬ Unsupported (fatal.stepped k).step.1) →
        (∀ k ≤ n, lenient.stepped k = (fatal.stepped k).withPolicy .skipLenient) ∧
        ∀ k < n, (lenient.stepped k).step.1 = (fatal.stepped k).step.1) ∧
    ∀ machine : Machine G S, Reachable image machine →
      machine.settings.machine.opcodePolicy = .skipLenient →
      ¬ Unsupported machine.step.1 ∧
      ∀ instruction before, machine.fetched? = some (instruction, before) →
        Operation.find instruction.count instruction.number = .ok none →
        machine.step.1 = none ∧
        ∃ source : Source, Operation.find source.count source.number = .ok none ∧
          PassesOver source machine machine.step.2 := by
  have himage := Image.load_wellFormed hload
  constructor
  · intro settings session input sink generator unicode n fatal lenient hsupported
    have hgood : fatal.WellFormed := wellFormed_new himage _ _ _ _ _ _
    have hstates : ∀ k ≤ n, lenient.stepped k = (fatal.stepped k).withPolicy .skipLenient := fun k hk =>
      stepped_withPolicy .skipLenient hgood rfl k fun i hi => hsupported i (Nat.lt_of_lt_of_le hi hk)
    refine ⟨hstates, fun k hk => ?_⟩
    obtain ⟨hbefore, hsettings⟩ := stepped_good hgood k
    rw [hstates k (Nat.le_of_lt hk),
      step_withPolicy .skipLenient hbefore (by rw [hsettings]; rfl) (hsupported k hk)]
  · intro machine h hlenient
    have hgood := h.wellFormed himage
    refine ⟨step_supported hgood hlenient fun fault hhalted => h.supported himage hlenient hhalted, ?_⟩
    intro instruction before hfetched hfind
    have hpolicy : before.settings.machine.opcodePolicy = .skipLenient := by
      rw [settings_of_fetched hfetched, hlenient]
    rw [step_of_fetched hfetched, execute_eq_skip hfind hpolicy]
    exact ⟨rfl, passesOver_of_fetched hgood hfetched hfind⟩

/-- A story that pushes a word, comes to an opcode without an operation that pops it, and quits. -/
def lenientStory : Array UInt8 :=
  #[0x03, 0x00, 0x00, 0x00, 0x00, 0x00, 0x00, 0x40, 0x00, 0x00, 0x00, 0x00, 0x00, 0x10, 0x00, 0x50,
    0x00, 0x00, 0x00, 0x00, 0x00, 0x00, 0x00, 0x00, 0x00, 0x00, 0x00, 0x00, 0x00, 0x00, 0x00, 0x00,
    0x00, 0x00, 0x00, 0x00, 0x00, 0x00, 0x00, 0x00, 0x00, 0x00, 0x00, 0x00, 0x00, 0x00, 0x00, 0x00,
    0x00, 0x00, 0x00, 0x00, 0x00, 0x00, 0x00, 0x00, 0x00, 0x00, 0x00, 0x00, 0x00, 0x00, 0x00, 0x00,
    0xE8, 0x7F, 0x07, 0x40, 0x00, 0x05, 0xBA, 0x00, 0x00, 0x00, 0x00, 0x00, 0x00, 0x00, 0x00, 0x00]

def lenientImage : Image :=
  .whole lenientStory

theorem load_lenientStory : Image.load lenientStory = .ok lenientImage :=
  Image.load_eq_whole (by decide) (by decide) (by decide) (by decide) (by decide) (by decide)

def lenientMachine (policy : OpcodePolicy) : Machine Dice Transcript :=
  .new lenientImage (Settings.withPolicy policy {}) "" none none (.ofClock 0) .fifteen

theorem lenient_conservative_sample :
    (lenientMachine .skipLenient).stepped 1 = ((lenientMachine .fatal).stepped 1).withPolicy .skipLenient ∧
    Unsupported ((lenientMachine .fatal).stepped 1).step.1 ∧
    ((lenientMachine .skipLenient).stepped 1).step.1 = none ∧
    (∃ source, PassesOver source ((lenientMachine .skipLenient).stepped 1)
      ((lenientMachine .skipLenient).stepped 2)) ∧
    ((lenientMachine .skipLenient).stepped 3).done = true := by
  have hfirst : (lenientMachine .fatal).step.1 = none := by decide +kernel
  have hsecond : ((lenientMachine .fatal).stepped 1).step.1 =
      some (.fault ⟨"", 0x43, 0x40, .unsupported .two 0⟩) := by decide +kernel
  have hnext : ((lenientMachine .skipLenient).stepped 1).fetched?.map Prod.fst =
      some ⟨0x43, 0x40, .long, .two, 0, #v[7, 5, 0, 0], 2⟩ := by decide +kernel
  obtain ⟨⟨instruction, before⟩, hfetched, rfl⟩ := Option.map_eq_some_iff.mp hnext
  obtain ⟨hsame, hskips⟩ := lenient_conservative (G := Dice) (S := Transcript) load_lenientStory
  have hstates := (hsame {} "" none none (.ofClock 0) .fifteen 1 ?_).1 1 (Nat.le_refl 1)
  · obtain ⟨-, hpasses⟩ := hskips ((lenientMachine .skipLenient).stepped 1)
      (.step (.new _ _ _ _ _ _)) (by decide +kernel)
    obtain ⟨hnone, source, -, hsource⟩ := hpasses _ before hfetched rfl
    exact ⟨hstates, ⟨_, hsecond, rfl⟩, hnone, ⟨source, hsource⟩, by decide +kernel⟩
  · intro k hk
    obtain rfl : k = 0 := by omega
    rintro ⟨fault, hfault, -⟩
    cases hfirst.symm.trans hfault

end Machine

end StoryMachine
