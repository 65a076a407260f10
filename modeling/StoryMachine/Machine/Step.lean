import StoryMachine.Machine.Execute

/-!
# Running a machine

`Machine.step` executes one instruction. A fault halts the machine for good; a missing line of input
does not, and the instruction that asked for it is tried again by the next step. `Machine.run`
executes instructions until the story ends, a step fails or a budget is used up.
-/

namespace StoryMachine

/-- Why a step did not complete. -/
inductive Failure where
  /-- The machine is halted. -/
  | fault (raised : Fault)
  /-- The machine waits for a line of input. -/
  | noLine (reason : InputFailure)
  /-- An access outside a table that no check has refused. -/
  | broken (table : Table)
  deriving DecidableEq

namespace Failure

def error : Failure → Error
  | .fault raised => raised.cause
  | .noLine reason => .noLine reason
  | .broken table => .outsideTable table

def kind? (failure : Failure) : Option ErrorKind :=
  failure.error.kind?

def message : Failure → String
  | .fault raised => raised.message
  | failure => failure.error.message

end Failure

namespace Machine

variable {G S : Type} [Generator G] [Sink S]

/-- Ends an instruction that failed: it waits for input or halts the machine. -/
def fail (instruction : Instruction) (error : Error) (machine : Machine G S) :
    Option Failure × Machine G S :=
  match error with
  | .noLine reason => (some (.noLine reason), { machine with pending := some instruction })
  | .outsideTable table => (some (.broken table), machine)
  | error =>
    let fault : Fault := {
      session := machine.session
      pc := instruction.address
      opcode := instruction.opcode
      cause := error }
    (some (.fault fault), { machine with halted := some fault })

def execute (instruction : Instruction) (machine : Machine G S) : Option Failure × Machine G S :=
  match Operation.find instruction.count instruction.number with
  | .error error => fail instruction error machine
  | .ok none =>
    match machine.settings.machine.opcodePolicy with
    | .skipLenient => (none, machine)
    | .fatal => fail instruction (.unsupported instruction.count instruction.number) machine
  | .ok (some operation) =>
    match (operate operation instruction).perform machine with
    | (.ok (), machine) => (none, machine)
    | (.error error, machine) => fail instruction error machine

/-- Executes the instruction at the program counter, or the one that waits for input. A machine that
is halted or done stays as it is. -/
def step (machine : Machine G S) : Option Failure × Machine G S :=
  match machine.halted with
  | some fault => (some (.fault fault), machine)
  | none =>
    if machine.done then (none, machine)
    else
      match machine.pending with
      | some instruction => execute instruction { machine with pending := none }
      | none =>
        let (decoded, store) := Instruction.decode machine.pc machine.toStore
        let machine := { machine with toStore := store, pc := decoded.next }
        match decoded.failure with
        | some error => fail decoded.instruction error machine
        | none => execute decoded.instruction machine

/-! ## Runs -/

/-- Where a run has stopped: how much of its budget is left, and why it failed, if it did. -/
structure Stop where
  left : Nat
  failure : Option Failure
  deriving DecidableEq

def drive : Nat → Machine G S → Stop × Machine G S
  | 0, machine => (⟨0, none⟩, machine)
  | budget + 1, machine =>
    if machine.done then (⟨budget + 1, none⟩, machine)
    else
      match machine.step with
      | (some failure, machine) => (⟨budget + 1, some failure⟩, machine)
      | (none, machine) => drive budget machine

/-- The number of instructions that a run may execute: the budget asked for, or else the configured
one; none if neither is positive. -/
def limit? (machine : Machine G S) (budget : Int) : Option Nat :=
  if budget > 0 then some budget.toNat
  else if machine.settings.machine.instructionBudget > 0 then
    some machine.settings.machine.instructionBudget.toNat
  else none

/-- How many instructions a run has completed, and why it failed, if it did. -/
structure Outcome where
  executed : Nat
  failure : Option Failure
  deriving DecidableEq

/-- Executes up to `budget` instructions and counts those completed. -/
def runFor (budget : Nat) (machine : Machine G S) : Outcome × Machine G S :=
  let (stop, machine) := machine.drive budget
  (⟨budget - stop.left, stop.failure⟩, machine)

/-- Runs the machine within a budget; `fuel` stands in for a budget where there is none. -/
def run (fuel : Nat) (budget : Int) (machine : Machine G S) : Outcome × Machine G S :=
  machine.runFor ((machine.limit? budget).getD fuel)

end Machine

end StoryMachine
