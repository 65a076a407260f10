import StoryMachine.Instruction.Decode
import StoryMachine.LineSource
import StoryMachine.Random
import StoryMachine.Settings.Basic
import StoryMachine.Sink
import StoryMachine.Text.Lowercase

/-!
# The machine

A `Machine` is one session of a story: the store, the program counter, what it reads from and prints
to, and its status. A machine that is done, halted by a fault, or waiting for input keeps that
status in `done`, `halted` and `pending`.

Operations are steps on a machine, `Exec (Machine G S)`, whatever its generator and its sink are. This
module has those that every operation is made of.
-/

namespace StoryMachine

/-- One session of a story. -/
structure Machine (G S : Type) extends Store where
  settings : Settings
  session : String
  pc : UInt32
  /-- An instruction that waits for input. -/
  pending : Option Instruction := none
  /-- The fault that halted the machine. -/
  halted : Option Fault := none
  /-- The story has quit or returned from its main routine. -/
  done : Bool := false
  input : Option LineSource
  sink : Option S
  generator : G
  /-- The edition of Unicode by which input is lowered. -/
  unicode : Text.Unicode

namespace Machine

variable {G S α : Type}

/-- A new session that starts at the story's initial address. -/
def new [Generator G] (image : Image) (settings : Settings) (session : String)
    (input : Option LineSource) (sink : Option S) (generator : G)
    (unicode : Text.Unicode) : Machine G S where
  image
  stack := .empty settings.machine.maxStack
  calls := .empty settings.machine.maxCallDepth
  settings
  session
  pc := image.header.initialPC.toUInt32
  input
  sink
  generator :=
    if settings.machine.randomSeed = 0 then Generator.renew generator
    else Generator.seed settings.machine.randomSeed generator
  unicode

/-- Reloads dynamic memory and starts the story over. Input, output and the generator go on. -/
def restart (machine : Machine G S) : Machine G S :=
  { machine with
    image := machine.image.reset
    stack := machine.stack.clear
    calls := machine.calls.clear
    pc := machine.image.header.initialPC.toUInt32
    pending := none
    halted := none
    done := false }

/-! ## Steps on the parts -/

def onStore (step : Exec Store α) : Exec (Machine G S) α :=
  step.within toStore fun machine store => { machine with toStore := store }

def onImage (step : Exec Image α) : Exec (Machine G S) α :=
  step.within (·.image) fun machine image => { machine with image }

def setPC (address : UInt32) : Exec (Machine G S) Unit :=
  modify fun machine => { machine with pc := address }

/-- Reads the byte at the program counter and moves behind it. -/
def nextByte : Exec (Machine G S) UInt8 := do
  let byte ← .query fun machine => machine.image.readByte machine.pc
  modify fun machine => { machine with pc := machine.pc + 1 }
  return byte

/-- Stores a result in the variable that the next byte names. -/
def storeResult (value : UInt16) : Exec (Machine G S) Unit := do
  let number ← nextByte
  onStore (Store.write number value)

/-- Goes on at an address inside the image. -/
def jumpTo (target : Int) : Exec (Machine G S) Unit := do
  let machine ← get
  if target < 0 ∨ target ≥ machine.image.length.toNat then throw (.jump target)
  setPC target.toNat.toUInt32

end Machine

end StoryMachine
