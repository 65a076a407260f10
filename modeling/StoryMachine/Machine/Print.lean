import StoryMachine.Machine.Basic
import StoryMachine.Object

/-!
# Printing

Text goes to the sink, if there is one. A string that nests abbreviations too deep or exceeds the
length limit is printed as far as it was decoded; any other failure to decode it is an error.
-/

namespace StoryMachine.Machine

variable {G S : Type} [Sink S]

def print (text : List UInt8) : Exec (Machine G S) Unit := do
  let machine ← get
  match machine.sink with
  | none => return
  | some sink =>
    if text.isEmpty then return
    let (refusal, sink) := Sink.write text sink
    set { machine with sink := some sink }
    if let some reason := refusal then throw (.sinkRefused reason)

/-- Prints a decoded text unless it failed beyond recovery. -/
def printDecoded (decoded : Text.Decoded) : Exec (Machine G S) Unit :=
  match decoded.failure with
  | none => print decoded.text
  | some error => if error.recoverable then print decoded.text else throw error

def printString (address : UInt32) : Exec (Machine G S) Unit := do
  let machine ← get
  let settings := machine.settings.text
  printDecoded (Text.decode machine.image settings.rules settings.maxStringLength address)

/-- The name of an object, as it is printed. -/
def objectName (machine : Machine G S) (object : UInt16) : Text.Decoded :=
  let settings := machine.settings.text
  Object.name machine.image settings.rules settings.maxStringLength object

def printObject (object : UInt16) : Exec (Machine G S) Unit := do
  printDecoded (objectName (← get) object)

/-- Prints the string at the program counter and moves behind it. -/
def printInline : Exec (Machine G S) Unit := do
  printString (← get).pc
  let behind ← .query fun machine => Text.endOf machine.image machine.pc
  setPC behind

end StoryMachine.Machine
