import StoryMachine.Machine.Basic

/-!
# Routines and branches

A routine begins with the number of its locals and their default values. A call binds its arguments
over the defaults and raises the stack floor; a return drops what the routine left on the stack,
goes back behind the call and stores the result. Returning from the main routine ends the story.

A branch is one or two bytes behind an instruction: whether it is taken when the condition holds or
when it does not, and how far it goes. Distances 0 and 1 return false and true.
-/

namespace StoryMachine.Machine

variable {G S : Type}

/-! ## Calls -/

def readWords (image : Image) (address : UInt32) : Nat → Except Error (List UInt16)
  | 0 => .ok []
  | count + 1 => do
    let value ← image.readWord address
    return value :: (← readWords image (address + 2) count)

/-- The values of locals: the arguments first, then the defaults that they leave. Surplus arguments
are dropped. -/
def overlay : List UInt16 → List UInt16 → List UInt16
  | [], _ => []
  | defaults, [] => defaults
  | _ :: defaults, argument :: arguments => argument :: overlay defaults arguments

/-- The values of the locals of the routine at an address, and the address of its body. -/
def enterRoutine (image : Image) (routine : UInt32) (arguments : List UInt16) :
    Except Error (List UInt16 × UInt32) := do
  let count ← image.readByte routine
  if count.toNat > maxLocals then throw (.tooManyLocals routine count)
  let defaults ← readWords image (routine + 1) count.toNat
  let body := routine + 1 + 2 * count.toUInt32
  if body ≥ image.length then throw (.noBody routine)
  return (overlay defaults arguments, body)

/-- Puts the top of the stack back to its floor, and the floor back to where it was. -/
def leaveStack (saved : Int) : Exec (Machine G S) Unit := do
  let machine ← get
  let stack ← .ofExcept (machine.stack.leave saved)
  set { machine with stack }

/-- Goes on in a frame at the body of its routine. The floor of the stack is raised first, and goes back
to where it was if the frame is one too many. -/
def openFrame (frame : Frame) (body : UInt32) : Exec (Machine G S) Unit := do
  modify fun machine => { machine with stack := machine.stack.enter }
  match (← get).calls.push frame with
  | .ok calls => modify fun machine => { machine with calls, pc := body }
  | .error error =>
    leaveStack frame.savedFloor
    throw error

/-- Enters the routine at a packed address. A call of address 0 does nothing but store a 0. -/
def callRoutine (packed : UInt16) (arguments : List UInt16) (storeVariable : UInt8) :
    Exec (Machine G S) Unit := do
  if packed = 0 then onStore (Store.write storeVariable 0)
  else
    let machine ← get
    let (values, body) ←
      .ofExcept (enterRoutine machine.image (unpackAddress packed) arguments)
    let frame ← .ofExcept (Frame.bind
      { returnPC := machine.pc, storeVariable, numLocals := 0, savedFloor := machine.stack.floor }
      values)
    openFrame frame body

/-- Leaves the running routine with a value. -/
def returnValue (value : UInt16) : Exec (Machine G S) Unit := do
  let machine ← get
  match machine.calls.top? with
  | none => set { machine with done := true }
  | some frame =>
    let stack ← .ofExcept (machine.stack.leave frame.savedFloor)
    set { machine with calls := machine.calls.pop, stack, pc := frame.returnPC }
    if frame.discardResult then return
    onStore (Store.write frame.storeVariable value)

/-! ## Branches -/

/-- When a branch is taken and how far it goes. -/
structure Branch where
  onTrue : Bool
  offset : Int
  deriving DecidableEq

/-- The offset in the low six bits of one byte and all bits of another, as a signed number of
fourteen bits. -/
def longOffset (first second : UInt8) : Int :=
  let high := if first &&& 0x20 = 0 then first &&& 0x3F else first &&& 0x3F ||| 0xC0
  (word high second).toInt16.toInt

def nextBranch : Exec (Machine G S) Branch := do
  let first ← nextByte
  let onTrue : Bool := first &&& 0x80 ≠ 0
  if first &&& 0x40 = 0 then
    let second ← nextByte
    return { onTrue, offset := longOffset first second }
  else return { onTrue, offset := (first &&& 0x3F).toNat }

/-- Reads the branch at the program counter and takes it if the condition is as it asks. -/
def branch (condition : Bool) : Exec (Machine G S) Unit := do
  let branch ← nextBranch
  if condition = branch.onTrue then
    if branch.offset = 0 then returnValue 0
    else if branch.offset = 1 then returnValue 1
    else jumpTo ((← get).pc.toNat + branch.offset - 2)

end StoryMachine.Machine
