import StoryMachine.Exec
import StoryMachine.Frame
import StoryMachine.Image
import StoryMachine.Stack

/-!
# Variables

A `Store` is everything that a story's variables live in: the image, the evaluation stack and the
call frames. Variable 0 is the top of the stack, 1 to 15 are the locals of the running routine and
16 to 255 the globals in dynamic memory.

* `read`, `write`: variable 0 pops and pushes;
* `peek`, `replace`: variable 0 is looked at and overwritten in place;
* `readGlobal`, `writeGlobal`: globals only.
-/

namespace StoryMachine

/-- The image, the evaluation stack and the call frames. -/
structure Store where
  image : Image
  stack : Stack
  calls : CallStack
  deriving DecidableEq

/-- The first variable number that names a global. -/
def firstGlobal : UInt8 := 0x10

namespace Store

/-! ## The parts -/

def changeImage (update : Image → Except Error Image) : Exec Store Unit :=
  .change fun store => return { store with image := ← update store.image }

def changeStack (update : Stack → Except Error Stack) : Exec Store Unit :=
  .change fun store => return { store with stack := ← update store.stack }

/-- A change of the running invocation's frame; without one it fails with `missing`. -/
def changeFrame (missing : Error) (update : Frame → Except Error Frame) : Exec Store Unit :=
  .change fun store =>
    match store.calls.top? with
    | some frame => return { store with calls := store.calls.replaceTop (← update frame) }
    | none => .error missing

def pop : Exec Store UInt16 := do
  let (value, stack) ← .query fun store => store.stack.pop
  modify fun store => { store with stack }
  return value

def push (value : UInt16) : Exec Store Unit :=
  changeStack (·.push value)

/-! ## Locals and globals -/

def readLocal (number : UInt8) : Exec Store UInt16 :=
  .query fun store =>
    match store.calls.top? with
    | some frame => frame.readLocal number.toNat
    | none => .error (.localReadOutside number)

def writeLocal (number : UInt8) (value : UInt16) : Exec Store Unit :=
  changeFrame (.localWrittenOutside number) (·.writeLocal number.toNat value)

def globalAddress (image : Image) (number : UInt8) : UInt32 :=
  image.header.globals + 2 * (number - firstGlobal).toUInt32

def readGlobal (number : UInt8) : Exec Store UInt16 :=
  if number < firstGlobal then throw (.notGlobal number)
  else .query fun store => store.image.readWord (globalAddress store.image number)

def writeGlobal (number : UInt8) (value : UInt16) : Exec Store Unit :=
  if number < firstGlobal then throw (.notGlobal number)
  else changeImage fun image => image.writeWord (globalAddress image number) value

/-! ## Variables by number -/

/-- The value of a variable; variable 0 is popped. -/
def read (number : UInt8) : Exec Store UInt16 :=
  if number = 0 then pop
  else if number < firstGlobal then readLocal number
  else readGlobal number

/-- Sets a variable; variable 0 is pushed. -/
def write (number : UInt8) (value : UInt16) : Exec Store Unit :=
  if number = 0 then push value
  else if number < firstGlobal then writeLocal number value
  else writeGlobal number value

/-- The value of a variable; the stack keeps variable 0. -/
def peek (number : UInt8) : Exec Store UInt16 :=
  if number = 0 then .query fun store => store.stack.peek
  else read number

/-- Sets a variable; variable 0 takes the place of the top of the stack. -/
def replace (number : UInt8) (value : UInt16) : Exec Store Unit :=
  if number = 0 then changeStack (·.replaceTop value)
  else write number value

/-- Adds to a variable in place and gives its new value. -/
def add (number : UInt8) (delta : UInt16) : Exec Store UInt16 := do
  let value := (← peek number) + delta
  replace number value
  return value

end Store

end StoryMachine
