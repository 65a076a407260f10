import StoryMachine.Error

/-!
# Call frames

A `Frame` is one invocation of a routine: where to go on when it returns, where its result goes,
and its local variables, numbered from 1. A `CallStack` is the invocations from the main routine's
callee to the running one.
-/

namespace StoryMachine

def maxLocals : Nat := 15

/-- One invocation of a routine. -/
structure Frame where
  returnPC : UInt32
  storeVariable : UInt8
  discardResult : Bool := false
  /-- The slots of the locals; only the first `numLocals` are in use. -/
  locals : Vector UInt16 maxLocals := Vector.replicate maxLocals 0
  numLocals : Nat
  savedFloor : Int := 0
  deriving DecidableEq

namespace Frame

def values (frame : Frame) : List UInt16 :=
  frame.locals.toList.take frame.numLocals

/-- Fills the first slots with the given values. A value without a slot is an access outside the
table. -/
def bind (frame : Frame) (values : List UInt16) : Except Error Frame :=
  if values.length ≤ maxLocals then
    .ok { frame with
      locals := Vector.ofFn fun i => values.getD i frame.locals[i]
      numLocals := values.length }
  else .error (.outsideTable .locals)

/-- The value of local `index`, counted from 1. -/
def readLocal (frame : Frame) (index : Int) : Except Error UInt16 :=
  if index < 1 ∨ index > frame.numLocals then .error (.noLocal index frame.numLocals)
  else if h : index.toNat - 1 < maxLocals then .ok frame.locals[index.toNat - 1]
  else .error (.outsideTable .locals)

def writeLocal (frame : Frame) (index : Int) (value : UInt16) : Except Error Frame :=
  if index < 1 ∨ index > frame.numLocals then .error (.noLocal index frame.numLocals)
  else if h : index.toNat - 1 < maxLocals then
    .ok { frame with locals := frame.locals.set (index.toNat - 1) value }
  else .error (.outsideTable .locals)

end Frame

/-- The active invocations, outermost first, and how many there may be. -/
structure CallStack where
  frames : Array Frame
  capacity : Nat
  deriving DecidableEq

namespace CallStack

def defaultCapacity : Nat := 64

/-- No invocation yet; a limit that is not positive stands for the default. -/
def empty (limit : Int) : CallStack where
  frames := #[]
  capacity := if limit ≤ 0 then defaultCapacity else limit.toNat

def depth (calls : CallStack) : Nat :=
  calls.frames.size

/-- The running invocation; none in the main routine. -/
def top? (calls : CallStack) : Option Frame :=
  calls.frames.back?

def push (calls : CallStack) (frame : Frame) : Except Error CallStack :=
  if calls.depth ≥ calls.capacity then .error (.callsFull calls.capacity)
  else .ok { calls with frames := calls.frames.push frame }

def pop (calls : CallStack) : CallStack :=
  { calls with frames := calls.frames.pop }

def replaceTop (calls : CallStack) (frame : Frame) : CallStack :=
  { calls with frames := calls.frames.pop.push frame }

def clear (calls : CallStack) : CallStack :=
  { calls with frames := #[] }

end CallStack

end StoryMachine
