import StoryMachine.Error

/-!
# The evaluation stack

Words are pushed and popped at one end. The values below the `floor` belong to calling routines:
the running routine can neither pop nor replace them. `Stack.enter` raises the floor to the top of
the stack and `Stack.leave` puts the top back to the floor.

The stack is a row of cells, and the top is a place in it. A word that is popped or dropped stays in
its cell until another one is pushed there, so `leave` at a floor above the top brings the words of
the cells between back. A routine's floor is never above its top, and then `leave` only drops words.
-/

namespace StoryMachine

/-- The words on the stack, bottom first, with the capacity and the floor of the running routine. -/
structure Stack where
  values : Array UInt16
  /-- The cells above the top, nearest first. -/
  spare : List UInt16
  capacity : Nat
  floor : Int
  deriving DecidableEq

namespace Stack

def defaultCapacity : Nat := 1024

/-- The number of cells that an empty stack has. -/
def initialRoom : Nat := 64

/-- A stack of fewer words doubles its cells when they run out. -/
def doublingLimit : Nat := 512

/-- An empty stack for `limit` words; a limit that is not positive stands for the default. -/
def empty (limit : Int) : Stack where
  values := #[]
  spare := List.replicate initialRoom 0
  capacity := if limit ≤ 0 then defaultCapacity else limit.toNat
  floor := 0

/-- The number of words on the stack, the callers' among them. -/
def size (stack : Stack) : Nat :=
  stack.values.size

/-- The number of cells, those above the top among them. -/
def room (stack : Stack) : Nat :=
  stack.size + stack.spare.length

/-- The cells above the top after a push. A word that finds no cell makes new ones. There are twice as
many on a small stack; on a large one no more are counted on than the word takes. -/
def spareAfterPush (stack : Stack) : List UInt16 :=
  match stack.spare with
  | _ :: rest => rest
  | [] => if stack.size < doublingLimit then List.replicate (stack.size - 1) 0 else []

def push (stack : Stack) (value : UInt16) : Except Error Stack :=
  if stack.size ≥ stack.capacity then .error (.stackFull stack.capacity)
  else .ok { stack with values := stack.values.push value, spare := stack.spareAfterPush }

/-- The top word; `ifEmpty` if there is none above the floor. -/
def top (stack : Stack) (ifEmpty : Error) : Except Error UInt16 :=
  if stack.size ≤ stack.floor then .error ifEmpty
  else
    match stack.values.back? with
    | some value => .ok value
    | none => .error (.outsideTable .stack)

def pop (stack : Stack) : Except Error (UInt16 × Stack) := do
  let value ← stack.top .popEmpty
  return (value, { stack with values := stack.values.pop, spare := value :: stack.spare })

def peek (stack : Stack) : Except Error UInt16 :=
  stack.top .peekEmpty

def replaceTop (stack : Stack) (value : UInt16) : Except Error Stack := do
  let _ ← stack.top .replaceEmpty
  return { stack with values := stack.values.pop.push value }

/-- Moves the top to a height, whatever the cells hold. -/
def moveTop (stack : Stack) (height : Nat) : Stack :=
  let above := height - stack.size
  { stack with
    values := stack.values.extract 0 height ++ stack.spare.take above
    spare := (stack.values.extract height stack.size).toList ++ stack.spare.drop above }

/-- Starts a routine's region of the stack. The old floor is what `leave` needs to end it. -/
def enter (stack : Stack) : Stack :=
  { stack with floor := stack.size }

/-- Ends a routine's region: puts the top back to its floor and the caller's floor back. -/
def leave (stack : Stack) (saved : Int) : Except Error Stack :=
  if 0 ≤ stack.floor ∧ stack.floor ≤ stack.room then
    .ok { stack.moveTop stack.floor.toNat with floor := saved }
  else .error (.outsideTable .stack)

def clear (stack : Stack) : Stack :=
  { stack.moveTop 0 with floor := 0 }

end Stack

end StoryMachine
