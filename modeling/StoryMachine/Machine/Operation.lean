import StoryMachine.Instruction.Basic

/-!
# Operations

The operations that the machine implements, and the tables that give one for a family and an opcode
number. An entry without an operation is an opcode that is unassigned or not implemented.
-/

namespace StoryMachine

inductive Operation where
  | returnTrue | returnFalse | print | printReturn | nop | save | restore | restart | returnPopped
  | pop | quit | newLine | showStatus | verify
  | jumpZero | getSibling | getChild | getParent | getPropertyLength | increment | decrement
  | printAddress | printObject | returnOperand | jump | printPacked | load | not
  | jumpEqual | jumpLess | jumpGreater | decrementCheck | incrementCheck | jumpIn | test | or | and
  | testAttribute | store | loadWord | loadByte | getProperty | getPropertyAddress
  | getNextProperty | add | subtract | multiply | divide | remainder
  | call | storeWord | storeByte | readLine | printChar | printNumber | random | push | pull
  deriving DecidableEq

namespace Operation

/-- The operations of a family in the order of their numbers. -/
def table : OperandCount → List (Option Operation)
  | .zero =>
    [some returnTrue, some returnFalse, some print, some printReturn, some nop, some save,
      some restore, some restart, some returnPopped, some pop, some quit, some newLine,
      some showStatus, some verify, none, none]
  | .one =>
    [some jumpZero, some getSibling, some getChild, some getParent, some getPropertyLength,
      some increment, some decrement, some printAddress, none, none, some printObject,
      some returnOperand, some jump, some printPacked, some load, some not]
  | .two =>
    [none, some jumpEqual, some jumpLess, some jumpGreater, some decrementCheck,
      some incrementCheck, some jumpIn, some test, some or, some and, some testAttribute, none,
      none, some store, none, some loadWord, some loadByte, some getProperty,
      some getPropertyAddress, some getNextProperty, some add, some subtract, some multiply,
      some divide, some remainder, none, none, none, none, none, none, none]
  | .var =>
    [some call, some storeWord, some storeByte, none, some readLine, some printChar,
      some printNumber, some random, some push, some pull, none, none, none, none, none, none,
      none, none, none, none, none, none, none, none, none, none, none, none, none, none, none,
      none]

def find (count : OperandCount) (number : UInt8) : Except Error (Option Operation) :=
  match (table count)[number.toNat]? with
  | some entry => .ok entry
  | none => .error (.outsideTable .operations)

end Operation

end StoryMachine
