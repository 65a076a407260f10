/-!
# Instruction forms and operand counts

An opcode byte comes in one of three forms, and belongs to one of four families by the number of
operands it takes. The family, with the opcode number, decides the operation.
-/

namespace StoryMachine

/-- How an instruction lays out its operands. -/
inductive Form where
  | short
  | long
  | var
  deriving DecidableEq, Inhabited

/-- The family of an instruction: no operand, one, two, or a variable number. -/
inductive OperandCount where
  | zero
  | one
  | two
  | var
  deriving DecidableEq, Inhabited

namespace Form

def ofIndex? : Nat → Option Form
  | 0 => some .short
  | 1 => some .long
  | 2 => some .var
  | _ => none

def name : Form → String
  | short => "short"
  | long => "long"
  | var => "variable"

end Form

namespace OperandCount

def ofIndex? : Nat → Option OperandCount
  | 0 => some .zero
  | 1 => some .one
  | 2 => some .two
  | 3 => some .var
  | _ => none

def name : OperandCount → String
  | zero => "0OP"
  | one => "1OP"
  | two => "2OP"
  | var => "VAR"

end OperandCount

end StoryMachine
