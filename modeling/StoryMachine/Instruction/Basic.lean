import StoryMachine.Error

/-!
# Instructions

An `Instruction` is a decoded opcode with the values of its operands. The store and branch bytes
that follow the operands of some opcodes are not part of it.
-/

namespace StoryMachine

def maxOperands : Nat := 4

/-- A decoded instruction; only the first `numOperands` operand slots are in use. -/
structure Instruction where
  address : UInt32
  opcode : UInt8 := 0
  form : Form := .short
  count : OperandCount := .zero
  number : UInt8 := 0
  operands : Vector UInt16 maxOperands := Vector.replicate maxOperands 0
  numOperands : Nat := 0
  deriving DecidableEq

namespace Instruction

def arguments (instruction : Instruction) : List UInt16 :=
  instruction.operands.toList.take instruction.numOperands

/-- The values of the operands in use, once it is known that there are slots for them. -/
def checkArguments (instruction : Instruction) : Except Error (List UInt16) :=
  if instruction.numOperands ≤ maxOperands then .ok instruction.arguments
  else .error (.outsideTable .operands)

def addOperand (instruction : Instruction) (value : UInt16) : Except Error Instruction :=
  if h : instruction.numOperands < maxOperands then
    .ok { instruction with
      operands := instruction.operands.set instruction.numOperands value
      numOperands := instruction.numOperands + 1 }
  else .error (.outsideTable .operands)

/-! ## Names -/

/-- The mnemonics of a family in the order of the opcode numbers; an unassigned number is blank. -/
def mnemonics : OperandCount → List String
  | .zero =>
    ["rtrue", "rfalse", "print", "print_ret", "nop", "save", "restore", "restart", "ret_popped",
      "pop", "quit", "new_line", "show_status", "verify"]
  | .one =>
    ["jz", "get_sibling", "get_child", "get_parent", "get_prop_len", "inc", "dec", "print_addr",
      "call_1s", "remove_obj", "print_obj", "ret", "jump", "print_paddr", "load", "not"]
  | .two =>
    ["", "je", "jl", "jg", "dec_chk", "inc_chk", "jin", "test", "or", "and", "test_attr",
      "set_attr", "clear_attr", "store", "insert_obj", "loadw", "loadb", "get_prop",
      "get_prop_addr", "get_next_prop", "add", "sub", "mul", "div", "mod"]
  | .var =>
    ["call", "storew", "storeb", "put_prop", "sread", "print_char", "print_num", "random", "push",
      "pull", "split_window", "set_window", "", "", "", "", "", "", "", "output_stream",
      "input_stream", "sound_effect"]

def mnemonic (family : Option OperandCount) (number : UInt8) : String :=
  match family with
  | some count => (mnemonics count).getD number.toNat ""
  | none => ""

/-- One line of a listing: address, family and number, mnemonic, and operand values. -/
def listing (address : UInt32) (family : Option OperandCount) (number : UInt8)
    (arguments : List UInt16) : String :=
  let name := mnemonic family number
  let shown := arguments.map fun value => Numeral.decimal value.toNat
  "0x" ++ Numeral.hexPadded 5 address.toNat ++ " " ++ (family.map OperandCount.name).getD "?" ++
    ":" ++ Numeral.decimal number.toNat ++ " " ++ (if name = "" then "unknown" else name) ++
    " [" ++ " ".intercalate shown ++ "]"

def name (instruction : Instruction) : String :=
  mnemonic (some instruction.count) instruction.number

def render (instruction : Instruction) : String :=
  listing instruction.address (some instruction.count) instruction.number instruction.arguments

end Instruction

end StoryMachine
