import StoryMachine.Instruction.Basic
import StoryMachine.Store

/-!
# Decoding instructions

The opcode byte gives the form, the family and the number of an instruction. In long form, two of
its bits give the types of the two operands; in short form two bits give the type of the only one,
or that there is none; in variable form a byte of types follows, and the first omitted type ends
the list.

Operands are resolved from left to right as they are read, so an operand that names the stack pops
it. `Instruction.decode` gives the instruction as far as it could be decoded, and the address
behind its operands.
-/

namespace StoryMachine

/-- How an operand is given: as a word, as a byte, or as the number of a variable. -/
inductive OperandType where
  | large
  | small
  | var
  deriving DecidableEq

namespace OperandType

/-- The type in the two low bits, unless they say that the operand is omitted. -/
def ofBits? (bits : UInt8) : Option OperandType :=
  match bits &&& 0x3 with
  | 0 => some .large
  | 1 => some .small
  | 2 => some .var
  | _ => none

/-- The type that a single bit of a long opcode gives. -/
def ofBit (bit : UInt8) : OperandType :=
  if bit = 0 then .small else .var

/-- The types in a list of fields, up to the first omitted one. -/
def leading : List UInt8 → List OperandType
  | [] => []
  | bits :: rest =>
    match ofBits? bits with
    | some type => type :: leading rest
    | none => []

/-- The types in a byte, the high bits first. -/
def ofByte (byte : UInt8) : List OperandType :=
  leading [byte >>> 6, byte >>> 4, byte >>> 2, byte]

end OperandType

def Form.ofOpcode (opcode : UInt8) : Form :=
  if opcode < 0x80 then .long
  else if opcode < 0xC0 then .short
  else .var

def OperandCount.ofOpcode (opcode : UInt8) : OperandCount :=
  match Form.ofOpcode opcode with
  | .long => .two
  | .short => if (OperandType.ofBits? (opcode >>> 4)).isNone then .zero else .one
  | .var => if opcode &&& 0x20 = 0 then .two else .var

namespace Instruction

def numberOf (opcode : UInt8) : UInt8 :=
  match Form.ofOpcode opcode with
  | .short => opcode &&& 0x0F
  | _ => opcode &&& 0x1F

/-! ## The cursor -/

/-- A decoding in progress: the store, the next address to read, and what has been decoded. -/
structure Cursor where
  store : Store
  next : UInt32
  instruction : Instruction

namespace Cursor

/-- Reads a byte and moves behind it. -/
def byte : Exec Cursor UInt8 := do
  let value ← .query fun cursor => cursor.store.image.readByte cursor.next
  modify fun cursor => { cursor with next := cursor.next + 1 }
  return value

def word : Exec Cursor UInt16 := do
  let value ← .query fun cursor => cursor.store.image.readWord cursor.next
  modify fun cursor => { cursor with next := cursor.next + 2 }
  return value

def variableValue (number : UInt8) : Exec Cursor UInt16 :=
  (Store.read number).within Cursor.store fun cursor store => { cursor with store }

def operand : OperandType → Exec Cursor UInt16
  | .large => word
  | .small => return (← byte).toUInt16
  | .var => do variableValue (← byte)

def takeOperand (type : OperandType) : Exec Cursor Unit := do
  let value ← operand type
  .change fun cursor => return { cursor with instruction := ← cursor.instruction.addOperand value }

def operandTypes (opcode : UInt8) : Exec Cursor (List OperandType) :=
  match Form.ofOpcode opcode with
  | .long => return [.ofBit (opcode &&& 0x40), .ofBit (opcode &&& 0x20)]
  | .short => return (OperandType.ofBits? (opcode >>> 4)).toList
  | .var => return OperandType.ofByte (← byte)

def takeOperands : List OperandType → Exec Cursor Unit
  | [] => pure ()
  | type :: rest => do
    takeOperand type
    takeOperands rest

/-- Reads an instruction: its opcode, the types of its operands, and the operands. -/
def instructionHere : Exec Cursor Unit := do
  let opcode ← byte
  modify fun cursor =>
    { cursor with instruction := { cursor.instruction with
        opcode
        form := .ofOpcode opcode
        count := .ofOpcode opcode
        number := numberOf opcode } }
  takeOperands (← operandTypes opcode)

end Cursor

/-- A decoded instruction and the address behind its operands. On failure the instruction has the
operands before the one that failed, and the address is its own. -/
structure Decoded where
  instruction : Instruction
  next : UInt32
  failure : Option Error
  deriving DecidableEq

/-- Decodes the instruction at an address. The store loses the words that operands pop. -/
def decode (pc : UInt32) (store : Store) : Decoded × Store :=
  match Cursor.instructionHere.perform ⟨store, pc, { address := pc }⟩ with
  | (.ok (), cursor) => (⟨cursor.instruction, cursor.next, none⟩, cursor.store)
  | (.error error, cursor) => (⟨cursor.instruction, pc, some error⟩, cursor.store)

end Instruction

end StoryMachine
