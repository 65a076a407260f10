import StoryMachine.Instruction.Form
import StoryMachine.Numeral

/-!
# Failures

`Error` lists every cause for which loading or running a story can fail, `Error.kind?` sorts the
causes into the kinds that callers tell apart, and `Error.message` words them. A `Fault` is an error
together with the instruction that raised it.

`Error.outsideTable` stands apart: it is the outcome of an access whose index is outside a table
although no check has refused it. It belongs to no kind and never becomes a fault.
-/

namespace StoryMachine

inductive ErrorKind where
  | malformedHeader
  | outOfBounds
  | readOnlyViolation
  | stackUnderflow
  | stackOverflow
  | invalidLocal
  | abbreviationCycle
  | outputOverflow
  | unsupportedOpcode
  | noInput
  | invalidObject
  | divisionByZero
  deriving DecidableEq

namespace ErrorKind

/-- Every kind, in the order of the taxonomy. -/
def all : List ErrorKind :=
  [malformedHeader, outOfBounds, readOnlyViolation, stackUnderflow, stackOverflow, invalidLocal,
    abbreviationCycle, outputOverflow, unsupportedOpcode, noInput, invalidObject, divisionByZero]

def name : ErrorKind → String
  | malformedHeader => "MalformedHeader"
  | outOfBounds => "OutOfBounds"
  | readOnlyViolation => "ReadOnlyViolation"
  | stackUnderflow => "StackUnderflow"
  | stackOverflow => "StackOverflow"
  | invalidLocal => "InvalidLocal"
  | abbreviationCycle => "AbbreviationCycle"
  | outputOverflow => "OutputOverflow"
  | unsupportedOpcode => "UnsupportedOpcode"
  | noInput => "NoInput"
  | invalidObject => "InvalidObject"
  | divisionByZero => "DivisionByZero"

def ofName? (name : String) : Option ErrorKind :=
  all.find? (·.name == name)

def text : ErrorKind → String
  | malformedHeader => "malformed story header"
  | outOfBounds => "address out of bounds"
  | readOnlyViolation => "write to read-only memory"
  | stackUnderflow => "stack underflow"
  | stackOverflow => "stack overflow"
  | invalidLocal => "invalid local variable"
  | abbreviationCycle => "abbreviations nested too deep"
  | outputOverflow => "decoded text exceeds output limit"
  | unsupportedOpcode => "unsupported opcode"
  | noInput => "no input available"
  | invalidObject => "invalid object reference"
  | divisionByZero => "division by zero"

/-- A failure of this kind leaves the machine usable. -/
def recoverable : ErrorKind → Bool
  | noInput | abbreviationCycle | outputOverflow => true
  | _ => false

/-- The name of a kind, where a failure outside the taxonomy has none of its own. -/
def nameOf : Option ErrorKind → String
  | some kind => kind.name
  | none => "Unknown"

/-- A failure outside the taxonomy is not recoverable. -/
def recoverableOf : Option ErrorKind → Bool
  | some kind => kind.recoverable
  | none => false

end ErrorKind

/-- Why no line of input came. -/
inductive InputFailure where
  | noSource
  | endOfInput
  | tooLong
  deriving DecidableEq

def InputFailure.text : InputFailure → String
  | noSource => "no input source"
  | endOfInput => "EOF"
  | tooLong => "bufio.Scanner: token too long"

/-- The tables that execution indexes. -/
inductive Table where
  | image
  | operands
  | operations
  | alphabet
  | codes
  | locals
  | stack
  deriving DecidableEq

inductive Error where
  /-- A story file of `size` bytes cannot hold a header. -/
  | tooShort (size : Nat)
  | wrongVersion (version : UInt8)
  /-- The header's length is more than the file has, or cuts off bytes that are not zero. -/
  | wrongLength (declared actual : UInt32)
  | wrongStaticBase (address : UInt32)
  | readByte (address : UInt32)
  | readWord (address : UInt32)
  | readLong (address : UInt32)
  | jump (target : Int)
  | noBody (routine : UInt32)
  /-- The text buffer at `address` has room for no character. -/
  | noRoom (address : UInt32)
  | writeByte (address : UInt32)
  | writeWord (address : UInt32)
  | popEmpty
  | peekEmpty
  | replaceEmpty
  | stackFull (capacity : Nat)
  | callsFull (capacity : Nat)
  | noLocal (index : Int) (count : Nat)
  | localReadOutside (number : UInt8)
  | localWrittenOutside (number : UInt8)
  | notGlobal (number : UInt8)
  | tooManyLocals (routine : UInt32) (count : UInt8)
  | nestedTooDeep (abbreviation depth : Nat)
  | textTooLong
  | unsupported (count : OperandCount) (number : UInt8)
  | noLine (reason : InputFailure)
  | noObject (object : UInt16)
  | noAttribute (number : UInt16)
  | noProperty (property : UInt16)
  | lacksProperty (object property : UInt16)
  | zeroDivisor
  | sinkRefused (reason : String)
  /-- An access outside a table that no check has refused. -/
  | outsideTable (table : Table)
  deriving DecidableEq

namespace Error

/-- The kind of a cause; a refusal by the sink and an access outside a table have none. -/
def kind? : Error → Option ErrorKind
  | tooShort _ | wrongVersion _ | wrongLength _ _ | wrongStaticBase _ => some .malformedHeader
  | readByte _ | readWord _ | readLong _ | jump _ | noBody _ | noRoom _ => some .outOfBounds
  | writeByte _ | writeWord _ => some .readOnlyViolation
  | popEmpty | peekEmpty | replaceEmpty => some .stackUnderflow
  | stackFull _ | callsFull _ => some .stackOverflow
  | noLocal _ _ | localReadOutside _ | localWrittenOutside _ | notGlobal _ | tooManyLocals _ _ =>
    some .invalidLocal
  | nestedTooDeep _ _ => some .abbreviationCycle
  | textTooLong => some .outputOverflow
  | unsupported _ _ => some .unsupportedOpcode
  | noLine _ => some .noInput
  | noObject _ | noAttribute _ | noProperty _ | lacksProperty _ _ => some .invalidObject
  | zeroDivisor => some .divisionByZero
  | sinkRefused _ | outsideTable _ => none

/-- What a message says after the words of the kind, if anything. -/
def detail? : Error → Option String
  | tooShort size => some (Numeral.decimal size ++ " bytes is shorter than the header")
  | wrongVersion version =>
    some ("version " ++ Numeral.decimal version.toNat ++ ", only version 3 is supported")
  | wrongLength declared actual =>
    some ("header declares " ++ Numeral.decimal declared.toNat ++ " bytes, file has " ++
      Numeral.decimal actual.toNat)
  | wrongStaticBase address => some ("static memory base 0x" ++ Numeral.hex address.toNat)
  | readByte address => some ("read byte at 0x" ++ Numeral.hex address.toNat)
  | readWord address => some ("read word at 0x" ++ Numeral.hex address.toNat)
  | readLong address => some ("read 4 bytes at 0x" ++ Numeral.hex address.toNat)
  | jump target => some ("jump to 0x" ++ Numeral.hexSigned target)
  | noBody routine => some ("routine at 0x" ++ Numeral.hex routine.toNat ++ " has no body")
  | noRoom address =>
    some ("text buffer at 0x" ++ Numeral.hex address.toNat ++ " holds no characters")
  | writeByte address => some ("write byte at 0x" ++ Numeral.hex address.toNat)
  | writeWord address => some ("write word at 0x" ++ Numeral.hex address.toNat)
  | popEmpty => some "pop from empty stack"
  | peekEmpty => some "peek at empty stack"
  | replaceEmpty => some "replace top of empty stack"
  | stackFull capacity =>
    some ("evaluation stack full (" ++ Numeral.decimal capacity ++ " words)")
  | callsFull capacity => some ("call depth exceeds " ++ Numeral.decimal capacity)
  | noLocal index count =>
    some ("local " ++ Numeral.decimalSigned index ++ " of " ++ Numeral.decimal count)
  | localReadOutside v => some ("local " ++ Numeral.decimal v.toNat ++ " read outside a routine")
  | localWrittenOutside v =>
    some ("local " ++ Numeral.decimal v.toNat ++ " written outside a routine")
  | notGlobal v => some ("variable " ++ Numeral.decimal v.toNat ++ " is not a global")
  | tooManyLocals routine count =>
    some ("routine at 0x" ++ Numeral.hex routine.toNat ++ " declares " ++
      Numeral.decimal count.toNat ++ " locals")
  | nestedTooDeep abbreviation depth =>
    some ("abbreviation " ++ Numeral.decimal abbreviation ++ " at depth " ++ Numeral.decimal depth)
  | textTooLong => none
  | unsupported count number => some (count.name ++ ":" ++ Numeral.decimal number.toNat)
  | noLine reason => some reason.text
  | noObject object => some ("object " ++ Numeral.decimal object.toNat)
  | noAttribute number => some ("attribute " ++ Numeral.decimal number.toNat)
  | noProperty property => some ("property " ++ Numeral.decimal property.toNat)
  | lacksProperty object property =>
    some ("object " ++ Numeral.decimal object.toNat ++ " has no property " ++
      Numeral.decimal property.toNat)
  | zeroDivisor => none
  | sinkRefused _ => none
  | outsideTable _ => none

def headline : Error → String
  | sinkRefused reason => reason
  | outsideTable _ => "index outside a table"
  | error => (error.kind?.map ErrorKind.text).getD ""

/-- A headline, and the detail after a colon where there is one. -/
def compose (headline : String) : Option String → String
  | some detail => headline ++ ": " ++ detail
  | none => headline

def message (error : Error) : String :=
  compose error.headline error.detail?

def recoverable (error : Error) : Bool :=
  ErrorKind.recoverableOf error.kind?

end Error

/-- A fatal failure: the cause, and the address and opcode of the instruction that raised it. -/
structure Fault where
  session : String
  pc : UInt32
  opcode : UInt8
  cause : Error
  deriving DecidableEq

namespace Fault

def kind? (fault : Fault) : Option ErrorKind :=
  fault.cause.kind?

/-- The text of a fault of a kind at an instruction, around the text of its cause. -/
def compose (kind : Option ErrorKind) (pc : UInt32) (opcode : UInt8) (cause : String) : String :=
  "zmachine: " ++ ErrorKind.nameOf kind ++ " at pc=0x" ++ Numeral.hexPadded 5 pc.toNat ++
    " opcode=0x" ++ Numeral.hexPadded 2 opcode.toNat ++ ": " ++ cause

def message (fault : Fault) : String :=
  compose fault.kind? fault.pc fault.opcode fault.cause.message

end Fault

end StoryMachine
