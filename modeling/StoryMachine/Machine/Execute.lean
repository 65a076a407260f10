import StoryMachine.InputBuffer
import StoryMachine.Machine.Operation
import StoryMachine.Machine.Print
import StoryMachine.Machine.Routine

/-!
# What the operations do

`Machine.operate` performs an operation on the operands of an instruction. Arithmetic is that of
signed words: it wraps, and division goes toward zero. An operation that stores a result or branches
reads the bytes for it behind its operands, so a failure before that leaves them unread.
-/

namespace StoryMachine.Machine

variable {G S : Type} [Generator G] [Sink S]

def nextLine : Exec (Machine G S) (List UInt8) := do
  let machine ← get
  match machine.input with
  | none => throw (.noLine .noSource)
  | some source =>
    let (reply, source) := source.next
    set { machine with input := some source }
    match reply with
    | .ok line => return line
    | .error reason => throw (.noLine reason)

def storeLine (line : List UInt8) (text parse : UInt32) : Exec (Machine G S) Unit := do
  onImage (InputBuffer.fill (← get).unicode line text parse)

/-- A random number from 1 to a positive range. A negative range seeds the generator and 0 renews
it; both give 0. -/
def draw (range : Int) : Exec (Machine G S) UInt16 := do
  let machine ← get
  if range > 0 then
    let (number, generator) := Generator.pick range.toNat machine.generator
    set { machine with generator }
    return number.toUInt16
  else
    let generator :=
      if range < 0 then Generator.seed (-range) machine.generator
      else Generator.renew machine.generator
    set { machine with generator }
    return 0

/-- A branch on a condition read off the image. -/
def branchOn (condition : Image → Except Error Bool) : Exec (Machine G S) Unit := do
  let holds ← .query fun machine => condition machine.image
  branch holds

def storeFrom (value : Image → Except Error UInt16) : Exec (Machine G S) Unit := do
  let result ← .query fun machine => value machine.image
  storeResult result

/-- The result read off the image, and a branch if it is not 0. -/
def storeAndBranch (value : Image → Except Error UInt16) : Exec (Machine G S) Unit := do
  let result ← .query fun machine => value machine.image
  storeResult result
  branch (result ≠ 0)

/-- Adds to the variable that an operand names. -/
def addTo (operand delta : UInt16) : Exec (Machine G S) UInt16 :=
  onStore (Store.add operand.toUInt8 delta)

def operate (operation : Operation) (instruction : Instruction) : Exec (Machine G S) Unit := do
  let a := instruction.operands[0]
  let b := instruction.operands[1]
  let c := instruction.operands[2]
  match operation with
  -- no operand
  | .returnTrue => returnValue 1
  | .returnFalse => returnValue 0
  | .print => printInline
  | .printReturn =>
    printInline
    print [Text.newline]
    returnValue 1
  | .nop => return
  | .save => branch false
  | .restore => branch false
  | .restart => modify restart
  | .returnPopped => returnValue (← onStore Store.pop)
  | .pop => discard (onStore Store.pop)
  | .quit => modify fun machine => { machine with done := true }
  | .newLine => print [Text.newline]
  | .showStatus => return
  | .verify => branchOn fun image => .ok (image.checksum = image.header.checksum)
  -- one operand
  | .jumpZero => branch (a = 0)
  | .getSibling => storeAndBranch (Object.sibling · a)
  | .getChild => storeAndBranch (Object.child · a)
  | .getParent => storeFrom (Object.parent · a)
  | .getPropertyLength => storeFrom (Object.propertyLength · a)
  | .increment => discard (addTo a 1)
  | .decrement => discard (addTo a (-1))
  | .printAddress => printString a.toUInt32
  | .printObject => printObject a
  | .returnOperand => returnValue a
  | .jump => jumpTo ((← get).pc.toNat + a.toInt16.toInt - 2)
  | .printPacked => printString (unpackAddress a)
  | .load => storeResult (← onStore (Store.peek a.toUInt8))
  | .not => storeResult (~~~ a)
  -- two operands
  | .jumpEqual => do
    let arguments ← .ofExcept instruction.checkArguments
    branch ((arguments.drop 1).contains a)
  | .jumpLess => branch (a.toInt16 < b.toInt16)
  | .jumpGreater => branch (a.toInt16 > b.toInt16)
  | .decrementCheck => do
    let value ← addTo a (-1)
    branch (value.toInt16 < b.toInt16)
  | .incrementCheck => do
    let value ← addTo a 1
    branch (value.toInt16 > b.toInt16)
  | .jumpIn => branchOn (Object.isInside · a b)
  | .test => branch (a &&& b = b)
  | .or => storeResult (a ||| b)
  | .and => storeResult (a &&& b)
  | .testAttribute => branchOn (Object.hasAttribute · a b)
  | .store => onStore (Store.replace a.toUInt8 b)
  | .loadWord => storeFrom fun image => image.readWord (a + b * 2).toUInt32
  | .loadByte => storeFrom fun image => return (← image.readByte (a + b).toUInt32).toUInt16
  | .getProperty => storeFrom (Object.propertyValue · a b)
  | .getPropertyAddress => storeFrom (Object.propertyAddress · a b)
  | .getNextProperty => storeFrom (Object.nextProperty · a b)
  | .add => storeResult (a + b)
  | .subtract => storeResult (a - b)
  | .multiply => storeResult (a * b)
  | .divide =>
    if b = 0 then throw .zeroDivisor
    storeResult (a.toInt16 / b.toInt16).toUInt16
  | .remainder =>
    if b = 0 then throw .zeroDivisor
    storeResult (a.toInt16 % b.toInt16).toUInt16
  -- any number of operands
  | .call => do
    let storeVariable ← nextByte
    match ← .ofExcept instruction.checkArguments with
    | [] => onStore (Store.write storeVariable 0)
    | packed :: arguments => callRoutine packed arguments storeVariable
  | .storeWord => onStore (Store.changeImage (·.writeWord (a + b * 2).toUInt32 c))
  | .storeByte => onStore (Store.changeImage (·.writeByte (a + b).toUInt32 c.toUInt8))
  | .readLine => do
    let line ← nextLine
    storeLine line a.toUInt32 b.toUInt32
  | .printChar => if a = 0 then return else print [Text.ofCode a]
  | .printNumber => print (Text.ascii (Numeral.decimalSigned a.toInt16.toInt))
  | .random => storeResult (← draw a.toInt16.toInt)
  | .push => onStore (Store.push a)
  | .pull => do
    let value ← onStore Store.pop
    onStore (Store.replace a.toUInt8 value)

end StoryMachine.Machine
