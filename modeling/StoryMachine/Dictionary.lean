import StoryMachine.Image
import StoryMachine.Text.Key

/-!
# The dictionary

The dictionary begins with a list of separator characters, the size of an entry and the number of
entries; then come the entries, each of which begins with the key of a word. A negative number of
entries says that they are not sorted.

* `Dictionary.read`: the header, read from memory as it is at that moment;
* `Dictionary.find`: the address of a word's entry, by bisection or one entry after the other;
* `Dictionary.tokens`: the words of a line.
-/

namespace StoryMachine

structure Dictionary where
  separators : List UInt8
  entryLength : UInt32
  count : Nat
  sorted : Bool
  entries : UInt32
  deriving DecidableEq

/-- A word of a line and the index of its first byte. -/
structure Token where
  word : List UInt8
  start : Nat
  deriving DecidableEq

namespace Dictionary

def readBytes (image : Image) (address : UInt32) : Nat → Except Error (List UInt8)
  | 0 => .ok []
  | count + 1 => do
    let byte ← image.readByte address
    return byte :: (← readBytes image (address + 1) count)

def read (image : Image) : Except Error Dictionary := do
  let start := image.header.dictionary
  let separatorCount ← image.readByte start
  let separators ← readBytes image (start + 1) separatorCount.toNat
  let base := start + 1 + separatorCount.toUInt32
  let entryLength ← image.readByte base
  let count := (← image.readWord (base + 1)).toInt16.toInt
  return {
    separators
    entryLength := entryLength.toUInt32
    count := count.natAbs
    sorted := 0 ≤ count
    entries := base + 3 }

def entryAddress (dictionary : Dictionary) (index : Nat) : UInt32 :=
  dictionary.entries + index.toUInt32 * dictionary.entryLength

/-! ## Lookup -/

/-- Looks a key up in the `count` entries from `index` on. The answer is 0 if none has it. -/
def scan (image : Image) (dictionary : Dictionary) (key : UInt32) :
    Nat → Nat → Except Error UInt16
  | _, 0 => .ok 0
  | index, count + 1 => do
    let address := dictionary.entryAddress index
    if (← image.readLong address) = key then return address.toUInt16
    else scan image dictionary key (index + 1) count

def middle (low high : Nat) : Nat :=
  low + (high - 1 - low) / 2

/-- Looks a key up in the sorted entries from `low` on below `high`. The answer is 0 if none has
it. -/
def bisect (image : Image) (dictionary : Dictionary) (key : UInt32) (low high : Nat) :
    Except Error UInt16 :=
  if low < high then do
    let address := dictionary.entryAddress (middle low high)
    let found ← image.readLong address
    if key < found then bisect image dictionary key low (middle low high)
    else if key > found then bisect image dictionary key (middle low high + 1) high
    else return address.toUInt16
  else .ok 0
termination_by high - low
decreasing_by all_goals (simp only [middle]; omega)

/-- The address of the entry of a word, 0 if it has none. -/
def find (image : Image) (text : List UInt8) : Except Error UInt16 := do
  let dictionary ← read image
  let key ← Text.encodeKey text
  if dictionary.sorted then bisect image dictionary key 0 dictionary.count
  else scan image dictionary key 0 dictionary.count

/-! ## Words of a line -/

/-- The word that ends before an index, given its bytes from last to first; none if it is empty. -/
def closeWord (index : Nat) (reversed : List UInt8) : List Token :=
  if reversed.isEmpty then [] else [⟨reversed.reverse, index - reversed.length⟩]

/-- The words of the rest of a line, which begins at an index and continues an open word. -/
def tokensFrom (separators : List UInt8) : Nat → List UInt8 → List UInt8 → List Token
  | index, reversed, [] => closeWord index reversed
  | index, reversed, byte :: rest =>
    if byte = Text.space then
      closeWord index reversed ++ tokensFrom separators (index + 1) [] rest
    else if separators.contains byte then
      closeWord index reversed ++ ⟨[byte], index⟩ :: tokensFrom separators (index + 1) [] rest
    else tokensFrom separators (index + 1) (byte :: reversed) rest

/-- Splits a line at blanks; a separator is a word of its own. -/
def tokens (image : Image) (line : List UInt8) : Except Error (List Token) :=
  return tokensFrom (← read image).separators 0 [] line

end Dictionary

end StoryMachine
