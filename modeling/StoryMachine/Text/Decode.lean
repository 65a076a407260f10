import StoryMachine.Exec
import StoryMachine.Image
import StoryMachine.Text.Alphabet

/-!
# Encoded text

A string in memory is a run of words, each of which holds three codes; the last word has its top
bit set. Codes 1 to 3 begin an abbreviation, which is another string, 4 and 5 shift the alphabet,
and code 6 of the symbols begins a ten-bit code.

* `codesAt`: the codes of the string at an address;
* `endOf`: the address behind it;
* `interpret`: the text that codes stand for, with abbreviations expanded by a given action;
* `decode`: the text at an address, with the nesting of abbreviations and its length limited.
-/

namespace StoryMachine.Text

/-- What codes 4 and 5 do: shift the next code only, or every code up to the next blank or
shift. -/
inductive ShiftMode where
  | single
  | lock
  deriving DecidableEq, Inhabited

structure Rules where
  /-- How deep abbreviations may nest. -/
  maxDepth : Int
  shift : ShiftMode
  deriving DecidableEq

def Rules.default : Rules where
  maxDepth := 3
  shift := .single

/-! ## Words of codes -/

/-- The last word of a string has its top bit set. -/
def endsString (word : UInt16) : Bool :=
  word &&& 0x8000 ≠ 0

def unpackCodes (word : UInt16) : List UInt8 :=
  [(word >>> 10 &&& 0x1F).toUInt8, (word >>> 5 &&& 0x1F).toUInt8, (word &&& 0x1F).toUInt8]

theorem lt_length_of_readWord {image : Image} {address : UInt32} {word : UInt16}
    (h : image.readWord address = .ok word) :
    address.toNat + 1 < image.length.toNat := by
  unfold Image.readWord at h
  split at h
  · contradiction
  · rename_i h'
    rw [not_or] at h'
    have h1 : address < image.length := UInt32.not_le.mp h'.1
    have h2 : address + 1 < image.length := UInt32.not_le.mp h'.2
    rw [UInt32.lt_iff_toNat_lt] at h1 h2
    rw [UInt32.toNat_add] at h2
    have h3 := image.length.toNat_lt
    simp at h2
    omega

def codesAt (image : Image) (address : UInt32) : Except Error (List UInt8) :=
  match _ : image.readWord address with
  | .error error => .error error
  | .ok word =>
    if endsString word then .ok (unpackCodes word)
    else return unpackCodes word ++ (← codesAt image (address + 2))
termination_by image.length.toNat + 2 - address.toNat
decreasing_by
  have := lt_length_of_readWord ‹_›
  have := image.length.toNat_lt
  rw [UInt32.toNat_add]
  simp
  omega

def endOf (image : Image) (address : UInt32) : Except Error UInt32 :=
  match _ : image.readWord address with
  | .error error => .error error
  | .ok word =>
    if endsString word then .ok (address + 2)
    else endOf image (address + 2)
termination_by image.length.toNat + 2 - address.toNat
decreasing_by
  have := lt_length_of_readWord ‹_›
  have := image.length.toNat_lt
  rw [UInt32.toNat_add]
  simp
  omega

/-! ## Interpretation -/

/-- The alphabet that codes are read in, and another one for the next code only. -/
structure Shift where
  current : Alphabet := .lower
  next : Option Alphabet := none
  deriving DecidableEq

namespace Shift

def alphabet (shift : Shift) : Alphabet :=
  shift.next.getD shift.current

/-- The state behind a printed code: a shift of one code is over. -/
def settle (shift : Shift) : Shift :=
  { shift with next := none }

/-- The state behind a shift code. -/
def apply (shift : Shift) (mode : ShiftMode) (alphabet : Alphabet) : Shift :=
  match mode with
  | .lock => { shift with current := alphabet }
  | .single => { shift with next := some alphabet }

end Shift

/-- Writes a character, unless the text already has `limit` of them. A limit that is not positive
is none. -/
def emit (limit : Int) (character : UInt8) : Exec (Array UInt8) Unit := do
  let text ← get
  if 0 < limit ∧ limit ≤ text.size then throw .textTooLong
  set (text.push character)

def abbreviationNumber (first second : UInt8) : Nat :=
  32 * (first.toNat - 1) + second.toNat

/-- Writes the text that codes stand for. Codes that begin an abbreviation or a ten-bit code and
break off there end the text. -/
def interpret (mode : ShiftMode) (limit : Int) (expand : Nat → Exec (Array UInt8) Unit) :
    Shift → List UInt8 → Exec (Array UInt8) Unit
  | _, [] => pure ()
  | shift, code :: rest =>
    if code = 0 then do
      emit limit space
      interpret mode limit expand {} rest
    else if code < 4 then
      match rest with
      | [] => pure ()
      | second :: rest => do
        expand (abbreviationNumber code second)
        interpret mode limit expand shift.settle rest
    else if code = 4 then interpret mode limit expand (shift.apply mode .upper) rest
    else if code = 5 then interpret mode limit expand (shift.apply mode .symbols) rest
    else if shift.alphabet = .symbols ∧ code = 6 then
      match rest with
      | high :: low :: rest => do
        emit limit (ofCode (high.toUInt16 <<< 5 ||| low.toUInt16))
        interpret mode limit expand shift.settle rest
      | _ => pure ()
    else do
      emit limit (← .ofExcept (shift.alphabet.letter code))
      interpret mode limit expand shift.settle rest

/-- Writes the text of an abbreviation, with `levels` more levels of nesting allowed. -/
def expand (image : Image) (rules : Rules) (limit : Int) : Nat → Nat → Exec (Array UInt8) Unit
  | 0, number => throw (.nestedTooDeep number (rules.maxDepth.toNat + 1))
  | levels + 1, number => do
    let entry := image.header.abbreviations + (2 * number).toUInt32
    let packed ← .ofExcept (image.readWord entry)
    let codes ← .ofExcept (codesAt image (unpackAddress packed))
    interpret rules.shift limit (expand image rules limit levels) {} codes

def write (image : Image) (rules : Rules) (limit : Int) (address : UInt32) :
    Exec (Array UInt8) Unit := do
  let codes ← .ofExcept (codesAt image address)
  interpret rules.shift limit (expand image rules limit rules.maxDepth.toNat) {} codes

/-- A decoded text, and the failure that cut it short. -/
structure Decoded where
  text : List UInt8
  failure : Option Error
  deriving DecidableEq

/-- Decodes the string at an address to at most `limit` characters, or any number if the limit is
not positive. -/
def decode (image : Image) (rules : Rules) (limit : Int) (address : UInt32) : Decoded :=
  match (write image rules limit address).perform #[] with
  | (.ok (), text) => ⟨text.toList, none⟩
  | (.error error, text) => ⟨text.toList, some error⟩

end StoryMachine.Text
