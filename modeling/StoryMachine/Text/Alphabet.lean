import StoryMachine.Error

/-!
# Alphabets

Text is stored in codes of five bits. Codes 6 to 31 are letters of one of three alphabets, two of
which have to be shifted to. A character that no alphabet holds is written as its ten-bit code.
-/

namespace StoryMachine.Text

def space : UInt8 := 0x20

def newline : UInt8 := 0x0A

/-- The bytes of an ASCII text. -/
def ascii (text : String) : List UInt8 :=
  text.toList.map fun c => c.toNat.toUInt8

/-- The three rows of letters. -/
inductive Alphabet where
  | lower
  | upper
  | symbols
  deriving DecidableEq, Inhabited

namespace Alphabet

/-- The letters with codes 6 to 31. The first place of the symbols is never a letter: there, code 6
announces a ten-bit code. -/
def row : Alphabet → List UInt8
  | lower => ascii "abcdefghijklmnopqrstuvwxyz"
  | upper => ascii "ABCDEFGHIJKLMNOPQRSTUVWXYZ"
  | symbols => ascii " \n0123456789.,!?_#\x27\"/\\-:()"

/-- The letter with a code of 6 or more. A lower code wraps to a place far outside the row. -/
def letter (alphabet : Alphabet) (code : UInt8) : Except Error UInt8 :=
  match alphabet.row[(code - 6).toNat]? with
  | some letter => .ok letter
  | none => .error (.outsideTable .alphabet)

/-- The code of a letter, if the alphabet holds it. -/
def code? (alphabet : Alphabet) (letter : UInt8) : Option UInt8 :=
  match alphabet.row.idxOf? letter with
  | some 0 => if alphabet = symbols then none else some 6
  | some index => some (index.toUInt8 + 6)
  | none => none

end Alphabet

/-- The character that a ten-bit code prints as: itself in the range of ASCII, a line end for 13,
and a question mark for what has no printable equivalent. -/
def ofCode (code : UInt16) : UInt8 :=
  if code = 13 then newline
  else if 32 ≤ code ∧ code ≤ 126 then code.toUInt8
  else 0x3F

end StoryMachine.Text
