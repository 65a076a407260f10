import StoryMachine.Text.Alphabet

/-!
# Dictionary keys

A dictionary entry is found by the first six codes of its word, packed into two words of three
codes each. Shorter words are filled up with code 5; abbreviations are never used. The codes are
collected in a buffer that has room for more than six, as the last character may take more than are
left.
-/

namespace StoryMachine.Text

/-- The codes of one character: a letter of its own, a letter behind a shift, or a ten-bit code. -/
def codesOf (character : UInt8) : List UInt8 :=
  match Alphabet.lower.code? character with
  | some code => [code]
  | none =>
    match Alphabet.upper.code? character with
    | some code => [4, code]
    | none =>
      match Alphabet.symbols.code? character with
      | some code => [5, code]
      | none => [5, 6, character >>> 5, character &&& 0x1F]

def keyLength : Nat := 6

/-- The number of codes that the buffer for them has room for. -/
abbrev keyRoom : Nat := 12

structure KeyBuffer where
  cells : Vector UInt8 keyRoom := .replicate keyRoom 0
  used : Nat := 0

namespace KeyBuffer

def put (buffer : KeyBuffer) (code : UInt8) : Except Error KeyBuffer :=
  if h : buffer.used < keyRoom then
    .ok { cells := buffer.cells.set buffer.used code, used := buffer.used + 1 }
  else .error (.outsideTable .codes)

/-- Puts in the codes of a word until there are enough, or fills up with 5s. -/
def fill (buffer : KeyBuffer) : List UInt8 → Except Error KeyBuffer
  | [] => (List.replicate (keyLength - buffer.used) 5).foldlM put buffer
  | character :: rest =>
    if buffer.used < keyLength then do
      let buffer ← (codesOf character).foldlM put buffer
      buffer.fill rest
    else .ok buffer

end KeyBuffer

/-- Three codes in the low fifteen bits of a word, the first one highest. -/
def packCodes (a b c : UInt8) : UInt16 :=
  a.toUInt16 <<< 10 ||| b.toUInt16 <<< 5 ||| c.toUInt16

/-- The key of a word: its first six codes as two words, the second with the end bit. -/
def encodeKey (text : List UInt8) : Except Error UInt32 := do
  let ⟨cells, _⟩ ← KeyBuffer.fill {} text
  let first := packCodes cells[0] cells[1] cells[2]
  let second := packCodes cells[3] cells[4] cells[5] ||| 0x8000
  return first.toUInt32 <<< 16 ||| second.toUInt32

end StoryMachine.Text
