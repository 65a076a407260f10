import StoryMachine.Dictionary
import StoryMachine.Exec
import StoryMachine.Text.Lowercase

/-!
# Input buffers

A story reads a line into two buffers. The first byte of the text buffer says how many bytes it has;
the line is stored behind it in lower case, cut to what fits, and ended by a zero. The first byte of
the parse buffer says how many words it takes; the second receives the number of words, and for each
word four bytes follow: the address of its dictionary entry, its length, and its position in the
text buffer.
-/

namespace StoryMachine.InputBuffer

def writeBytes (address : UInt32) : List UInt8 → Exec Image Unit
  | [] => pure ()
  | byte :: rest => do
    .change (·.writeByte address byte)
    writeBytes (address + 1) rest

/-- Stores a line in the text buffer and gives it back as stored. -/
def fillText (unicode : Text.Unicode) (line : List UInt8) (buffer : UInt32) :
    Exec Image (List UInt8) := do
  let size ← .query (·.readByte buffer)
  if size = 0 then throw (.noRoom buffer)
  let stored := (Text.lower unicode line).take (size.toNat - 1)
  writeBytes (buffer + 1) (stored ++ [0])
  return stored

/-- Stores words in the parse buffer from an address on. The dictionary is consulted anew for each
word, as the buffers may overlap it. -/
def writeTokens (address : UInt32) : List Token → Exec Image Unit
  | [] => pure ()
  | token :: rest => do
    let entry ← .query (Dictionary.find · token.word)
    .change (·.writeWord address entry)
    .change (·.writeByte (address + 2) token.word.length.toUInt8)
    .change (·.writeByte (address + 3) (token.start + 1).toUInt8)
    writeTokens (address + 4) rest

/-- Stores the words of a line in the parse buffer, as many as it takes. -/
def fillParse (line : List UInt8) (buffer : UInt32) : Exec Image Unit := do
  let tokens ← .query (Dictionary.tokens · line)
  let capacity ← .query (·.readByte buffer)
  let stored := tokens.take capacity.toNat
  .change (·.writeByte (buffer + 1) stored.length.toUInt8)
  writeTokens (buffer + 2) stored

/-- Stores a line of input in both buffers; a parse buffer at address 0 is left out. -/
def fill (unicode : Text.Unicode) (line : List UInt8) (text parse : UInt32) : Exec Image Unit := do
  let stored ← fillText unicode line text
  if parse = 0 then return
  fillParse stored parse

end StoryMachine.InputBuffer
