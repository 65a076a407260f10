import StoryMachine.Error
import StoryMachine.Text.Alphabet

/-!
# Lines of input

A `LineSource` answers each request with the next line, and with the same failure forever once its
lines are used up.

* `LineSource.scan` : cuts a stream of bytes into lines, each without a carriage return at its end.
  A line is kept in a buffer of fixed size: one that fills it without an end fails, the filled buffer
  then counts as a line, and after it the stream is given up;
* `LineSource.ofBytes` : the same lines without any carriage returns at their ends.
-/

namespace StoryMachine

/-- The answers still to come, and the failure after them. -/
structure LineSource where
  replies : List (Except InputFailure (List UInt8))
  final : InputFailure := .endOfInput

namespace LineSource

def next (source : LineSource) : Except InputFailure (List UInt8) × LineSource :=
  match source.replies with
  | [] => (.error source.final, source)
  | reply :: replies => (reply, { source with replies })

def ofLines (lines : List (List UInt8)) : LineSource where
  replies := lines.map .ok

def bufferSize : Nat := 65536

def carriageReturn : UInt8 := 0x0D

/-- A line without one carriage return at its end. -/
def dropReturn (line : List UInt8) : List UInt8 :=
  if line.getLast? = some carriageReturn then line.dropLast else line

/-- A line without the carriage returns at its end. -/
def trim (line : List UInt8) : List UInt8 :=
  (line.reverse.dropWhile (· = carriageReturn)).reverse

/-- The lines of the rest of a stream, given what is in the buffer. An unfinished line at the end
counts if it is not empty. -/
def scan (buffer : Array UInt8) : List UInt8 → LineSource
  | [] =>
    if buffer.isEmpty then { replies := [] }
    else { replies := [.ok (dropReturn buffer.toList)] }
  | byte :: rest =>
    if byte = Text.newline then
      let source := scan #[] rest
      { source with replies := .ok (dropReturn buffer.toList) :: source.replies }
    else if buffer.size + 1 < bufferSize then scan (buffer.push byte) rest
    else
      { replies := [.error .tooLong, .ok (dropReturn (buffer.push byte).toList)], final := .tooLong }

/-- The lines of a stream of bytes, without the carriage returns at their ends. -/
def ofBytes (bytes : List UInt8) : LineSource :=
  let source := scan #[] bytes
  { source with replies := source.replies.map (·.map trim) }

end LineSource

end StoryMachine
