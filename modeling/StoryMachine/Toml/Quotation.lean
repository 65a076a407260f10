import StoryMachine.Toml.Number

/-!
# Quoted strings

Strings come between double quotes, with escapes, or between apostrophes, without; both on one line,
or between three marks on several. A string on several lines may end in up to two more marks, three
behind an escaped backslash, and in it a backslash at the end of a line joins that line with the
next word.
-/

namespace StoryMachine.Toml

/-- The mark of strings without escapes. -/
def apostrophe : Char := Char.ofNat 0x27

def isBlank (c : Char) : Bool :=
  c == ' ' || c == '\t'

def isBlankOrLineEnd (c : Char) : Bool :=
  isBlank c || c == '\n'

/-- The character of a code point; surrogates and numbers behind the last code point have none. -/
def scalar? (code : Nat) : Option Char :=
  if code.isValidChar then some (Char.ofNat code) else none

/-- The code point that the first `width` hexadecimal digits of a text stand for. -/
def hexScalar? (width : Nat) (text : List Char) : Option Char := do
  let digits ← (text.take width).mapM digit?
  if digits.length < width then none
  scalar? (ofDigits 16 digits)

/-- The character that an escape stands for, and how long the escape is behind its backslash. -/
def escape? : List Char → Option (Char × Nat)
  | [] => none
  | c :: rest =>
    match c with
    | 'b' => some (Char.ofNat 8, 1)
    | 't' => some ('\t', 1)
    | 'n' => some ('\n', 1)
    | 'f' => some (Char.ofNat 12, 1)
    | 'r' => some ('\r', 1)
    | 'e' => some (Char.ofNat 27, 1)
    | '"' => some ('"', 1)
    | '\\' => some ('\\', 1)
    | 'x' => (hexScalar? 2 rest).map (·, 3)
    | 'u' => (hexScalar? 4 rest).map (·, 5)
    | 'U' => (hexScalar? 8 rest).map (·, 9)
    | _ => none

/-- Reads a string up to its closing mark on the same line, behind the next `skip` characters. -/
def lineString (mark : Char) : Nat → List Char → Option (List Char × List Char)
  | _, [] => none
  | skip + 1, _ :: rest => lineString mark skip rest
  | 0, c :: rest =>
    if c = mark then some ([], rest)
    else if c = '\n' then none
    else if c = '\\' ∧ mark = '"' then do
      let (escaped, length) ← escape? rest
      let (text, rest) ← lineString mark length rest
      return (escaped :: text, rest)
    else do
      let (text, rest) ← lineString mark 0 rest
      return (c :: text, rest)

/-- The most marks that may stand together at the end of a string on several lines: the closing
three and two of the text, or three of the text behind an escaped backslash. -/
def longestEnd (afterBackslash : Bool) : Nat :=
  if afterBackslash then 6 else 5

/-- Reads a string up to its closing marks, behind the next `skip` characters. `afterBackslash` says
that the character before is an escaped backslash. -/
def blockString (mark : Char) (afterBackslash : Bool) :
    Nat → List Char → Option (List Char × List Char)
  | _, [] => none
  | skip + 1, _ :: rest => blockString mark afterBackslash skip rest
  | 0, c :: rest =>
    if c = mark then
      let more := (rest.takeWhile (· == mark)).length
      if more < 2 then do
        let (text, rest) ← blockString mark false 0 rest
        return (c :: text, rest)
      else if more < longestEnd afterBackslash then
        some (List.replicate (more - 2) mark, rest.drop more)
      else none
    else if c = '\\' ∧ mark = '"' then
      let blanks := rest.takeWhile isBlankOrLineEnd
      if blanks.contains '\n' then blockString mark false blanks.length rest
      else do
        let (escaped, length) ← escape? rest
        let (text, rest) ← blockString mark (rest.head? == some '\\') length rest
        return (escaped :: text, rest)
    else do
      let (text, rest) ← blockString mark false 0 rest
      return (c :: text, rest)

/-- Drops a line end right behind the opening marks. -/
def dropLineEnd : List Char → List Char
  | '\n' :: rest => rest
  | text => text

/-- Reads a string behind its first mark, on one line or on several. -/
def quotation? (mark : Char) (text : List Char) : Option (List Char × List Char) :=
  match text with
  | second :: third :: rest =>
    if second = mark ∧ third = mark then blockString mark false 0 (dropLineEnd rest)
    else lineString mark 0 text
  | text => lineString mark 0 text

end StoryMachine.Toml
