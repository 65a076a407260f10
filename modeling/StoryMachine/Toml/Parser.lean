import StoryMachine.Toml.Datetime
import StoryMachine.Toml.Quotation
import StoryMachine.Toml.Statement

/-!
# Reading documents

`statements?` reads the text of a document. Line ends are single characters here. Each function
takes the text from where it starts and gives what it read together with the rest; those that repeat
or nest take a number of steps that is never less than the length of the text.
-/

namespace StoryMachine.Toml

/-! ## Blanks and comments -/

def skipBlanks (text : List Char) : List Char :=
  text.dropWhile isBlank

def skipComment (text : List Char) : List Char :=
  text.dropWhile (· != '\n')

/-- Drops blanks, line ends and comments. -/
def skipLines : Nat → List Char → List Char
  | 0, text => text
  | steps + 1, text =>
    match text.dropWhile isBlankOrLineEnd with
    | '#' :: rest => skipLines steps (skipComment rest)
    | rest => rest

/-- Drops the rest of a line that has no more than a comment. -/
def endLine? (text : List Char) : Option (List Char) :=
  match skipBlanks text with
  | [] => some []
  | '\n' :: rest => some rest
  | '#' :: rest => some (skipComment rest)
  | _ => none

/-! ## Keys -/

def isBare (c : Char) : Bool :=
  c.isAlphanum || c == '_' || c == '-'

def keyPart? (text : List Char) : Option (String × List Char) :=
  match text with
  | [] => none
  | c :: rest =>
    if c = '"' ∨ c = apostrophe then do
      let (part, rest) ← lineString c 0 rest
      return (String.ofList part, rest)
    else
      let (part, rest) := text.span isBare
      if part.isEmpty then none else some (String.ofList part, rest)

/-- A key: its parts with points between them, and blanks around those. -/
def key? : Nat → List Char → Option (Path × List Char)
  | 0, _ => none
  | steps + 1, text => do
    let (part, rest) ← keyPart? (skipBlanks text)
    match skipBlanks rest with
    | '.' :: rest =>
      let (parts, rest) ← key? steps rest
      return (part :: parts, rest)
    | rest => return ([part], rest)

/-! ## Values -/

def isLexemeChar (c : Char) : Bool :=
  isBare c || c == '+' || c == '.' || c == ':'

/-- The longest run of such characters. A date and a time of day with one blank between them are one
lexeme. -/
def lexeme (text : List Char) : List Char × List Char :=
  let (first, rest) := text.span isLexemeChar
  match rest with
  | ' ' :: c :: more =>
    if c.isDigit ∧ date? first == some [] then
      let (second, rest) := (c :: more).span isLexemeChar
      (first ++ ' ' :: second, rest)
    else (first, rest)
  | rest => (first, rest)

def literal? (lexeme : List Char) : Option Value :=
  if lexeme = "true".toList then some (.boolean true)
  else if lexeme = "false".toList then some (.boolean false)
  else
    match integer? lexeme with
    | some number => some (.integer number)
    | none =>
      if isFloat lexeme then some (.float (String.ofList lexeme))
      else if isDatetime lexeme then some (.datetime (String.ofList lexeme))
      else none

mutual

def value? : Nat → List Char → Option (Expr × List Char)
  | 0, _ => none
  | steps + 1, text =>
    match skipBlanks text with
    | [] => none
    | c :: rest =>
      if c = '[' then do
        let (elements, rest) ← elements? steps rest
        return (.array elements, rest)
      else if c = '\x7b' then do
        let (assignments, rest) ← assignments? steps rest
        return (.inlineTable assignments, rest)
      else if c = '"' ∨ c = apostrophe then do
        let (text, rest) ← quotation? c rest
        return (.literal (.string (String.ofList text)), rest)
      else do
        let (word, rest) := lexeme (c :: rest)
        return (.literal (← literal? word), rest)

/-- The elements of an array up to its closing bracket. A comma may follow the last one. -/
def elements? : Nat → List Char → Option (List Expr × List Char)
  | 0, _ => none
  | steps + 1, text =>
    match skipLines steps text with
    | ']' :: rest => some ([], rest)
    | text => do
      let (element, rest) ← value? steps text
      match skipLines steps rest with
      | ',' :: rest =>
        let (elements, rest) ← elements? steps rest
        return (element :: elements, rest)
      | ']' :: rest => return ([element], rest)
      | _ => none

/-- The assignments of an inline table up to its closing brace. A comma may follow the last one. -/
def assignments? : Nat → List Char → Option (List (Path × Expr) × List Char)
  | 0, _ => none
  | steps + 1, text =>
    match skipLines steps text with
    | '\x7d' :: rest => some ([], rest)
    | text => do
      let (assignment, rest) ← assignment? steps text
      match skipLines steps rest with
      | ',' :: rest =>
        let (assignments, rest) ← assignments? steps rest
        return (assignment :: assignments, rest)
      | '\x7d' :: rest => return ([assignment], rest)
      | _ => none

def assignment? : Nat → List Char → Option ((Path × Expr) × List Char)
  | 0, _ => none
  | steps + 1, text => do
    let (path, rest) ← key? steps text
    let (value, rest) ← value? steps (← expect? '=' rest)
    return ((path, value), rest)

end

/-! ## Documents -/

/-- A statement, without the end of its line. -/
def statement? (steps : Nat) : List Char → Option (Statement × List Char)
  | '[' :: '[' :: rest => do
    let (path, rest) ← key? steps rest
    return (.tableArray path, ← expect? ']' (← expect? ']' rest))
  | '[' :: rest => do
    let (path, rest) ← key? steps rest
    return (.table path, ← expect? ']' rest)
  | text => do
    let ((path, value), rest) ← assignment? steps text
    return (.assign path value, rest)

def statementsFrom? : Nat → List Char → Option (List Statement)
  | 0, _ => none
  | steps + 1, text =>
    match skipLines steps text with
    | [] => some []
    | text => do
      let (statement, rest) ← statement? steps text
      return statement :: (← statementsFrom? steps (← endLine? rest))

def statements? (text : List Char) : Option (List Statement) :=
  statementsFrom? (4 * text.length + 8) text

end StoryMachine.Toml
