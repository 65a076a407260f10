import StoryMachine.Toml.Number

/-!
# Dates and times

A date, a time of day, or both, the latter with or without an offset from universal time. Every
field has a fixed number of digits; the seconds may be left out.
-/

namespace StoryMachine.Toml

/-- A number of exactly `width` decimal digits at the front of a text. -/
def field? (width : Nat) (text : List Char) : Option (Nat × List Char) := do
  let front := text.take width
  if front.length < width ∨ ¬ front.all Char.isDigit then none
  return (ofDigits 10 (front.map fun c => c.toNat - 48), text.drop width)

def expect? (c : Char) : List Char → Option (List Char)
  | first :: rest => if first = c then some rest else none
  | [] => none

def daysIn (year month : Nat) : Nat :=
  if month = 2 then
    if year % 4 = 0 ∧ (year % 100 ≠ 0 ∨ year % 400 = 0) then 29 else 28
  else if month = 4 ∨ month = 6 ∨ month = 9 ∨ month = 11 then 30
  else 31

def date? (text : List Char) : Option (List Char) := do
  let (year, text) ← field? 4 text
  let (month, text) ← field? 2 (← expect? '-' text)
  let (day, text) ← field? 2 (← expect? '-' text)
  if 1 ≤ month ∧ month ≤ 12 ∧ 1 ≤ day ∧ day ≤ daysIn year month then some text else none

def seconds? : List Char → Option (List Char)
  | ':' :: text => do
    let (second, text) ← field? 2 text
    if second ≥ 60 then none
    match text with
    | '.' :: c :: rest => if c.isDigit then some (rest.dropWhile Char.isDigit) else none
    | text => some text
  | text => some text

def time? (text : List Char) : Option (List Char) := do
  let (hour, text) ← field? 2 text
  let (minute, text) ← field? 2 (← expect? ':' text)
  if hour < 24 ∧ minute < 60 then seconds? text else none

/-- The text is an offset from universal time, or empty. -/
def isOffset : List Char → Bool
  | [] => true
  | ['Z'] => true
  | sign :: text =>
    let parts := do
      let (hours, text) ← field? 2 text
      let (minutes, text) ← field? 2 (← expect? ':' text)
      return text.isEmpty && hours ≤ 24 && minutes ≤ 60
    (sign == '+' || sign == '-') && parts.getD false

/-- A lexeme is a date, a time of day, or both around a `T`. -/
def isDatetime (lexeme : List Char) : Bool :=
  let text := lexeme.map fun c =>
    if c = 't' ∨ c = ' ' then 'T' else if c = 'z' then 'Z' else c
  match date? text with
  | some [] => true
  | some ('T' :: text) => ((time? text).map isOffset).getD false
  | some _ => false
  | none => time? text == some []

end StoryMachine.Toml
