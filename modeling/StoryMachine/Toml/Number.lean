/-!
# Numbers

A lexeme that begins with a digit or a sign is an integer, a float or a date. Integers are decimal,
or hexadecimal, octal or binary behind a mark and then without a sign; underscores may stand between
digits, and a decimal number has no leading zero. An integer has to fit into 64 bits, and a float
must not exceed the largest double.
-/

namespace StoryMachine.Toml

/-- The value of a digit in bases up to sixteen. -/
def digit? (c : Char) : Option Nat :=
  if '0' ≤ c ∧ c ≤ '9' then some (c.toNat - 48)
  else if 'a' ≤ c ∧ c ≤ 'f' then some (c.toNat - 87)
  else if 'A' ≤ c ∧ c ≤ 'F' then some (c.toNat - 55)
  else none

/-- The digits of a base, without the underscores between them. `between` says that an underscore
may follow here. -/
def digitsFrom (base : Nat) (between : Bool) : List Char → Option (List Nat)
  | [] => if between then some [] else none
  | c :: rest =>
    if c = '_' then if between then digitsFrom base false rest else none
    else do
      let digit ← digit? c
      if digit < base then return digit :: (← digitsFrom base true rest) else none

def digits? (base : Nat) (text : List Char) : Option (List Nat) :=
  digitsFrom base false text

def ofDigits (base : Nat) (digits : List Nat) : Nat :=
  digits.foldl (fun number digit => number * base + digit) 0

def splitSign : List Char → Bool × List Char
  | '-' :: rest => (true, rest)
  | '+' :: rest => (false, rest)
  | text => (false, text)

/-- A decimal numeral has a leading zero that is not its only digit. -/
def leadingZero (digits : List Nat) : Bool :=
  digits.head? == some 0 && digits.length > 1

def fits (number : Int) : Bool :=
  -9223372036854775808 ≤ number && number ≤ 9223372036854775807

def basedInteger? (base : Nat) (text : List Char) : Option Int := do
  let number : Int := ofDigits base (← digits? base text)
  if fits number then some number else none

def decimalInteger? (text : List Char) : Option Int := do
  let (negative, text) := splitSign text
  let digits ← digits? 10 text
  if leadingZero digits then none
  let magnitude : Int := ofDigits 10 digits
  let number := if negative then -magnitude else magnitude
  if fits number then some number else none

def integer? : List Char → Option Int
  | '0' :: 'x' :: rest => basedInteger? 16 rest
  | '0' :: 'o' :: rest => basedInteger? 8 rest
  | '0' :: 'b' :: rest => basedInteger? 2 rest
  | text => decimalInteger? text

/-- The least number above the doubles: halfway from the largest one to the next power of two. -/
def floatBound : Nat := (1 <<< 1024) - (1 <<< 970)

/-- How many digits of a float are read at first. -/
def leadingDigits : Nat := 19

/-- How many digits of a float are read at most. -/
def maxDigits : Nat := 800

/-- The number `mantissa * 10 ^ exponent` is too large for a double. The mantissa has at most
`maxDigits` digits, so a number with as many of them behind the point is below 1. -/
def tooLarge (mantissa : Nat) (exponent : Int) : Bool :=
  if mantissa = 0 ∨ exponent ≤ -maxDigits then false
  else if exponent < 0 then mantissa ≥ floatBound * Nat.pow 10 (-exponent).toNat
  else if exponent < 310 then mantissa * Nat.pow 10 exponent.toNat ≥ floatBound
  else true

/-- The digits from the first that is not zero. -/
def significant (digits : List Nat) : List Nat :=
  digits.dropWhile (· == 0)

/-- How many of the first `limit` significant digits stand before the point; below 0, how many zeros
stand behind it. -/
def pointPlace (limit : Nat) (whole fraction : List Nat) : Int :=
  let before := (significant whole).length
  if before = 0 then -(fraction.takeWhile (· == 0)).length else min limit before

/-- The number with these digits before and behind the point, times a power of ten, is too large for
a double. Its first digits, with the place of the point among all of them, settle this unless the
bound lies between what they stand for and the next number of as many digits. Then `maxDigits` of
them decide, and further ones before the point are not counted. -/
def overflows (whole fraction : List Nat) (exponent : Int) : Bool :=
  let digits := significant (whole ++ fraction)
  let (leading, others) := digits.splitAt leadingDigits
  let scale := pointPlace digits.length whole fraction + exponent - leading.length
  let least := tooLarge (ofDigits 10 leading) scale
  if others.all (· == 0) ∨ least = tooLarge (ofDigits 10 leading + 1) scale then least
  else
    let digits := digits.take maxDigits
    tooLarge (ofDigits 10 digits)
      (pointPlace maxDigits whole fraction + exponent - digits.length)

/-- The magnitude of an exponent. Once it is 10000 or more, further digits count for nothing. -/
def magnitude (digits : List Nat) : Nat :=
  digits.foldl (fun number digit => if number < 10000 then number * 10 + digit else number) 0

/-- The exponent behind its mark, 0 if there is none. -/
def exponent? : List Char → Option Int
  | [] => some 0
  | _ :: text => do
    let (negative, text) := splitSign text
    let number : Int := magnitude (← digits? 10 text)
    return if negative then -number else number

/-- The fraction behind its point, none if there is none. -/
def fraction? : List Char → Option (List Nat)
  | [] => some []
  | _ :: text => digits? 10 text

/-- A lexeme is a float: digits, then a fraction or an exponent or both, or an infinity or no
number. -/
def isFloat (text : List Char) : Bool :=
  let (_, body) := splitSign text
  if body = ['i', 'n', 'f'] ∨ body = ['n', 'a', 'n'] then true
  else
    let isMark := fun c : Char => c == 'e' || c == 'E'
    let (number, exponent) := body.span (!isMark ·)
    let (whole, fraction) := number.span (· != '.')
    let parts := do
      let whole ← digits? 10 whole
      if leadingZero whole ∨ (fraction.isEmpty ∧ exponent.isEmpty) then none
      let fraction ← fraction? fraction
      let exponent ← exponent? exponent
      return !overflows whole fraction exponent
    parts.getD false

end StoryMachine.Toml
