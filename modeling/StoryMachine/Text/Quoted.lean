import StoryMachine.Numeral
import StoryMachine.Text.Printable
import StoryMachine.Text.Utf8

/-!
# Quoted text

Messages show arbitrary bytes between double quotes. Printable characters stand for themselves,
quotes and backslashes are escaped, the usual control characters have short names, other bytes below
the blank and bytes that belong to no code point are written with two hexadecimal digits, and other
code points with four or eight.
-/

namespace StoryMachine.Text

/-- The lower-case hexadecimal digits of a number, filled up with zeros. -/
def hexLower (width n : Nat) : String :=
  let digits := Nat.toDigits 16 n
  String.ofList (List.replicate (width - digits.length) '0' ++ digits)

def controlName? : Nat → Option String
  | 7 => some "\\a"
  | 8 => some "\\b"
  | 9 => some "\\t"
  | 10 => some "\\n"
  | 11 => some "\\v"
  | 12 => some "\\f"
  | 13 => some "\\r"
  | _ => none

def quoteChar (unicode : Unicode) (c : Char) : String :=
  if c = '"' then "\\\""
  else if c = '\\' then "\\\\"
  else if isPrintable unicode c then String.singleton c
  else
    match controlName? c.toNat with
    | some name => name
    | none =>
      if c.toNat < 0x20 ∨ c.toNat = 0x7F then "\\x" ++ hexLower 2 c.toNat
      else if c.toNat < 0x10000 then "\\u" ++ hexLower 4 c.toNat
      else "\\U" ++ hexLower 8 c.toNat

/-- A byte string between double quotes. -/
def quote (unicode : Unicode) (bytes : List UInt8) : String :=
  let shown := (Utf8.pieces bytes).map fun
    | .scalar c => quoteChar unicode c
    | .invalid byte => "\\x" ++ hexLower 2 byte.toNat
  "\"" ++ String.join shown ++ "\""

end StoryMachine.Text
