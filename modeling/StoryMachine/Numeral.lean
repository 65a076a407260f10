/-!
# Numerals in messages

Addresses and opcodes are written in upper-case hexadecimal, some of them padded with zeros to a
least width; a negative address keeps its sign between the `0x` mark and the digits. Signed words
are written in decimal.
-/

namespace StoryMachine.Numeral

def hex (n : Nat) : String :=
  String.ofList ((Nat.toDigits 16 n).map Char.toUpper)

/-- The hexadecimal digits of `n`, with leading zeros up to `width` digits. -/
def hexPadded (width n : Nat) : String :=
  let digits := (Nat.toDigits 16 n).map Char.toUpper
  String.ofList (List.replicate (width - digits.length) '0' ++ digits)

/-- The hexadecimal digits of the magnitude, after a minus sign where there is one. -/
def hexSigned : Int → String
  | .ofNat n => hex n
  | .negSucc n => "-" ++ hex (n + 1)

def decimal (n : Nat) : String :=
  String.ofList (Nat.toDigits 10 n)

/-- The decimal digits of the magnitude, after a minus sign where there is one. -/
def decimalSigned : Int → String
  | .ofNat n => decimal n
  | .negSucc n => "-" ++ decimal (n + 1)

end StoryMachine.Numeral
