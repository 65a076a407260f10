/-!
# UTF-8

`Utf8.pieces` cuts any byte string into code points and bytes that belong to none: a byte that does
not begin the shortest form of a code point is a piece of its own. A byte string is well formed if
no such byte is left.
-/

namespace StoryMachine.Utf8

/-- What stands for a byte that belongs to no code point. -/
def replacement : Char := Char.ofNat 0xFFFD

/-- A code point, or a byte that belongs to none. -/
inductive Piece where
  | scalar (c : Char)
  | invalid (byte : UInt8)
  deriving DecidableEq

/-- The six bits of a continuation byte. -/
def continuation? (byte : UInt8) : Option Nat :=
  if 0x80 ≤ byte ∧ byte ≤ 0xBF then some (byte.toNat - 0x80) else none

/-- The code point that a byte begins together with the bytes behind it, and how many of those
belong to it. Longer forms than needed, surrogates and numbers above the last code point are
none. -/
def first? (lead : UInt8) (rest : List UInt8) : Option (Char × Nat) := do
  let a := lead.toNat
  if a < 0x80 then return (Char.ofNat a, 0)
  else if a < 0xC2 then none
  else if a < 0xE0 then
    let b ← rest[0]? >>= continuation?
    return (Char.ofNat ((a - 0xC0) * 64 + b), 1)
  else if a < 0xF0 then
    let b ← rest[0]? >>= continuation?
    let c ← rest[1]? >>= continuation?
    let code := ((a - 0xE0) * 64 + b) * 64 + c
    if code < 0x800 ∨ (0xD800 ≤ code ∧ code < 0xE000) then none
    else return (Char.ofNat code, 2)
  else if a < 0xF5 then
    let b ← rest[0]? >>= continuation?
    let c ← rest[1]? >>= continuation?
    let d ← rest[2]? >>= continuation?
    let code := (((a - 0xF0) * 64 + b) * 64 + c) * 64 + d
    if code < 0x10000 ∨ 0x110000 ≤ code then none
    else return (Char.ofNat code, 3)
  else none

/-- The pieces behind the next `skip` bytes. -/
def piecesAfter : Nat → List UInt8 → List Piece
  | _, [] => []
  | skip + 1, _ :: rest => piecesAfter skip rest
  | 0, lead :: rest =>
    match first? lead rest with
    | some (c, more) => .scalar c :: piecesAfter more rest
    | none => .invalid lead :: piecesAfter 0 rest

def pieces (bytes : List UInt8) : List Piece :=
  piecesAfter 0 bytes

/-- The code points of a byte string, if it is well formed. -/
def decode? (bytes : List UInt8) : Option (List Char) :=
  (pieces bytes).mapM fun
    | .scalar c => some c
    | .invalid _ => none

def encode (text : List Char) : List UInt8 :=
  text.flatMap String.utf8EncodeChar

end StoryMachine.Utf8
