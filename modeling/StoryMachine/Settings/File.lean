import StoryMachine.Settings.Basic
import StoryMachine.Toml.Document

/-!
# Settings files

Settings are read from the tables `machine` and `text` of a TOML document, over the defaults. Keys
match exactly or else without regard to case; unknown ones are ignored. The result is validated.
-/

namespace StoryMachine

/-- Why there are no settings. -/
inductive SettingsFailure where
  /-- The document cannot be read, or a setting has a value of the wrong type. -/
  | malformed
  | invalid (error : SettingsError)
  | missing (path : String)
  | inFile (path : String) (failure : SettingsFailure)
  deriving DecidableEq

def SettingsFailure.message : SettingsFailure → String
  | malformed => "parse error"
  | invalid error => error.message
  | missing path => "cannot read " ++ path ++ ": open " ++ path ++ ": no such file or directory"
  | inFile path failure => path ++ ": " ++ failure.message

namespace Settings

open Toml (Value Entries)

/-- A character without regard to case. The long s and the Kelvin sign are cases of s and k. -/
def foldCase (c : Char) : Char :=
  if c.toNat = 0x17F then 's'
  else if c.toNat = 0x212A then 'k'
  else c.toLower

/-- A key names a setting, exactly or without regard to case. -/
def named (name key : String) : Bool :=
  key.toList.map foldCase == name.toList

def integer? : Value → Option Int
  | .integer number => some number
  | _ => none

/-- The value as the word for a choice. -/
def choice? {α : Type} (ofName? : List UInt8 → Option α) : Value → Option α
  | .string text => ofName? (Utf8.encode text.toList)
  | _ => none

def table? : Value → Option Entries
  | .table entries => some entries
  | _ => none

def applyMachine (settings : MachineSettings) (entry : String × Value) :
    Option MachineSettings := do
  let (key, value) := entry
  if named "max-call-depth" key then return { settings with maxCallDepth := ← integer? value }
  else if named "max-stack" key then return { settings with maxStack := ← integer? value }
  else if named "instruction-budget" key then
    return { settings with instructionBudget := ← integer? value }
  else if named "unknown-opcode-policy" key then
    return { settings with opcodePolicy := ← choice? OpcodePolicy.ofName? value }
  else if named "random-seed" key then return { settings with randomSeed := ← integer? value }
  else return settings

def applyText (settings : TextSettings) (entry : String × Value) : Option TextSettings := do
  let (key, value) := entry
  if named "max-abbreviation-depth" key then
    return { settings with maxAbbreviationDepth := ← integer? value }
  else if named "max-string-length" key then
    return { settings with maxStringLength := ← integer? value }
  else if named "shift-mode" key then
    return { settings with shiftMode := ← choice? Text.ShiftMode.ofName? value }
  else return settings

def apply (settings : Settings) (entry : String × Value) : Option Settings := do
  let (key, value) := entry
  if named "machine" key then
    return { settings with machine := ← (← table? value).foldlM applyMachine settings.machine }
  else if named "text" key then
    return { settings with text := ← (← table? value).foldlM applyText settings.text }
  else return settings

/-- The settings of a document, before they are validated. -/
def ofDocument? (bytes : List UInt8) : Option Settings := do
  (← Toml.parse? bytes).foldlM apply {}

def parse (bytes : List UInt8) : Except SettingsFailure Settings :=
  match ofDocument? bytes with
  | none => .error .malformed
  | some settings =>
    match settings.validate with
    | .ok () => .ok settings
    | .error error => .error (.invalid error)

/-- The settings of the file at a path, given its content if it exists. -/
def load (path : String) (content : Option (List UInt8)) : Except SettingsFailure Settings :=
  match content with
  | none => .error (.missing path)
  | some bytes => (parse bytes).mapError (.inFile path)

end Settings

end StoryMachine
