import StoryMachine.Text.Decode
import StoryMachine.Text.Quoted

/-!
# Settings

What a user can configure: the limits of the machine, what becomes of an opcode that is not
implemented, and how text is decoded. `Settings.validate` names the first setting that makes no
sense.
-/

namespace StoryMachine

/-- What executing an opcode that is not implemented does: halt the machine, or go on behind its
operands. -/
inductive OpcodePolicy where
  | fatal
  | skipLenient
  deriving DecidableEq, Inhabited

namespace OpcodePolicy

def name : OpcodePolicy → String
  | fatal => "fatal"
  | skipLenient => "skip-lenient"

/-- The policy that a word stands for; a blank one stands for the default. -/
def ofName? (name : List UInt8) : Option OpcodePolicy :=
  if name.isEmpty ∨ name = Text.ascii "fatal" then some .fatal
  else if name = Text.ascii "skip-lenient" then some .skipLenient
  else none

def unknownMessage (unicode : Text.Unicode) (name : List UInt8) : String :=
  "unknown opcode policy " ++ Text.quote unicode name

end OpcodePolicy

namespace Text.ShiftMode

def name : ShiftMode → String
  | single => "single"
  | lock => "lock"

/-- The mode that a word stands for; a blank one stands for the default. -/
def ofName? (name : List UInt8) : Option ShiftMode :=
  if name.isEmpty ∨ name = ascii "single" then some .single
  else if name = ascii "lock" then some .lock
  else none

def unknownMessage (unicode : Unicode) (name : List UInt8) : String :=
  "unknown shift mode " ++ quote unicode name

end Text.ShiftMode

structure MachineSettings where
  maxCallDepth : Int := 64
  maxStack : Int := 1024
  /-- How many instructions a run may execute; 0 is no limit. -/
  instructionBudget : Int := 0
  opcodePolicy : OpcodePolicy := .fatal
  /-- The seed of the random generator; 0 leaves it to the clock. -/
  randomSeed : Int := 0
  deriving DecidableEq

structure TextSettings where
  maxAbbreviationDepth : Int := 3
  /-- How many characters of a string are printed; 0 is no limit. -/
  maxStringLength : Int := 4096
  shiftMode : Text.ShiftMode := .single
  deriving DecidableEq

/-- The rules that the settings give to the text decoder. A depth that is not positive stands for
the default. -/
def TextSettings.rules (settings : TextSettings) : Text.Rules where
  maxDepth :=
    if settings.maxAbbreviationDepth > 0 then settings.maxAbbreviationDepth
    else Text.Rules.default.maxDepth
  shift := settings.shiftMode

structure Settings where
  machine : MachineSettings := {}
  text : TextSettings := {}
  deriving DecidableEq

inductive SettingsError where
  | callDepth (value : Int)
  | stack (value : Int)
  | budget
  | abbreviationDepth (value : Int)
  | stringLength
  deriving DecidableEq

def SettingsError.message : SettingsError → String
  | callDepth value => "max-call-depth must be at least 1, got " ++ Numeral.decimalSigned value
  | stack value => "max-stack must be at least 1, got " ++ Numeral.decimalSigned value
  | budget => "instruction-budget cannot be negative"
  | abbreviationDepth value =>
    "max-abbreviation-depth must be at least 1, got " ++ Numeral.decimalSigned value
  | stringLength => "max-string-length cannot be negative"

/-- Accepts the settings, or complains about the first that makes no sense. -/
def Settings.validate (settings : Settings) : Except SettingsError Unit := do
  if settings.machine.maxCallDepth < 1 then throw (.callDepth settings.machine.maxCallDepth)
  if settings.machine.maxStack < 1 then throw (.stack settings.machine.maxStack)
  if settings.machine.instructionBudget < 0 then throw .budget
  if settings.text.maxAbbreviationDepth < 1 then
    throw (.abbreviationDepth settings.text.maxAbbreviationDepth)
  if settings.text.maxStringLength < 0 then throw .stringLength

end StoryMachine
