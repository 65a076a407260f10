import StoryMachine.Machine.Step
import StoryMachine.Settings.File

/-!
# The command line

Running a story from the command line: the options, the machine that they and the files describe,
and what is reported when it stops. `CommandLine.run` puts these together for given files and input.
-/

namespace StoryMachine.CommandLine

structure Options where
  config : String := ""
  budget : Int := 0
  lenient : Bool := false
  shiftLock : Bool := false
  verbosity : Int := 0
  arguments : List String := []
  deriving DecidableEq

def usage : String :=
  "Usage: zrun [options] story.z3\n\n" ++
  "Runs a version 3 Z-machine story on stdin/stdout.\n\n" ++
  "Options:\n" ++
  "  -budget int\n    \tStop after this many instructions (0 = no limit)\n" ++
  "  -config string\n    \tTOML configuration file\n" ++
  "  -lenient\n    \tSkip unsupported opcodes instead of halting\n" ++
  "  -shift-lock\n    \tTreat Z-characters 4 and 5 as shift locks\n" ++
  "  -v int\n    \tLog verbosity (1 = info, 2 = debug)\n"

/-! ## Options -/

def truth? (text : String) : Option Bool :=
  if ["1", "t", "T", "TRUE", "true", "True"].contains text then some true
  else if ["0", "f", "F", "FALSE", "false", "False"].contains text then some false
  else none

def setSwitch? (options : Options) (name : String) (value : Bool) : Option Options :=
  match name with
  | "lenient" => some { options with lenient := value }
  | "shift-lock" => some { options with shiftLock := value }
  | _ => none

def setOption? (options : Options) (name value : String) : Option Options :=
  match name with
  | "config" => some { options with config := value }
  | "budget" => do return { options with budget := ← Toml.decimalInteger? value.toList }
  | "v" => do return { options with verbosity := ← Toml.decimalInteger? value.toList }
  | _ => do setSwitch? options name (← truth? value)

/-- The name of an option behind one or two dashes; none if the text is no option. -/
def optionText? (text : String) : Option (List Char) :=
  match text.toList with
  | '-' :: '-' :: name => some name
  | '-' :: c :: name => some (c :: name)
  | _ => none

def parse? (options : Options) : List String → Option Options
  | [] => some options
  | text :: rest =>
    match optionText? text with
    | none => some { options with arguments := text :: rest }
    | some [] => some { options with arguments := rest }
    | some name =>
      match name.span (· != '=') with
      | (name, _ :: value) => do
        parse? (← setOption? options (String.ofList name) (String.ofList value)) rest
      | (name, []) =>
        match setSwitch? options (String.ofList name) true, rest with
        | some options, rest => parse? options rest
        | none, value :: rest => do parse? (← setOption? options (String.ofList name) value) rest
        | none, [] => none

/-! ## Preparing and reporting -/

/-- The settings that the options give, over those of the configuration file. -/
def settings (options : Options) (file : String → Option (List UInt8)) :
    Except SettingsFailure Settings := do
  let base : Settings ←
    if options.config = "" then pure {} else Settings.load options.config (file options.config)
  let machine := base.machine
  return {
    machine := { machine with
      instructionBudget :=
        if options.budget > 0 then options.budget else machine.instructionBudget
      opcodePolicy := if options.lenient then .skipLenient else machine.opcodePolicy }
    text := { base.text with
      shiftMode := if options.shiftLock then .lock else base.text.shiftMode } }

/-- The image of the story at a path, or the message about it. -/
def loadStory (path : String) (file : String → Option (List UInt8)) : Except String Image :=
  match file path with
  | none => .error ("open " ++ path ++ ": no such file or directory")
  | some bytes => (Image.load bytes.toArray).mapError Error.message

/-- What is left of a run: the exit code, what the story printed, and what is said about it. -/
structure Report where
  exit : Nat
  output : List UInt8 := []
  errors : String := ""
  deriving DecidableEq

def refusal (message : String) : Report where
  exit := 1
  errors := "Error: " ++ message ++ "\n"

/-- What is said about a run that has stopped, and its exit code. The end of the input is a proper
end. -/
def conclusion {G S : Type} (outcome : Machine.Outcome) (machine : Machine G S) : Nat × String :=
  match outcome.failure with
  | none =>
    if machine.done then (0, "")
    else
      (0, "\nStopped after " ++ Numeral.decimal outcome.executed ++ " instructions at 0x" ++
        Numeral.hexPadded 5 machine.pc.toNat ++ "\n")
  | some (.noLine _) => (0, "")
  | some (.fault raised) => (1, "\n" ++ raised.message ++ "\nsession " ++ raised.session ++ "\n")
  | some failure => (1, "\n" ++ failure.message ++ "\n")

/-- The machine that the options and files describe, without input. -/
def prepare {G : Type} [Generator G] (options : Options) (path : String)
    (file : String → Option (List UInt8)) (session : String) (generator : G)
    (unicode : Text.Unicode) : Except String (Machine G Transcript) := do
  let settings ← (settings options file).mapError SettingsFailure.message
  let image ← loadStory path file
  return Machine.new image settings session none (some {}) generator unicode

/-- Runs a command line on files and input; `fuel` bounds a run without a budget. -/
def run {G : Type} [Generator G] (fuel : Nat) (arguments : List String)
    (file : String → Option (List UInt8)) (input : List UInt8) (session : String)
    (generator : G) (unicode : Text.Unicode) : Report :=
  match parse? {} arguments with
  | some options =>
    match options.arguments with
    | [path] =>
      match prepare options path file session generator unicode with
      | .error message => refusal message
      | .ok machine =>
        let machine := { machine with input := some (.ofBytes input) }
        let (outcome, machine) := machine.run fuel 0
        let (exit, errors) := conclusion outcome machine
        { exit, output := (machine.sink.map Sink.written).getD [], errors }
    | _ => { exit := 2, errors := usage }
  | none => { exit := 2, errors := usage }

end StoryMachine.CommandLine
