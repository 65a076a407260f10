import StoryMachine.CommandLine

/-!
# The program

Runs a story on standard input and output. The machine starts without input; whenever it waits for a
line, what it has printed is shown, a line is read, and it goes on.
-/

namespace StoryMachine.Main

/-- The content of a file, if it can be read. -/
def content (path : String) : IO (Option (List UInt8)) := do
  try
    return some (← IO.FS.readBinFile path).toList
  catch _ => return none

/-- Shows what the machine has printed behind the first `shown` bytes, and counts it. -/
def showOutput (machine : Machine Dice Transcript) (shown : Nat) : IO Nat := do
  let written := (machine.sink.map Transcript.bytes).getD #[]
  let output ← IO.getStdout
  output.write ⟨written.extract shown written.size⟩
  output.flush
  return written.size

/-- Reads the bytes up to the next line end and with it. -/
partial def readLine (input : IO.FS.Stream) (line : Array UInt8) : IO (List UInt8) := do
  match (← input.read 1).toList with
  | [] => return line.toList
  | byte :: _ =>
    if byte = Text.newline then return (line.push byte).toList
    else readLine input (line.push byte)

/-- How many instructions are executed between looks at the output. -/
def slice : Nat := 10000

/-- Goes on with a run of which `executed` instructions are done. -/
partial def continueRun (prompt : Bool) (executed shown : Nat) (machine : Machine Dice Transcript) :
    IO (Machine.Outcome × Machine Dice Transcript) := do
  let budget := ((machine.limit? 0).map (· - executed)).getD slice
  let (outcome, machine) := machine.runFor (min budget slice)
  let executed := executed + outcome.executed
  let shown ← showOutput machine shown
  match outcome.failure with
  | some (.noLine _) =>
    if prompt then
      IO.print "\n> "
      (← IO.getStdout).flush
    let line ← readLine (← IO.getStdin) #[]
    if line.isEmpty then return (⟨executed, outcome.failure⟩, machine)
    continueRun prompt executed shown { machine with input := some (.ofBytes line) }
  | some failure => return (⟨executed, some failure⟩, machine)
  | none =>
    if machine.done ∨ budget ≤ slice ∧ (machine.limit? 0).isSome then
      return (⟨executed, none⟩, machine)
    else continueRun prompt executed shown machine

def sessionName (clock : Nat) : String :=
  let digits := Numeral.hexPadded 32 clock
  let part := fun start length => ((digits.drop start).take length).toString.toLower
  "-".intercalate [part 0 8, part 8 4, part 12 4, part 16 4, part 20 12]

def runStory (options : CommandLine.Options) (path : String) : IO UInt32 := do
  let story ← content path
  let config ← content options.config
  let file := fun name =>
    if name = path then story else if name = options.config then config else none
  let clock ← IO.monoNanosNow
  match CommandLine.prepare options path file (sessionName clock) (Dice.ofClock clock)
    .fifteen with
  | .error message =>
    IO.eprint (CommandLine.refusal message).errors
    return 1
  | .ok machine =>
    let prompt ← (← IO.getStdin).isTty
    let (outcome, machine) ← continueRun prompt 0 0 machine
    let (exit, errors) := CommandLine.conclusion outcome machine
    IO.eprint errors
    return exit.toUInt32

end StoryMachine.Main

def main (arguments : List String) : IO UInt32 :=
  match StoryMachine.CommandLine.parse? {} arguments with
  | some options =>
    match options.arguments with
    | [path] => StoryMachine.Main.runStory options path
    | _ => do
      IO.eprint StoryMachine.CommandLine.usage
      return 2
  | none => do
    IO.eprint StoryMachine.CommandLine.usage
    return 2
