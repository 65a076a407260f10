/-!
# Values and tables

A `Value` is what a key of a TOML document stands for. Floats and dates keep their text only. Tables
are lists of entries in the order of their appearance; an array of tables, which headers add to, is
told apart from an array that is written as a value.
-/

namespace StoryMachine.Toml

inductive Value where
  | string (text : String)
  | integer (number : Int)
  | float (lexeme : String)
  | boolean (truth : Bool)
  | datetime (lexeme : String)
  | array (elements : List Value)
  | table (entries : List (String × Value))
  /-- An array of tables, the last one first. -/
  | tables (elements : List (List (String × Value)))

abbrev Entries : Type :=
  List (String × Value)

/-- A key with all its parts, the outermost first. -/
abbrev Path : Type :=
  List String

namespace Entries

def get? (entries : Entries) (key : String) : Option Value :=
  entries.lookup key

/-- Sets the value of a key, in its old place if it has one. -/
def put (entries : Entries) (key : String) (value : Value) : Entries :=
  if entries.any (·.1 == key) then
    entries.map fun entry => if entry.1 == key then (key, value) else entry
  else entries ++ [(key, value)]

/-- The table at a path, with the last element for an array of tables. -/
def at? : Path → Entries → Option Entries
  | [], entries => some entries
  | key :: path, entries =>
    match entries.get? key with
    | some (.table inner) => at? path inner
    | some (.tables (last :: _)) => at? path last
    | _ => none

/-- Changes the table at a path. A path goes through tables and through the last element of an
array of tables; anything else on the way makes it fail. -/
def alter (update : Entries → Option Entries) : Path → Entries → Option Entries
  | [], entries => update entries
  | key :: path, entries =>
    match entries.get? key with
    | some (.table inner) => do
      let inner ← alter update path inner
      return entries.put key (.table inner)
    | some (.tables (last :: elements)) => do
      let last ← alter update path last
      return entries.put key (.tables (last :: elements))
    | _ => none

end Entries

end StoryMachine.Toml
