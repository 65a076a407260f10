import Std.Data.HashSet
import StoryMachine.Text.Utf8
import StoryMachine.Toml.Parser

/-!
# Building documents

`Document` is a document under construction. A table that only the path of another key has brought
about is implicit: it may still be defined, once, by a header or a value of its own. Any other
second definition of a key is refused. An inline table is built in place, as if it were a table of
its own, and is complete once its key has been defined.
-/

namespace StoryMachine.Toml

/-- The tables so far, the table that keys now go into, the paths that are implicit, and the paths
whose values were written as arrays. -/
structure Document where
  root : Entries := []
  context : Path := []
  implicits : Std.HashSet Path := {}
  arrays : Std.HashSet Path := {}

abbrev Build (α : Type) : Type :=
  StateT Document Option α

namespace Document

def declareImplicit (path : Path) : Build Unit :=
  modify fun document => { document with implicits := document.implicits.insert path }

/-- The path under which the value of a key is noted. What an empty key holds is noted for the table
that it is in, unless that is the root. -/
def notePath (context : Path) (key : String) : Path :=
  if key.isEmpty ∧ ¬ context.isEmpty then context else context ++ [key]

def noteArray (key : String) (isArray : Bool) : Build Unit :=
  modify fun document =>
    let path := notePath document.context key
    { document with
      arrays := if isArray then document.arrays.insert path else document.arrays.erase path }

def enter (path : Path) : Build Unit :=
  modify fun document => { document with context := path }

def alterRoot (update : Entries → Option Entries) (path : Path) : Build Unit := do
  let document ← get
  let root ← document.root.alter update path
  set { document with root }

/-- Gives a key of the current table its value. A key that has one must be implicit; its table
stays, unless the value is an array that takes the place of the tables in it. -/
def define (key : String) (value : Value) : Build Unit := do
  let document ← get
  let path := document.context ++ [key]
  let entries ← document.root.at? document.context
  if (entries.get? key).isNone then
    alterRoot (fun entries => some (entries.put key value)) document.context
  else if document.implicits.contains path then
    set { document with implicits := document.implicits.erase path }
    if document.arrays.contains path then
      alterRoot (fun entries => some (entries.put key value)) document.context
  else failure

/-- Makes sure that a table has a table for a key, and says so if it was missing. -/
def ensureTable (parent : Path) (key : String) : Build Unit := do
  let entries ← (← get).root.at? parent
  if (entries.get? key).isNone then
    declareImplicit (parent ++ [key])
    alterRoot (fun entries => some (entries.put key (.table []))) parent

/-- Makes sure that there is a table for each key of a path below a parent. -/
def ensureTables (parent : Path) : Path → Build Unit
  | [] => pure ()
  | key :: path => do
    ensureTable parent key
    ensureTables (parent ++ [key]) path

/-- Adds a table to the array of tables of a key, which is new or one already. -/
def addElement (key : String) (entries : Entries) : Option Entries :=
  match entries.get? key with
  | none => some (entries.put key (.tables [[]]))
  | some (.tables elements) => some (entries.put key (.tables ([] :: elements)))
  | some _ => none

/-- Opens the table at a path, or a new element of the array of tables there, and goes on in it. -/
def openTable (path : Path) (inArray : Bool) : Build Unit := do
  let parent := path.dropLast
  let key ← path.getLast?
  if ((← get).root.at? parent).isNone then ensureTables [] parent
  enter parent
  if inArray then alterRoot (addElement key) parent
  else define key (.table [])
  enter path

/-- Goes into the tables that a dotted key leads through, each of which it may bring about. -/
def descend : Path → Build Unit
  | [] => pure ()
  | key :: path => do
    let inner := (← get).context ++ [key]
    declareImplicit inner
    openTable inner false
    descend path

/-- Sets a key with several parts in the entries of an inline table. -/
def putAt (value : Value) : Path → String → Entries → Option Entries
  | [], key, entries => some (entries.put key value)
  | first :: path, key, entries =>
    match entries.get? first with
    | none => do return entries.put first (.table (← putAt value path key []))
    | some (.table inner) => do return entries.put first (.table (← putAt value path key inner))
    | some _ => none

/-! ## Values and statements -/

def isArray : Value → Bool
  | .array _ => true
  | _ => false

/-- Performs an assignment to a key with one or more parts, and leaves the table of its last part
open. -/
def assign (keys : Path) (evaluate : String → Build Value) : Build (String × Value) := do
  let last ← keys.getLast?
  descend keys.dropLast
  let result ← evaluate last
  define last result
  noteArray last (isArray result)
  return (last, result)

mutual

def evaluate (key : String) (inArray : Bool) : Expr → Build Value
  | .literal value => return value
  | .array elements => do
    noteArray key true
    return .array (← evaluateAll key elements)
  | .inlineTable assignments => do
    let outer := (← get).context
    declareImplicit (outer ++ [key])
    openTable (outer ++ [key]) inArray
    let entries ← assignAll (outer ++ [key]) [] assignments
    enter outer
    return .table entries

def evaluateAll (key : String) : List Expr → Build (List Value)
  | [] => return []
  | element :: elements => do
    let value ← evaluate key true element
    return value :: (← evaluateAll key elements)

/-- Performs the assignments of an inline table at a path, and collects its entries. -/
def assignAll (path : Path) (entries : Entries) : List (Path × Expr) → Build Entries
  | [] => return entries
  | (keys, value) :: assignments => do
    let (last, result) ← assign keys fun last => evaluate last false value
    let entries ← putAt result keys.dropLast last entries
    enter path
    assignAll path entries assignments

end

def perform : Statement → Build Unit
  | .table path => do
    openTable path false
    noteArray "" false
  | .tableArray path => do
    openTable path true
    noteArray "" false
  | .assign path value => do
    let outer := (← get).context
    discard (assign path fun last => evaluate last false value)
    enter outer

def performAll : List Statement → Build Unit
  | [] => pure ()
  | statement :: statements => do
    perform statement
    performAll statements

end Document

def build? (statements : List Statement) : Option Entries := do
  let ((), document) ← (Document.performAll statements).run {}
  return document.root

/-! ## Text -/

/-- The bytes behind a mark of the byte order, which some editors put in front of a text. -/
def skipMark : List UInt8 → List UInt8
  | 0xEF :: 0xBB :: 0xBF :: rest => rest
  | 0xFF :: 0xFE :: rest => rest
  | 0xFE :: 0xFF :: rest => rest
  | bytes => bytes

/-- A text with every line end a single character. Carriage returns may only stand before line
feeds, and of the other control characters only the tab may occur. -/
def plainText? : List Char → Option (List Char)
  | [] => some []
  | '\r' :: rest =>
    match rest with
    | '\n' :: _ => plainText? rest
    | _ => none
  | c :: rest =>
    if (c.toNat < 0x20 ∧ c ≠ '\t' ∧ c ≠ '\n') ∨ c.toNat = 0x7F then none
    else do return c :: (← plainText? rest)

def parse? (bytes : List UInt8) : Option Entries := do
  build? (← statements? (← plainText? (← Utf8.decode? (skipMark bytes))))

end StoryMachine.Toml
