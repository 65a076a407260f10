import StoryMachine.Toml.Value

/-!
# Statements

A document is a list of statements: headers that open a table or add one to an array of tables, and
assignments. The written form of a value keeps inline tables as lists of assignments, because what
they mean depends on what the document has defined before.
-/

namespace StoryMachine.Toml

/-- A value as it is written. -/
inductive Expr where
  | literal (value : Value)
  | array (elements : List Expr)
  | inlineTable (assignments : List (Path × Expr))

inductive Statement where
  | table (path : Path)
  | tableArray (path : Path)
  | assign (path : Path) (value : Expr)

end StoryMachine.Toml
