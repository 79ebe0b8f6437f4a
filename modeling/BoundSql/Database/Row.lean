import BoundSql.Database.Error

/-!
# Rows

A database sends the cells of a row as texts, or as null, under columns with names and types.  Fields
are read from the cells by the name or the place of their column.
-/

namespace BoundSql

/-- A column of a result. -/
structure Column where
  name : String
  type : ColumnType
  deriving DecidableEq

/-- A row with its columns; a cell that is null has no text. -/
structure Row where
  columns : List Column
  cells : List (Option String)
  deriving DecidableEq

namespace Row

/-- The columns with their cells. -/
def fields (r : Row) : List (Column × Option String) := r.columns.zip r.cells

/-- The column that is asked for, with its cell.  Of two columns with one name the later is found. -/
def field (r : Row) (ref : ColumnRef) : Except DatabaseError (Column × Option String) :=
  match ref with
  | .name name =>
    match r.fields.reverse.find? fun f => f.1.name == name with
    | some f => .ok f
    | none => .error (.columnNotFound name)
  | .index n =>
    match r.fields[n]? with
    | some f => .ok f
    | none => .error (.columnNotFound (ColumnRef.index n).text)

/-- The number that a run of digits denotes. -/
def magnitude? (ds : List Char) : Option Nat :=
  if ds.all fun c => decide ('0' ≤ c ∧ c ≤ '9') then
    some (ds.foldl (fun n c => 10 * n + (c.toNat - 48)) 0)
  else none

/-- The integer that a text denotes, with or without a sign. -/
def integer? (cs : List Char) : Option Int :=
  match cs with
  | ['-'] => none
  | ['+'] => none
  | '-' :: ds => (magnitude? ds).map fun n => -(n : Int)
  | '+' :: ds => (magnitude? ds).map Int.ofNat
  | ds => (magnitude? ds).map Int.ofNat

/-- A text as an integer of 32 bits. -/
def readInt (s : String) : Except CellError Int32 :=
  if s = "" then .error .noDigits
  else
    match integer? s.toList with
    | none => .error .notADigit
    | some n =>
      if n < -0x80000000 then .error .tooSmall
      else if 0x80000000 ≤ n then .error .tooLarge
      else .ok (Int32.ofInt n)

/-- Reads a cell by `read` if its column has one of the accepted types; null is reported first. -/
def cell {α : Type} (r : Row) (ref : ColumnRef) (wanted : FieldType) (accepted : List ColumnType)
    (read : String → Except CellError α) : Except DatabaseError α := do
  let (column, cell) ← r.field ref
  match cell with
  | none => .error (.cell ref .null)
  | some text =>
    if accepted.contains column.type then (read text).mapError (.cell ref)
    else .error (.cell ref (.typeMismatch wanted column.type))

/-- An integer of 32 bits; wider columns are accepted where the number fits. -/
def int (r : Row) (ref : ColumnRef) : Except DatabaseError Int32 :=
  r.cell ref .int [.int, .bigint] readInt

/-- A text. -/
def text (r : Row) (ref : ColumnRef) : Except DatabaseError String :=
  r.cell ref .text [.varchar] .ok

end Row

end BoundSql
