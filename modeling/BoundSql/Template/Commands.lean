import BoundSql.Template.Basic

/-!
# Templates of the four commands

The templates of insert, update, delete and select statements.  In those that change rows the table, the
values and the condition are segments, so a value reaches the statement only through a placeholder; the
condition is taken as it is, with its own `where`.

A `Selection` collects what a query asks for, in any order; `Selection.build` writes the parts down in the
order of SQL.  Paging needs an offset, so a count without one starts at row zero.
-/

namespace BoundSql

/-! ## Commands that change rows -/

/-- The segments of a list with a separator between neighbours. -/
def Segment.separated (separator : String) : List Segment → List Segment
  | [] => []
  | [s] => [s]
  | s :: rest => s :: .text separator :: separated separator rest

namespace Template

/-- `insert into table(names)`, the output columns, `values (values)`, each on a line of its own. -/
def insert (table : Segment) (fields : List (String × Segment)) (output : Option String) : Template :=
  ofSegments <|
    [.text "insert into ", table,
      .text ("(" ++ ", ".intercalate (fields.map Prod.fst) ++ ")\n"),
      .text (match output with
        | some columns => "output " ++ columns
        | none => ""),
      .text "\n", .text "values ("] ++
    Segment.separated ", " (fields.map Prod.snd) ++ [.text ")"]

/-- The assignments of an update, the first of them after `lead`. -/
def assignments (lead : String) : List (String × Segment) → List Segment
  | [] => []
  | (name, value) :: rest => .text (lead ++ name ++ " = ") :: value :: assignments ", " rest

/-- `update table`, `set name = value, …` and the condition, each on a line of its own. -/
def update (table : Segment) (fields : List (String × Segment)) (condition : Segment) : Template :=
  ofSegments <|
    [.text "update ", table, .text "\n", .text "set "] ++ assignments "" fields ++
    [.text "\n", condition]

/-- `delete from table` and the condition on a line of its own; `single` limits it to one row. -/
def delete (table condition : Segment) (single : Bool) : Template :=
  ofSegments
    [.text (if single then "delete top (1) from " else "delete from "), table, .text "\n", condition]

end Template

/-! ## Selections -/

/-- A number of rows to skip or to return. -/
inductive RowQuantity
  | rows (n : UInt64)
  | block (p : Placeholder Fragment)
  | value (p : Placeholder Value)
  deriving DecidableEq

namespace RowQuantity

/-- A fixed number is text, a placeholder is filled when the statement is generated. -/
def toSegment : RowQuantity → Segment
  | .rows n => .text (String.ofList (Decimal.digits n.toNat))
  | .block p => .block p
  | .value p => .fragment p.mark

end RowQuantity

/-- What a query asks for. -/
structure Selection where
  table : Segment
  columns : List String
  distinct : Bool
  join : Segment
  condition : Segment
  order : Segment
  offset? : Option RowQuantity
  count? : Option RowQuantity
  deriving DecidableEq

namespace Selection

/-- A query on a table that asks for nothing yet. -/
def ofTable (table : Segment) : Selection :=
  ⟨table, [], false, .text "", .text "", .text "", none, none⟩

/-- Asks for more columns. -/
def addColumns (s : Selection) (columns : List String) : Selection :=
  { s with columns := s.columns ++ columns }

/-- Asks for one more column. -/
def addColumn (s : Selection) (column : String) : Selection := s.addColumns [column]

/-- Asks for a column under another name. -/
def addColumnAs (s : Selection) (column label : String) : Selection :=
  s.addColumn (column ++ " as " ++ label)

/-- Asks for each row once. -/
def setDistinct (s : Selection) : Selection := { s with distinct := true }

/-- Asks for rows of joined tables. -/
def setJoin (s : Selection) (join : Segment) : Selection := { s with join := join }

/-- Limits the rows to those that meet a condition. -/
def setCondition (s : Selection) (condition : Segment) : Selection := { s with condition := condition }

/-- Asks for an order of the rows. -/
def setOrder (s : Selection) (order : Segment) : Selection := { s with order := order }

/-- Skips rows. -/
def setOffset (s : Selection) (n : RowQuantity) : Selection := { s with offset? := some n }

/-- Limits the rows that are returned. -/
def setCount (s : Selection) (n : RowQuantity) : Selection := { s with count? := some n }

/-- The offset that is written: a count without offset starts at row zero. -/
def startingRow? (s : Selection) : Option RowQuantity :=
  match s.offset?, s.count? with
  | some n, _ => some n
  | none, some _ => some (.rows 0)
  | none, none => none

/-- The paging part. -/
def paging (s : Selection) : List Segment :=
  match s.startingRow? with
  | none => []
  | some start =>
    [.text "offset ", start.toSegment, .text " rows"] ++
    match s.count? with
    | none => []
    | some n => [.text "\n", .text "fetch next ", n.toSegment, .text " rows only"]

/-- The template of the query. -/
def build (s : Selection) : Template :=
  .ofSegments <|
    [.text "select ", .text (if s.distinct then "distinct " else ""),
      .text (", ".intercalate s.columns), .text "\n",
      .text "from ", s.table, .text "\n", s.join, .text "\n", s.condition, .text "\n",
      s.order, .text "\n"] ++ s.paging

end Selection

end BoundSql
