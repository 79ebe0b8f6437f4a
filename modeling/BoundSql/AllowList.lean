import BoundSql.Fragment.Basic

/-!
# Allow-lists of fields

An `AllowList` says which fields a caller may name, and which column expression each stands for.  A
field that is not in it never reaches the SQL.

A `SortOrder` lists the columns to sort by, each with or without a direction.  It is read from items
that a caller gives: a field, or a field, one space and a direction.  The field has to be allowed and
the direction has to be one of two words, so nothing else of an item reaches the SQL.
-/

namespace BoundSql

/-! ## Fields and their columns -/

/-- The fields that may be named, with their column expressions. -/
structure AllowList where
  columns : Table String String
  deriving DecidableEq

namespace AllowList

/-- The list that allows no field. -/
def empty : AllowList := ⟨Table.empty⟩

/-- Allows a field, replacing the column that it may have had. -/
def allow (l : AllowList) (field column : String) : AllowList := ⟨l.columns.insert field column⟩

/-- Allows fields with their columns; of two columns for one field the later wins. -/
def ofPairs (pairs : List (String × String)) : AllowList := ⟨Table.ofPairs pairs⟩

/-- Allows fields whose columns are their own names after a qualifier. -/
def qualified (qualifier : String) (fields : List String) : AllowList :=
  ofPairs (fields.map fun field => (field, qualifier ++ field))

/-- The column of a field. -/
def column? (l : AllowList) (field : String) : Option String := l.columns.get? field

/-- The column of a field that has to be allowed. -/
def columnOf (l : AllowList) (field : String) : Except Error String :=
  match l.column? field with
  | some column => .ok column
  | none => .error (.unknownField field)

@[simp] theorem column?_empty (field : String) : empty.column? field = none := rfl

@[simp] theorem column?_allow (l : AllowList) (field column f : String) :
    (l.allow field column).column? f = if field = f then some column else l.column? f :=
  Table.get?_insert l.columns field column f

/-- The number of fields that may be named. -/
def size (l : AllowList) : Nat := l.columns.length

/-- Whether no field may be named. -/
def isEmpty (l : AllowList) : Bool := l.columns.isEmpty

end AllowList

/-! ## Sort orders -/

/-- The direction of a sort. -/
inductive SortDirection
  | ascending
  | descending
  deriving DecidableEq

namespace SortDirection

/-- The word that names a direction. -/
def word : SortDirection → String
  | .ascending => "asc"
  | .descending => "desc"

/-- The direction that a word names. -/
def ofWord : String → Except Error SortDirection
  | "asc" => .ok .ascending
  | "desc" => .ok .descending
  | other => .error (.unknownDirection other)

end SortDirection

/-- The rendered columns to sort by, in order. -/
structure SortOrder where
  columns : List String
  deriving DecidableEq

namespace SortOrder

/-- The order by no column. -/
def empty : SortOrder := ⟨[]⟩

/-- An item cut at its first space: the field, and what follows the space if there is one. -/
def splitItem (item : String) : String × Option String :=
  match item.toList.span (· != ' ') with
  | (field, []) => (String.ofList field, none)
  | (field, _ :: modifier) => (String.ofList field, some (String.ofList modifier))

/-- The column that an item stands for.  The direction is looked at before the field. -/
def column (allowed : AllowList) (item : String) : Except Error String := do
  let (field, modifier) := splitItem item
  match modifier with
  | none => allowed.columnOf field
  | some modifier =>
    let direction ← SortDirection.ofWord modifier
    let column ← allowed.columnOf field
    return column ++ " " ++ direction.word

/-- The order that a list of items stands for; the first bad item is the error. -/
def ofItems (items : List String) (allowed : AllowList) : Except Error SortOrder := do
  let columns ← items.mapM (column allowed)
  return ⟨columns⟩

/-- The columns of all orders, one order after the other. -/
def concat (orders : List SortOrder) : SortOrder := ⟨orders.flatMap columns⟩

/-- Whether there is no column to sort by. -/
def isEmpty (o : SortOrder) : Bool := o.columns.isEmpty

/-- The `order by` part; without columns there is none. -/
def clause (o : SortOrder) : Fragment :=
  if o.isEmpty then .empty else .raw ("order by " ++ ", ".intercalate o.columns)

end SortOrder

end BoundSql
