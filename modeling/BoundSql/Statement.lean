import BoundSql.Fragment.Basic

/-!
# Bindings and statements

`Bindings` are what a caller supplies for one generation: fragments for the placeholders of blocks
and values for the placeholders of values.  The two levels have tables of their own, so a key of one
level is never found on the other.

A `Statement` is SQL with the values of its `?` in order: nothing of it is open any more.  A
fragment is resolved to a statement by replacing its placeholders from left to right; only after
that are the `?` of its text counted.
-/

namespace BoundSql

/-! ## Bindings -/

/-- Fragments and values by key. -/
structure Bindings where
  blocks : Table Key Fragment
  values : Table Key Value
  deriving DecidableEq

namespace Bindings

/-- The bindings of nothing. -/
def empty : Bindings := ⟨Table.empty, Table.empty⟩

/-- The bindings in which `key` stands for a fragment. -/
def bindBlock (b : Bindings) (key : Key) (f : Fragment) : Bindings :=
  { b with blocks := b.blocks.insert key f }

/-- The bindings in which `key` stands for a value. -/
def bindValue (b : Bindings) (key : Key) (v : Value) : Bindings :=
  { b with values := b.values.insert key v }

/-- The fragment that is bound to a key. -/
def block? (b : Bindings) (key : Key) : Option Fragment := b.blocks.get? key

/-- The value that is bound to a key. -/
def value? (b : Bindings) (key : Key) : Option Value := b.values.get? key

/-- Whether nothing is bound on either level. -/
def isEmpty (b : Bindings) : Bool := b.blocks.isEmpty && b.values.isEmpty

@[simp] theorem block?_empty (key : Key) : empty.block? key = none := rfl

@[simp] theorem value?_empty (key : Key) : empty.value? key = none := rfl

@[simp] theorem block?_bindBlock (b : Bindings) (key : Key) (f : Fragment) (k : Key) :
    (b.bindBlock key f).block? k = if key = k then some f else b.block? k :=
  Table.get?_insert b.blocks key f k

@[simp] theorem value?_bindValue (b : Bindings) (key : Key) (v : Value) (k : Key) :
    (b.bindValue key v).value? k = if key = k then some v else b.value? k :=
  Table.get?_insert b.values key v k

/-- What is bound on the level of blocks is not found on the level of values. -/
@[simp] theorem value?_bindBlock (b : Bindings) (key : Key) (f : Fragment) (k : Key) :
    (b.bindBlock key f).value? k = b.value? k := rfl

/-- What is bound on the level of values is not found on the level of blocks. -/
@[simp] theorem block?_bindValue (b : Bindings) (key : Key) (v : Value) (k : Key) :
    (b.bindValue key v).block? k = b.block? k := rfl

instance : Alike Bindings := ⟨fun b c => alike b.blocks c.blocks && alike b.values c.values⟩

end Bindings

/-! ## Statements -/

/-- SQL and the values of its `?`. -/
structure Statement where
  sql : String
  values : List Value
  deriving DecidableEq

namespace Argument

/-- The value of an argument; `lookup` gives what is bound to a key. -/
def fill (lookup : Key → Option Value) : Argument → Traced Value
  | .value v => pure v
  | .placeholder p => p.fill .value (lookup p.key)

end Argument

namespace Statement

/-- SQL with as many `?` as there are values. -/
def checked (sql : String) (values : List Value) : Except Error Statement :=
  if markCount sql = values.length then .ok ⟨sql, values⟩
  else .error (.countMismatch (markCount sql) values.length)

/-- A statement is checked by counting its marks. -/
theorem checked_eq_ok_iff {sql : String} {values : List Value} {s : Statement} :
    checked sql values = .ok s ↔ markCount sql = values.length ∧ s = ⟨sql, values⟩ := by
  unfold checked
  by_cases h : markCount sql = values.length <;> simp [h, eq_comm]

/-- The statement as a fragment whose arguments are its values. -/
def toFragment (s : Statement) : Fragment := ⟨s.sql, s.values.map .value⟩

/-- The statement as a JSON text with the members `sql` and `values`, in this order. -/
def toText (s : Statement) : String :=
  (Json.object [("sql", .string s.sql), ("values", .array (s.values.map Value.toJson))]).toText

instance : Alike Statement := ⟨fun s t => s.sql == t.sql && alike s.values t.values⟩

end Statement

namespace Fragment

/-- Replaces the placeholders of a fragment by what `lookup` gives for their keys. -/
def fillWith (f : Fragment) (lookup : Key → Option Value) : Traced Statement := do
  let values ← f.args.mapM (Argument.fill lookup)
  Traced.ofExcept (Statement.checked f.text values)

/-- Replaces the placeholders of a fragment by the values bound to their keys. -/
def fill (f : Fragment) (b : Bindings) : Traced Statement := f.fillWith b.value?

end Fragment

end BoundSql
