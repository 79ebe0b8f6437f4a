import BoundSql.Json.Basic

/-!
# Keys of placeholders

A placeholder is found by its key, a number or a name.  All numbers come before all names, and names
are ordered by their characters.  The number `n` and the name that spells `n` are different keys,
although `Key.text` shows them alike; in JSON, as in the library, they stay apart.
-/

namespace BoundSql

/-- What a placeholder is found by. -/
inductive Key
  | index (n : UInt64)
  | name (s : String)
  deriving DecidableEq

/-- What a placeholder stands for: a whole fragment or one value. -/
inductive Level
  | block
  | value
  deriving DecidableEq

namespace Level

/-- The level as it is shown. -/
def text : Level → String
  | .block => "block"
  | .value => "value"

end Level

namespace Key

/-- Numbers in ascending order, then names by their characters. -/
def order : Key → Key → Ordering
  | .index m, .index n => compare m n
  | .index _, .name _ => .lt
  | .name _, .index _ => .gt
  | .name s, .name t => compare s t

instance : Ord Key := ⟨order⟩

@[simp] theorem compare_index (m n : UInt64) : compare (index m) (index n) = compare m n := rfl

@[simp] theorem compare_name (s t : String) : compare (name s) (name t) = compare s t := rfl

instance : Std.LawfulEqOrd Key where
  compare_self {k} := by
    cases k with
    | index n => rw [compare_index, Std.compare_self]
    | name s => rw [compare_name, Std.compare_self]
  eq_of_compare {k l} h := by
    cases k with
    | index m =>
      cases l with
      | index n => rw [Std.compare_eq_iff_eq.1 ((compare_index m n).symm.trans h)]
      | name t => cases h
    | name s =>
      cases l with
      | index n => cases h
      | name t => rw [Std.compare_eq_iff_eq.1 ((compare_name s t).symm.trans h)]

instance : Std.TransOrd Key where
  eq_swap {k l} := by
    cases k with
    | index m =>
      cases l with
      | index n =>
        rw [compare_index, compare_index]
        exact Std.OrientedCmp.eq_swap
      | name t => rfl
    | name s =>
      cases l with
      | index n => rfl
      | name t =>
        rw [compare_name, compare_name]
        exact Std.OrientedCmp.eq_swap
  isLE_trans {j k l} hjk hkl := by
    cases j with
    | index a =>
      cases l with
      | name c => rfl
      | index c =>
        cases k with
        | index b =>
          rw [compare_index] at hjk hkl ⊢
          exact Std.TransCmp.isLE_trans hjk hkl
        | name b => cases hkl
    | name a =>
      cases k with
      | index b => cases hjk
      | name b =>
        cases l with
        | index c => cases hkl
        | name c =>
          rw [compare_name] at hjk hkl ⊢
          exact Std.TransCmp.isLE_trans hjk hkl

instance : Alike Key := ⟨fun k l => decide (k = l)⟩

/-- The key as it is shown. -/
def text : Key → String
  | .index n => String.ofList (Decimal.digits n.toNat)
  | .name s => s

/-- The key as a JSON number or string. -/
def toJson : Key → Json
  | .index n => .number (.ofUInt64 n)
  | .name s => .string s

/-- The key that a JSON value denotes: a string is a name, a non-negative integer a number. -/
def ofJson? : Json → Option Key
  | .string s => some (.name s)
  | .number (.integer n _) => if 0 ≤ n then some (.index (UInt64.ofNat n.toNat)) else none
  | _ => none

/-- A key is read back from the JSON value that it is written as. -/
@[simp] theorem ofJson?_toJson (k : Key) : ofJson? k.toJson = some k := by
  cases k with
  | name s => rfl
  | index n => simp [toJson, ofJson?, Json.Number.ofUInt64]

/-- The keys in ascending order, each once. -/
def sortDistinct (keys : List Key) : List Key :=
  (Table.ofPairs (keys.map fun k => (k, ()))).keys

end Key

end BoundSql
