import BoundSql.Proofs.Number.Range
import BoundSql.Value

/-!
# Values that JSON can express

JSON has no scalar for bytes, for infinities or for a NaN.  The other values are the `Value.Expressible`
ones: exactly they are read from JSON (`Value.expressible_of_ofJson`), and each of them is read back from
the JSON that it is written as (`Value.ofJson_toJson`).

The objects of a JSON value may list their members in any order here, and repeat them.  A value whose
objects are tables, as those of a text are, is `Json.Ordered`.
-/

namespace BoundSql

namespace Json

/-- Whether all objects of a JSON value are tables: members in ascending order, each name once. -/
inductive Ordered : Json → Prop
  | null : Ordered .null
  | bool (b : Bool) : Ordered (.bool b)
  | number (n : Number) : Ordered (.number n)
  | string (s : String) : Ordered (.string s)
  | array {items : List Json} (hitems : ∀ j ∈ items, Ordered j) : Ordered (.array items)
  | object {members : List (String × Json)} (hnames : Table.Ascending members)
      (hmembers : ∀ m ∈ members, Ordered m.2) : Ordered (.object members)

end Json

namespace Value

/-- Whether JSON has a scalar for a value. -/
def Expressible : Value → Prop
  | .float x => x.isFinite = true
  | .bytes _ => False
  | _ => True

/-- The value of a JSON number is a number too: what is beyond 64 bits with a sign is a finite double. -/
theorem expressible_ofNumber (n : Json.Number) : (ofNumber n).Expressible := by
  cases n with
  | integer n inRange =>
    rw [ofNumber]
    split
    · trivial
    · have hbits : n.natAbs < 2 ^ 64 := by omega
      exact Binary64.isFinite_ofInt hbits
  | float x finite => exact finite

/-- Only values that JSON has scalars for are read from JSON. -/
theorem expressible_of_ofJson {j : Json} {v : Value} (h : ofJson j = .ok v) : v.Expressible := by
  cases j with
  | null =>
    obtain rfl := Except.ok.inj h
    trivial
  | bool b =>
    obtain rfl := Except.ok.inj h
    trivial
  | number n =>
    obtain rfl := Except.ok.inj h
    exact expressible_ofNumber n
  | string s =>
    obtain rfl := Except.ok.inj h
    trivial
  | array items => cases h
  | object members => cases h

/-- An integer of 64 bits is read back from the number that it is written as. -/
theorem ofNumber_ofInt64 (n : Int64) : ofNumber (.ofInt64 n) = .int n := by
  have hlt : n.toInt < 0x8000000000000000 := Int64.toInt_lt n
  rw [Json.Number.ofInt64, ofNumber, if_pos hlt, Int64.ofInt_toInt]

/-- A value that JSON has a scalar for is read back from it. -/
theorem ofJson_toJson {v : Value} (h : v.Expressible) : ofJson v.toJson = .ok v := by
  cases v with
  | null => rfl
  | bool b => rfl
  | int n => rw [toJson, ofJson, ofNumber_ofInt64]
  | float x =>
    have hfinite : Json.Number.ofBinary64? x = some (.float x h) := dif_pos h
    rw [toJson, hfinite]
    rfl
  | text s => rfl
  | bytes bs => exact h.elim

/-- The JSON that a value is written as holds no objects. -/
theorem ordered_toJson (v : Value) : v.toJson.Ordered := by
  cases v with
  | null => exact .null
  | bool b => exact .bool b
  | int n => exact .number _
  | float x =>
    rw [toJson]
    split
    · exact .number _
    · exact .null
  | text s => exact .string s
  | bytes bs =>
    refine .array fun j hj => ?_
    obtain ⟨b, -, rfl⟩ := List.mem_map.1 hj
    exact .number _

end Value

end BoundSql
