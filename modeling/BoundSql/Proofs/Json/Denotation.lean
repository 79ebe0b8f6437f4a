import BoundSql.Proofs.Grammar
import BoundSql.Proofs.Json.Scalars
import BoundSql.Template.Reading

/-!
# What JSON scalars denote

The grammars of values and of keys.  Every JSON scalar denotes a value, and arrays and objects are
rejected (`Value.follows`).  A key is denoted by a string or by an integer that 64 bits without a sign can
hold; nothing else is a key, also no floating-point number that is an integer (`Key.follows`).
-/

namespace BoundSql

namespace Json

/-- Whether a JSON value is null, a truth value, a number or a string. -/
def IsScalar : Json → Prop
  | .array _ => False
  | .object _ => False
  | _ => True

/-- An integer of 64 bits with a sign is the number of such an integer. -/
theorem Number.integer_eq_ofInt64 {n : Int}
    {inRange : -0x8000000000000000 ≤ n ∧ n < 0x10000000000000000} (h : n < 0x8000000000000000) :
    Number.integer n inRange = .ofInt64 (Int64.ofInt n) := by
  have hn : (Int64.ofInt n).toInt = n := Int64.toInt_ofInt_of_le inRange.1 h
  rw [ofInt64, Number.integer.injEq]
  exact hn.symm

/-- An integer that is not negative is the number of one without a sign. -/
theorem Number.integer_eq_ofUInt64 {n : Int}
    {inRange : -0x8000000000000000 ≤ n ∧ n < 0x10000000000000000} (h : 0 ≤ n) :
    Number.integer n inRange = .ofUInt64 (UInt64.ofNat n.toNat) := by
  have hn : (UInt64.ofNat n.toNat).toNat = n.toNat :=
    UInt64.toNat_ofNat_of_lt' (by rw [UInt64.size]; omega)
  rw [ofUInt64, Number.integer.injEq, hn, Int.toNat_of_nonneg h]

end Json

namespace Value

/-- The values that JSON scalars denote.  An integer that 64 bits with a sign cannot hold is rounded. -/
inductive Denotes : Json → Value → Prop
  | null : Denotes .null .null
  | bool (b : Bool) : Denotes (.bool b) (.bool b)
  | int (n : Int64) : Denotes (.number (.ofInt64 n)) (.int n)
  | large {n : Int} {inRange : -0x8000000000000000 ≤ n ∧ n < 0x10000000000000000}
      (h : 0x8000000000000000 ≤ n) : Denotes (.number (.integer n inRange)) (.float (Binary64.ofInt n))
  | float {x : Binary64} (finite : x.isFinite = true) : Denotes (.number (.float x finite)) (.float x)
  | text (s : String) : Denotes (.string s) (.text s)

/-- What denotes a value is a scalar. -/
theorem isScalar_of_denotes {j : Json} {v : Value} (h : Denotes j v) : j.IsScalar := by
  cases h <;> trivial

/-- Every scalar denotes a value. -/
theorem exists_denotes {j : Json} (h : j.IsScalar) : ∃ v, Denotes j v := by
  cases j with
  | null => exact ⟨.null, .null⟩
  | bool b => exact ⟨.bool b, .bool b⟩
  | number n =>
    cases n with
    | integer n inRange =>
      by_cases hn : n < 0x8000000000000000
      · rw [Json.Number.integer_eq_ofInt64 hn]
        exact ⟨.int (Int64.ofInt n), .int _⟩
      · exact ⟨.float (Binary64.ofInt n), .large (Int.not_lt.1 hn)⟩
    | float x finite => exact ⟨.float x, .float finite⟩
  | string s => exact ⟨.text s, .text s⟩
  | array items => exact h.elim
  | object members => exact h.elim

/-- Values are read as JSON scalars denote them; arrays and objects are no values. -/
theorem follows : Follows ofJson Denotes fun j e => ¬ j.IsScalar ∧ e = .notAValue where
  ok_of_denotes := by
    intro j v h
    cases h with
    | null => rfl
    | bool b => rfl
    | int n => rw [ofJson, ofNumber_ofInt64]
    | large h => rw [ofJson, ofNumber, if_neg (Int.not_lt.2 h)]
    | float finite => rfl
    | text s => rfl
  error_of_rejected := by
    rintro j e ⟨hj, rfl⟩
    cases j with
    | array items => rfl
    | object members => rfl
    | _ => exact absurd trivial hj
  denotes_or_rejected := by
    intro j
    by_cases hj : j.IsScalar
    · exact Or.inl (exists_denotes hj)
    · exact Or.inr ⟨.notAValue, hj, rfl⟩

end Value

namespace Key

/-- The keys that JSON values denote: a string is a name, an integer of 64 bits without a sign is an
index. -/
inductive Denotes : Json → Key → Prop
  | name (s : String) : Denotes (.string s) (.name s)
  | index (n : UInt64) : Denotes (.number (.ofUInt64 n)) (.index n)

/-- A key is found in what denotes it and in nothing else. -/
theorem ofJson?_eq_some_iff {j : Json} {k : Key} : ofJson? j = some k ↔ Denotes j k := by
  constructor
  · intro h
    unfold ofJson? at h
    split at h
    · obtain rfl := Option.some.inj h
      exact .name _
    · rename_i n inRange
      split at h
      · rename_i hn
        obtain rfl := Option.some.inj h
        rw [Json.Number.integer_eq_ofUInt64 hn]
        exact .index _
      · cases h
    · cases h
  · intro h
    cases h with
    | name s => rfl
    | index n => exact ofJson?_toJson (.index n)

/-- The keys of a template's elements are read as JSON values denote them. -/
theorem follows : Follows ofElement Denotes fun j e =>
    (∀ k, ¬ Denotes j k) ∧ e = .badSegment (.notAKey j) := by
  apply Follows.of_option fun j k => ofJson?_eq_some_iff
  · intro j k hk
    rw [ofElement, hk]
  · intro j hj
    rw [ofElement, hj]

end Key

end BoundSql
