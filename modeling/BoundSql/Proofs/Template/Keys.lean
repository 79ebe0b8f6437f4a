import BoundSql.Proofs.Json.Denotation
import BoundSql.Proofs.Json.RoundTrip
import BoundSql.Proofs.Template.Stored

/-!
# Keys in templates and in JSON

A key that is written in a template and a key that a caller gives as JSON are read by different readers.  The
first looks at the kind of the value (`Key.ofElement`), the second tries a number and then a name
(`Key.ofJson`).  Both follow one grammar (`Key.Denotes`), and both read what a key is written as.

A number is a key if it is written as an integer and is in the range of unsigned integers of 64 bits
(`Json.Literal.number?_eq_ofUInt64_iff`); `1.0` and `-0` are no keys.  A number and the name that spells it are
shown alike.  They stay different keys, in JSON and wherever something is looked up (`Key.Apart`).
-/

namespace BoundSql

namespace Json

/-! ## Unsigned numbers -/

/-- A number is an unsigned integer of 64 bits if it is the number of one. -/
theorem Number.toUInt64?_eq_some_iff {n : Number} {m : UInt64} :
    n.toUInt64? = some m ↔ n = .ofUInt64 m := by
  cases n with
  | integer n inRange =>
    rw [toUInt64?]
    constructor
    · intro h
      split at h
      · cases h
      · rename_i hn
        obtain rfl := Option.some.inj h
        exact integer_eq_ofUInt64 (Int.not_lt.1 hn)
    · intro h
      obtain rfl := (Number.integer.injEq ..).mp h
      rw [if_neg (Int.not_lt.2 (Int.natCast_nonneg _)), Int.toNat_natCast, UInt64.ofNat_toNat]
  | float x finite =>
    constructor
    · intro h
      cases h
    · intro h
      cases h

/-- An integer is the number of an unsigned one if they are equal. -/
theorem Number.ofInt?_eq_ofUInt64_iff {n : Int} {m : UInt64} :
    ofInt? n = some (.ofUInt64 m) ↔ n = m.toNat := by
  have hm := m.toNat_lt
  unfold ofInt? ofUInt64
  constructor
  · intro h
    split at h
    · exact (Number.integer.injEq ..).mp (Option.some.inj h)
    · cases h
  · rintro rfl
    exact dif_pos ⟨by omega, by omega⟩

namespace Literal

/-- Whether a literal writes an unsigned integer of 64 bits, without sign, fraction and exponent. -/
structure Spells (l : Literal) (m : UInt64) : Prop where
  isPlain : l.isPlain = true
  negative : l.negative = false
  value : digitsValue l.whole = m.toNat

/-- If no digit is left out, there was room for all of them. -/
theorem followedBy_lt_of_appendDigits {n : Nat} (hn : n < significandBound) {ds : List Char}
    (h : (appendDigits n ds).2 = 0) : followedBy n ds < significandBound := by
  induction ds generalizing n with
  | nil => exact hn
  | cons d ds ih =>
    rw [appendDigits] at h
    split at h
    · rename_i hlonger
      exact ih hlonger h
    · cases h

/-- The digits before the point are all taken if and only if they are those of a significand. -/
theorem wholePart_eq_iff {l : Literal} {n : Nat} :
    l.wholePart = (n, 0) ↔ digitsValue l.whole = n ∧ n < significandBound := by
  constructor
  · intro h
    have hbound : followedBy 0 l.whole < significandBound :=
      followedBy_lt_of_appendDigits (by decide) (congrArg Prod.snd h)
    rw [wholePart, appendDigits_of_lt hbound] at h
    obtain rfl := congrArg Prod.fst h
    exact ⟨rfl, hbound⟩
  · rintro ⟨rfl, hbound⟩
    exact appendDigits_of_lt hbound

/-- A literal is read as an unsigned integer of 64 bits if it writes this integer. -/
theorem integer?_eq_ofUInt64_iff {l : Literal} {m : UInt64} :
    l.integer? = some (.ofUInt64 m) ↔ l.Spells m := by
  rcases hpart : l.wholePart with ⟨n, leftOut⟩
  unfold integer?
  rw [hpart]
  constructor
  · intro h
    simp only [Bool.and_eq_true, beq_iff_eq] at h
    split at h
    · rename_i hplain
      obtain ⟨hplain, rfl⟩ := hplain
      split at h
      · rename_i hnegative
        have hn : n = m.toNat := Int.ofNat_inj.1 (Number.ofInt?_eq_ofUInt64_iff.1 h)
        exact ⟨hplain, Bool.not_eq_true' _ ▸ hnegative, hn ▸ (wholePart_eq_iff.1 hpart).1⟩
      · split at h
        · cases h
        · have hn := Number.ofInt?_eq_ofUInt64_iff.1 h
          omega
    · cases h
  · rintro ⟨hplain, hnegative, hvalue⟩
    have hm : l.wholePart = (m.toNat, 0) := wholePart_eq_iff.2 ⟨hvalue, m.toNat_lt⟩
    rw [hpart] at hm
    obtain ⟨rfl, rfl⟩ := Prod.mk.inj hm
    simp only [hplain, hnegative, beq_self_eq_true, Bool.and_self, Bool.not_false, if_true]
    exact Number.ofInt?_eq_ofUInt64_iff.2 rfl

/-- A literal stands for an unsigned integer of 64 bits if it writes this integer; a double is none. -/
theorem number?_eq_ofUInt64_iff {l : Literal} {m : UInt64} :
    l.number? = some (.ofUInt64 m) ↔ l.Spells m := by
  rw [← integer?_eq_ofUInt64_iff, number?]
  cases l.integer? with
  | some x => rw [Option.some_or]
  | none =>
    rw [Option.none_or, Number.ofBinary64?]
    constructor
    · intro h
      split at h <;> cases h
    · intro h
      cases h

end Literal

end Json

namespace Key

/-! ## The readers of keys -/

/-- A value has one of the two forms of keys exactly if it denotes a key. -/
theorem indexOfJson?_or_nameOfJson?_eq_some_iff {j : Json} {k : Key} :
    (indexOfJson? j).or (nameOfJson? j) = some k ↔ Denotes j k := by
  constructor
  · intro h
    cases j with
    | string s =>
      obtain rfl := Option.some.inj h
      exact .name s
    | number n =>
      rw [nameOfJson?, Option.or_none, indexOfJson?, Option.map_eq_some_iff] at h
      · obtain ⟨m, hm, rfl⟩ := h
        rw [Json.Number.toUInt64?_eq_some_iff.1 hm]
        exact .index m
      · exact nofun
    | _ => cases h
  · intro h
    cases h with
    | name s => rfl
    | index m =>
      rw [indexOfJson?, Json.Number.toUInt64?_eq_some_iff.2 rfl]
      rfl

/-- Keys that are given as JSON are read as the values denote them. -/
theorem follows_ofJson : Follows ofJson Denotes fun j e => (∀ k, ¬ Denotes j k) ∧ e = .notAKey := by
  apply Follows.of_option fun j k => indexOfJson?_or_nameOfJson?_eq_some_iff
  · intro j k hk
    rw [ofJson, hk]
  · intro j hj
    rw [ofJson, hj]

/-- What a key is written as denotes the key. -/
theorem denotes_toJson (k : Key) : Denotes k.toJson k := ofJson?_eq_some_iff.1 (ofJson?_toJson k)

/-- A key is read from the text that it is written as. -/
theorem ofText_toText (k : Key) : ofText k.toJson.toText = .ok k := by
  have hreread : k.toJson.reread? = some k.toJson := by
    cases k with
    | index n => exact congrArg (Option.map Json.number) (Json.Number.reread?_integer _ _)
    | name s => rfl
  have hdepth : k.toJson.depth ≤ Json.nestingLimit := by cases k <;> exact Nat.zero_le _
  have hkey : ofJson k.toJson = .ok k := follows_ofJson.ok_of_denotes (denotes_toJson k)
  rw [ofText, Json.decodeText, Json.read?_toText hdepth, hreread, Option.map_some]
  simp only [hkey]
  rfl

/-! ## Looking keys up -/

/-- Whether what is bound to a key or stored for it is found under this key, on the level of its own, and what
is found under another key stays as it was. -/
structure Apart (k l : Key) : Prop where
  block : ∀ (b : Bindings) (f : Fragment),
    (b.bindBlock k f).block? k = some f ∧ (b.bindBlock k f).block? l = b.block? l
  value : ∀ (b : Bindings) (v : Value),
    (b.bindValue k v).value? k = some v ∧ (b.bindValue k v).value? l = b.value? l
  storedBlock : ∀ (t : Template) (f : Fragment),
    (t.overrideBlocks [(k, f)]).storedBlock? k = some f ∧
      (t.overrideBlocks [(k, f)]).storedBlock? l = t.storedBlock? l
  storedValue : ∀ (t : Template) (v : Value),
    (t.overrideValues [(k, v)]).storedValue? k = some v ∧
      (t.overrideValues [(k, v)]).storedValue? l = t.storedValue? l

/-- Different keys are looked up apart. -/
theorem apart_of_ne {k l : Key} (h : k ≠ l) : Apart k l where
  block b f := by
    rw [Bindings.block?_bindBlock, Bindings.block?_bindBlock]
    exact ⟨if_pos rfl, if_neg h⟩
  value b v := by
    rw [Bindings.value?_bindValue, Bindings.value?_bindValue]
    exact ⟨if_pos rfl, if_neg h⟩
  storedBlock t f := by
    rw [Template.storedBlock?_overrideBlocks, Template.storedBlock?_overrideBlocks, Table.last?_singleton,
      Table.last?_singleton, if_pos rfl, if_neg h]
    exact ⟨rfl, rfl⟩
  storedValue t v := by
    rw [Template.storedValue?_overrideValues, Template.storedValue?_overrideValues, Table.last?_singleton,
      Table.last?_singleton, if_pos rfl, if_neg h]
    exact ⟨rfl, rfl⟩

/-- The reader of a template's elements and the reader of JSON accept the same keys, namely strings as names
and unsigned integers of 64 bits as numbers, and such a number has neither a sign nor a fraction nor an
exponent where it is written.  Both read a key where it was written.  So a number and the name that spells
it, which are shown alike, are written apart and looked up apart. -/
theorem readers_agree_and_undo_toJson :
    (∀ (j : Json) (k : Key), ofElement j = .ok k ↔ ofJson j = .ok k) ∧
    Follows ofJson Denotes (fun j e => (∀ k, ¬ Denotes j k) ∧ e = .notAKey) ∧
    (∀ (l : Json.Literal) (k : Key),
      (∃ n, l.number? = some n ∧ ofJson (.number n) = .ok k) ↔ ∃ m, l.Spells m ∧ k = .index m) ∧
    (∀ k : Key, ofElement k.toJson = .ok k ∧ ofJson k.toJson = .ok k ∧ ofText k.toJson.toText = .ok k) ∧
    ∀ n : UInt64,
      (name (index n).text).text = (index n).text ∧
      (index n).toJson.toText ≠ (name (index n).text).toJson.toText ∧
      Apart (index n) (name (index n).text) ∧ Apart (name (index n).text) (index n) := by
  refine ⟨fun j k => ?_, follows_ofJson, fun l k => ?_, fun k => ⟨?_, ?_, ofText_toText k⟩, fun n => ?_⟩
  · rw [follows.eq_ok_iff, follows_ofJson.eq_ok_iff]
  · simp only [follows_ofJson.eq_ok_iff]
    constructor
    · rintro ⟨n, hn, hk⟩
      cases hk with
      | index m => exact ⟨m, Json.Literal.number?_eq_ofUInt64_iff.1 hn, rfl⟩
    · rintro ⟨m, hm, rfl⟩
      exact ⟨_, Json.Literal.number?_eq_ofUInt64_iff.2 hm, .index m⟩
  · exact follows.ok_of_denotes (denotes_toJson k)
  · exact follows_ofJson.ok_of_denotes (denotes_toJson k)
  · have hne : index n ≠ name (index n).text := nofun
    refine ⟨rfl, fun htext => ?_, apart_of_ne hne, apart_of_ne hne.symm⟩
    have hread := congrArg ofText htext
    rw [ofText_toText, ofText_toText] at hread
    exact hne (Except.ok.inj hread)

end Key

end BoundSql
