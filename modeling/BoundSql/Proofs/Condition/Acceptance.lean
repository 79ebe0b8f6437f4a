import BoundSql.Condition.Reading
import BoundSql.Proofs.Condition.Validation
import BoundSql.Proofs.Json.Scalars

/-!
# Conditions that are read and conditions that compile

Operators are checked twice, when a condition is read from JSON and when it is compiled, and the two
checks know the same words.  The conditions that are read are the `Condition.Expressible` ones: no others
come of any JSON value (`Condition.expressible_of_ofJson`), and each of them is read back from the JSON
that `Condition.toJson` writes it as (`Condition.ofJson_toJson`).  What was read therefore compiles, unless
it names a field that is not allowed (`Condition.reading_agrees_with_compiling`).
-/

namespace BoundSql

namespace Condition

/-! ## Conditions that JSON can express -/

/-- Whether a condition itself, whatever its children are, can be written as JSON: its word is known and
its value has a JSON scalar. -/
def IsWritable : Condition → Prop
  | .empty => True
  | .compare _ word v => word ∈ Comparison.words ∧ v.Expressible
  | .group word _ => word ∈ Connective.words

/-- Whether everything in a tree can be written as JSON. -/
def Expressible (c : Condition) : Prop := ∀ n ∈ c.preorder, n.IsWritable

/-- The tree without conditions is expressible. -/
theorem expressible_empty : Expressible .empty := by
  intro n hn
  obtain rfl := List.mem_singleton.1 hn
  trivial

/-- A comparison is expressible by itself. -/
theorem expressible_compare_iff {field word : String} {v : Value} :
    Expressible (.compare field word v) ↔ word ∈ Comparison.words ∧ v.Expressible :=
  List.forall_mem_singleton

/-- A group is expressible when its word is known and its children are expressible. -/
theorem expressible_group_iff {word : String} {children : List Condition} :
    Expressible (.group word children) ↔
      word ∈ Connective.words ∧ ∀ c ∈ children, c.Expressible := by
  unfold Expressible
  rw [preorder, List.forall_mem_cons]
  refine and_congr_right fun _ => ?_
  constructor
  · intro h c hc n hn
    exact h n (mem_preorderOfAll_iff.2 ⟨c, hc, hn⟩)
  · intro h n hn
    obtain ⟨c, hc, hnc⟩ := mem_preorderOfAll_iff.1 hn
    exact h c hc n hnc

/-! ## What is read -/

namespace Head

/-- Whether the word that a head carries is one of its kind. -/
def IsKnown : Head → Prop
  | .comparison word => word ∈ Comparison.words
  | .connective word => word ∈ Connective.words
  | _ => True

/-- A word is taken only for what it names. -/
theorem isKnown_ofWord (word : String) : (ofWord word).IsKnown := by
  unfold ofWord
  split
  · trivial
  · split
    · rename_i hword
      exact Comparison.isSome_ofWord?_iff.1 hword
    · split
      · rename_i hword
        exact Connective.isSome_ofWord?_iff.1 hword
      · trivial

/-- The word of an object is taken only for what it names. -/
theorem isKnown_ofMembers (ms : Table String Json) : (ofMembers ms).IsKnown := by
  unfold ofMembers
  split
  · trivial
  · trivial
  · exact isKnown_ofWord _
  · trivial

/-- The word of a comparison is taken for one. -/
theorem ofWord_of_mem_comparison {word : String} (h : word ∈ Comparison.words) :
    ofWord word = .comparison word := by
  have hne : word ≠ "" := by
    rintro rfl
    exact absurd h (by decide)
  rw [ofWord, if_neg hne, if_pos (Comparison.isSome_ofWord?_iff.2 h)]

/-- The word of a connective is taken for one, as it names no comparison. -/
theorem ofWord_of_mem_connective {word : String} (h : word ∈ Connective.words) :
    ofWord word = .connective word := by
  have hne : word ≠ "" := by
    rintro rfl
    exact absurd h (by decide)
  have hcomparison : word ∉ Comparison.words := by
    obtain ⟨c, rfl⟩ := Connective.mem_words_iff.1 h
    cases c <;> decide
  rw [ofWord, if_neg hne, if_neg (mt Comparison.isSome_ofWord?_iff.1 hcomparison),
    if_pos (Connective.isSome_ofWord?_iff.2 h)]

end Head

/-- The comparison of an object has a value that JSON can express, which is null if none is given. -/
theorem exists_of_comparisonOfMembers {word : String} {ms : Table String Json} {c : Condition}
    (h : comparisonOfMembers word ms = .ok c) :
    ∃ field v, v.Expressible ∧ c = .compare field word v := by
  unfold comparisonOfMembers at h
  split at h
  · rename_i field hfield
    split at h
    · rename_i j hj
      obtain ⟨v, hv, hc⟩ := Outcome.map_eq_ok_iff.1 h
      exact ⟨field, v, Value.expressible_of_ofJson hv, hc.symm⟩
    · exact ⟨field, .null, trivial, (Except.ok.inj h).symm⟩
  · cases h

/-- What is read is no condition, a comparison with a known word, or a group with a known word whose
children are read from the items of an array. -/
theorem ofJson_eq_ok_cases {j : Json} {c : Condition} (h : ofJson j = .ok c) :
    c = .empty ∨
    (∃ field word v, word ∈ Comparison.words ∧ v.Expressible ∧ c = .compare field word v) ∨
    ∃ ms word blocks children, j = .object ms ∧ word ∈ Connective.words ∧
      Table.get? ms "blocks" = some (.array blocks) ∧ blocks.mapM ofJson = .ok children ∧
      c = .group word children := by
  have hread := h
  rw [ofJson.eq_def] at h
  split at h
  · exact Or.inl (Except.ok.inj h).symm
  · rename_i ms
    have hknown := Head.isKnown_ofMembers ms
    split at h
    · exact Or.inl (Except.ok.inj h).symm
    · cases h
    · rename_i word hhead
      rw [hhead] at hknown
      obtain ⟨field, v, hv, hc⟩ := exists_of_comparisonOfMembers h
      exact Or.inr (Or.inl ⟨field, word, v, hknown, hv, hc⟩)
    · rename_i word hhead
      rw [hhead] at hknown
      split at h
      · rename_i blocks hblocks
        rw [ofJson_of_head_connective hhead hblocks] at hread
        obtain ⟨children, hchildren, hc⟩ := Outcome.map_eq_ok_iff.1 hread
        exact Or.inr (Or.inr ⟨ms, word, blocks, children, rfl, hknown, hblocks, hchildren, hc.symm⟩)
      · cases h
  · cases h

/-- What is read is expressible. -/
theorem expressible_of_ofJson {j : Json} {c : Condition} (h : ofJson j = .ok c) : c.Expressible := by
  rcases ofJson_eq_ok_cases h with rfl | ⟨field, word, v, hword, hv, rfl⟩ |
    ⟨ms, word, blocks, children, rfl, hword, hblocks, hchildren, rfl⟩
  · exact expressible_empty
  · exact expressible_compare_iff.2 ⟨hword, hv⟩
  · refine expressible_group_iff.2 ⟨hword, fun c hc => ?_⟩
    obtain ⟨b, hb, hbc⟩ := Outcome.exists_mem_of_mem_mapM hchildren hc
    exact expressible_of_ofJson hbc
termination_by sizeOf j
decreasing_by
  -- An item of an array that is a member of an object is smaller than the object.
  subst_vars
  have hmember := Table.sizeOf_get?_lt hblocks
  have hitem := List.sizeOf_lt_of_mem hb
  simp only [Json.array.sizeOf_spec, Json.object.sizeOf_spec] at *
  omega

/-! ## What is written is read back -/

mutual

/-- A condition as JSON: null, an object with `field`, `op` and `value`, or one with `blocks` and `op`. -/
def toJson : Condition → Json
  | .empty => .null
  | .compare field word v =>
    .object [("field", .string field), ("op", .string word), ("value", v.toJson)]
  | .group word children => .object [("blocks", .array (toJsonAll children)), ("op", .string word)]

/-- Some conditions as JSON, each for itself. -/
def toJsonAll : List Condition → List Json
  | [] => []
  | c :: cs => c.toJson :: toJsonAll cs

end

/-- Some conditions are written one by one. -/
theorem toJsonAll_eq (cs : List Condition) : toJsonAll cs = cs.map toJson := by
  induction cs with
  | nil => rfl
  | cons c cs ih => rw [toJsonAll, ih, List.map_cons]

/-- Conditions of which each is read back are read back together. -/
theorem mapM_ofJson_toJsonAll {cs : List Condition} (h : ∀ c ∈ cs, ofJson c.toJson = .ok c) :
    (toJsonAll cs).mapM ofJson = .ok cs := by
  induction cs with
  | nil => rfl
  | cons c cs ih =>
    obtain ⟨hc, hcs⟩ := List.forall_mem_cons.1 h
    rw [toJsonAll, List.mapM_cons, hc, ih hcs]
    rfl

/-- Every expressible condition is read back from the JSON that it is written as. -/
theorem ofJson_toJson {c : Condition} (h : c.Expressible) : ofJson c.toJson = .ok c := by
  induction c using Condition.induction with
  | empty =>
    rw [toJson, ofJson]
  | compare field word v =>
    obtain ⟨hword, hv⟩ := expressible_compare_iff.1 h
    have hhead : Head.ofMembers [("field", .string field), ("op", .string word),
        ("value", v.toJson)] = .comparison word := Head.ofWord_of_mem_comparison hword
    have hmembers : comparisonOfMembers word [("field", .string field), ("op", .string word),
        ("value", v.toJson)] = (Value.ofJson v.toJson).map (.compare field word) := rfl
    rw [toJson, ofJson_of_head_comparison hhead, hmembers, Value.ofJson_toJson hv]
    rfl
  | group word children ih =>
    obtain ⟨hword, hchildren⟩ := expressible_group_iff.1 h
    have hhead : Head.ofMembers [("blocks", .array (toJsonAll children)), ("op", .string word)] =
        .connective word := Head.ofWord_of_mem_connective hword
    have hread : ∀ c ∈ children, ofJson c.toJson = .ok c := fun c hc => ih c hc (hchildren c hc)
    rw [toJson, ofJson_of_head_connective hhead rfl, mapM_ofJson_toJsonAll hread]
    rfl

/-- The objects that a condition is written as are tables. -/
theorem ordered_toJson (c : Condition) : c.toJson.Ordered := by
  induction c using Condition.induction with
  | empty =>
    rw [toJson]
    exact .null
  | compare field word v =>
    have hnames : ["field", "op", "value"].Pairwise fun k l => Ord.compare k l = .lt := by decide
    rw [toJson]
    refine .object hnames ?_
    simp only [List.forall_mem_cons]
    exact ⟨.string field, .string word, v.ordered_toJson, fun m hm => absurd hm List.not_mem_nil⟩
  | group word children ih =>
    have hnames : ["blocks", "op"].Pairwise fun k l => Ord.compare k l = .lt := by decide
    have hblocks : ∀ j ∈ toJsonAll children, j.Ordered := by
      rw [toJsonAll_eq]
      exact List.forall_mem_map.2 ih
    rw [toJson]
    refine .object hnames ?_
    simp only [List.forall_mem_cons]
    exact ⟨.array hblocks, .string word, fun m hm => absurd hm List.not_mem_nil⟩

/-! ## What was read compiles -/

/-- An expressible condition fails to compile only for a field that occurs in it and is not allowed. -/
theorem outcome_compile_of_expressible {c : Condition} (h : c.Expressible) (allowed : AllowList) :
    (∃ f, (c.compile allowed).outcome = .ok f) ∨
      ∃ field word v, Occurs (.compare field word v) c ∧ allowed.column? field = none ∧
        (c.compile allowed).outcome = .error (.unknownField field) := by
  cases houtcome : (c.compile allowed).outcome with
  | ok f => exact Or.inl ⟨f, rfl⟩
  | error e =>
    obtain ⟨before, n, after, hlist, -, hn⟩ := outcome_compile_eq_error_iff.1 houtcome
    have hmem : n ∈ c.preorder := by
      rw [hlist]
      exact List.mem_append_right _ List.mem_cons_self
    have hwritable := h n hmem
    -- The words of an expressible condition are known, so only a field is left to be unknown.
    cases hn with
    | connective hword => exact absurd hwritable hword
    | field hfield => exact Or.inr ⟨_, _, _, mem_preorder_iff.1 hmem, hfield, rfl⟩
    | comparison hfield hword => exact absurd hwritable.1 hword

/-- The conditions that are read from JSON values are the expressible ones, and JSON values whose objects
are tables are enough for all of them.  What was read compiles under any allow-list, or fails for a field
that occurs in it and is not allowed. -/
theorem reading_agrees_with_compiling (c : Condition) :
    ((∃ j, ofJson j = .ok c) ↔ c.Expressible) ∧
    ((∃ j : Json, j.Ordered ∧ ofJson j = .ok c) ↔ c.Expressible) ∧
    ∀ j, ofJson j = .ok c → ∀ allowed,
      (∃ f, (c.compile allowed).outcome = .ok f) ∨
        ∃ field word v, Occurs (.compare field word v) c ∧ allowed.column? field = none ∧
          (c.compile allowed).outcome = .error (.unknownField field) := by
  refine ⟨?_, ?_, ?_⟩
  · constructor
    · rintro ⟨j, hj⟩
      exact expressible_of_ofJson hj
    · intro h
      exact ⟨c.toJson, ofJson_toJson h⟩
  · constructor
    · rintro ⟨j, -, hj⟩
      exact expressible_of_ofJson hj
    · intro h
      exact ⟨c.toJson, ordered_toJson c, ofJson_toJson h⟩
  · intro j hj allowed
    exact outcome_compile_of_expressible (expressible_of_ofJson hj) allowed

end Condition

end BoundSql
