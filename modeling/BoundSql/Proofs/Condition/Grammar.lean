import BoundSql.Proofs.Condition.Acceptance
import BoundSql.Proofs.Json.Denotation

/-!
# The grammar of conditions

Which JSON values denote a condition, and which (`Condition.Denotes`), and what is wrong with the others
(`Condition.Rejected`).  Each rule of the grammar names the members of an object that it looks at.  The
member `op` comes first; of a comparison the field comes before the value, which is looked for under
`value` and only where that is absent under `val`; a group is rejected with its first rejected block.

Conditions are read as the grammar says, and by no other member than those it names
(`Condition.reading_is_exact`).
-/

namespace BoundSql

namespace Condition

/-! ## The grammar -/

/-- The conditions that JSON values denote. -/
inductive Denotes : Json → Condition → Prop
  | null : Denotes .null .empty
  | nothing {ms : Table String Json}
      (hop : ms.get? "op" = none ∨ ms.get? "op" = some .null ∨ ms.get? "op" = some (.string "")) :
      Denotes (.object ms) .empty
  | comparison {ms : Table String Json} {word field : String} {j : Json} {v : Value}
      (hop : ms.get? "op" = some (.string word)) (hword : word ∈ Comparison.words)
      (hfield : ms.get? "field" = some (.string field))
      (hvalue : (ms.get? "value").or (ms.get? "val") = some j) (hv : Value.Denotes j v) :
      Denotes (.object ms) (.compare field word v)
  | comparisonWithoutValue {ms : Table String Json} {word field : String}
      (hop : ms.get? "op" = some (.string word)) (hword : word ∈ Comparison.words)
      (hfield : ms.get? "field" = some (.string field))
      (hvalue : (ms.get? "value").or (ms.get? "val") = none) :
      Denotes (.object ms) (.compare field word .null)
  | group {ms : Table String Json} {word : String} {blocks : List Json} {children : List Condition}
      (hop : ms.get? "op" = some (.string word)) (hword : word ∈ Connective.words)
      (hblocks : ms.get? "blocks" = some (.array blocks))
      (hchildren : List.Forall₂ Denotes blocks children) :
      Denotes (.object ms) (.group word children)

/-- What is wrong with the JSON values that denote no condition. -/
inductive Rejected : Json → Error → Prop
  | shape {j : Json} (hnull : j ≠ .null) (hobject : ∀ ms, j ≠ .object ms) :
      Rejected j (.badShape (.notAnObject j))
  | notAWord {ms : Table String Json} {op : Json} (hop : ms.get? "op" = some op)
      (hnull : op ≠ .null) (hstring : ∀ word, op ≠ .string word) :
      Rejected (.object ms) (.unknownOperator (.notAWord op))
  | unknown {ms : Table String Json} {word : String} (hop : ms.get? "op" = some (.string word))
      (hempty : word ≠ "") (hcomparison : word ∉ Comparison.words)
      (hconnective : word ∉ Connective.words) :
      Rejected (.object ms) (.unknownOperator (.condition word))
  | field {ms : Table String Json} {word : String} (hop : ms.get? "op" = some (.string word))
      (hword : word ∈ Comparison.words) (hfield : ∀ field, ms.get? "field" ≠ some (.string field)) :
      Rejected (.object ms) (.badShape (.comparisonWithoutField word))
  | value {ms : Table String Json} {word field : String} {j : Json}
      (hop : ms.get? "op" = some (.string word)) (hword : word ∈ Comparison.words)
      (hfield : ms.get? "field" = some (.string field))
      (hvalue : (ms.get? "value").or (ms.get? "val") = some j) (hj : ¬ j.IsScalar) :
      Rejected (.object ms) .notAValue
  | blocks {ms : Table String Json} {word : String} (hop : ms.get? "op" = some (.string word))
      (hword : word ∈ Connective.words) (hblocks : ∀ blocks, ms.get? "blocks" ≠ some (.array blocks)) :
      Rejected (.object ms) (.badShape (.groupWithoutBlocks word))
  | child {ms : Table String Json} {word : String} {before after : List Json} {b : Json} {e : Error}
      (hop : ms.get? "op" = some (.string word)) (hword : word ∈ Connective.words)
      (hblocks : ms.get? "blocks" = some (.array (before ++ b :: after)))
      (hbefore : ∀ x ∈ before, ∃ c, Denotes x c) (hb : Rejected b e) :
      Rejected (.object ms) e

/-- JSON values that differ, at whatever depth, in no member that a rule of the grammar names. -/
inductive SameMembers : Json → Json → Prop
  | self (j : Json) : SameMembers j j
  | object {ms ms' : Table String Json}
      (h : ∀ name ∈ ["op", "field", "value", "val", "blocks"], ms.get? name = ms'.get? name) :
      SameMembers (.object ms) (.object ms')
  | blocks {ms ms' : Table String Json} {blocks blocks' : List Json}
      (h : ∀ name ∈ ["op", "field", "value", "val"], ms.get? name = ms'.get? name)
      (hblocks : ms.get? "blocks" = some (.array blocks))
      (hblocks' : ms'.get? "blocks" = some (.array blocks'))
      (hsame : List.Forall₂ SameMembers blocks blocks') : SameMembers (.object ms) (.object ms')

/-! ## Reading an object -/

namespace Head

variable {ms ms' : Table String Json} {word : String}

/-- An object without a word in `op` says nothing. -/
theorem ofMembers_eq_none
    (h : ms.get? "op" = Option.none ∨ ms.get? "op" = some .null ∨ ms.get? "op" = some (.string "")) :
    ofMembers ms = .none := by
  rw [ofMembers]
  rcases h with h | h | h
  · rw [h]
  · rw [h]
  · rw [h]
    rfl

/-- An object with a string in `op` says what that word says. -/
theorem ofMembers_eq_ofWord (h : ms.get? "op" = some (.string word)) : ofMembers ms = ofWord word := by
  rw [ofMembers, h]

/-- An `op` that is neither null nor a string is no word. -/
theorem ofMembers_eq_notAWord {op : Json} (h : ms.get? "op" = some op) (hnull : op ≠ .null)
    (hstring : ∀ word, op ≠ .string word) : ofMembers ms = .bad (.notAWord op) := by
  rw [ofMembers, h]
  cases op with
  | null => exact absurd rfl hnull
  | string word => exact absurd rfl (hstring word)
  | _ => rfl

/-- A word that names neither a comparison nor a connective is unknown. -/
theorem ofWord_eq_bad (hempty : word ≠ "") (hcomparison : word ∉ Comparison.words)
    (hconnective : word ∉ Connective.words) : ofWord word = .bad (.condition word) := by
  rw [ofWord, if_neg hempty, if_neg (mt Comparison.isSome_ofWord?_iff.1 hcomparison),
    if_neg (mt Connective.isSome_ofWord?_iff.1 hconnective)]

end Head

variable {ms ms' : Table String Json} {word : String}

/-- An object whose `op` is unknown is no condition. -/
theorem ofJson_of_head_bad {cause : OperatorError} (h : Head.ofMembers ms = .bad cause) :
    ofJson (.object ms) = .error (.unknownOperator cause) := by
  rw [ofJson]
  simp only [h]

/-- An object whose `op` is a connective needs its blocks. -/
theorem ofJson_of_head_connective_without (h : Head.ofMembers ms = .connective word)
    (hblocks : ∀ blocks, ms.get? "blocks" ≠ some (.array blocks)) :
    ofJson (.object ms) = .error (.badShape (.groupWithoutBlocks word)) := by
  rw [ofJson]
  simp only [h]

/-- The value of a comparison is looked for under `value`, and under `val` where that is absent. -/
theorem valueMember?_eq (ms : Table String Json) :
    valueMember? ms = (ms.get? "value").or (ms.get? "val") := by
  rw [valueMember?]
  cases ms.get? "value" <;> rfl

/-- A comparison with a field and a value is read when the value is a scalar. -/
theorem comparisonOfMembers_eq {field : String} {j : Json}
    (hfield : ms.get? "field" = some (.string field))
    (hvalue : (ms.get? "value").or (ms.get? "val") = some j) :
    comparisonOfMembers word ms = (Value.ofJson j).map (.compare field word) := by
  rw [← valueMember?_eq] at hvalue
  simp only [comparisonOfMembers, hfield, hvalue]

/-- A comparison without a value is one with null. -/
theorem comparisonOfMembers_eq_null {field : String}
    (hfield : ms.get? "field" = some (.string field))
    (hvalue : (ms.get? "value").or (ms.get? "val") = none) :
    comparisonOfMembers word ms = .ok (.compare field word .null) := by
  rw [← valueMember?_eq] at hvalue
  simp only [comparisonOfMembers, hfield, hvalue]

/-- A comparison needs a field. -/
theorem comparisonOfMembers_eq_error
    (hfield : ∀ field, ms.get? "field" ≠ some (.string field)) :
    comparisonOfMembers word ms = .error (.badShape (.comparisonWithoutField word)) := by
  rw [comparisonOfMembers]
  split
  · rename_i field hf
    exact absurd hf (hfield field)
  · rfl

/-! ## The reader follows the grammar -/

mutual

/-- What denotes a condition is read as that condition. -/
theorem ofJson_of_denotes {j : Json} {c : Condition} (h : Denotes j c) : ofJson j = .ok c := by
  cases h with
  | null => rw [ofJson]
  | nothing hop => exact ofJson_of_head_none (Head.ofMembers_eq_none hop)
  | comparison hop hword hfield hvalue hv =>
    have hhead := (Head.ofMembers_eq_ofWord hop).trans (Head.ofWord_of_mem_comparison hword)
    rw [ofJson_of_head_comparison hhead, comparisonOfMembers_eq hfield hvalue,
      Value.follows.ok_of_denotes hv]
    rfl
  | comparisonWithoutValue hop hword hfield hvalue =>
    have hhead := (Head.ofMembers_eq_ofWord hop).trans (Head.ofWord_of_mem_comparison hword)
    rw [ofJson_of_head_comparison hhead, comparisonOfMembers_eq_null hfield hvalue]
  | group hop hword hblocks hchildren =>
    have hhead := (Head.ofMembers_eq_ofWord hop).trans (Head.ofWord_of_mem_connective hword)
    rw [ofJson_of_head_connective hhead hblocks,
      Outcome.mapM_eq_ok_of_forall₂ (forall₂_ofJson_of_denotes hchildren)]
    rfl

/-- The same for the items of a list, place by place. -/
theorem forall₂_ofJson_of_denotes {js : List Json} {cs : List Condition}
    (h : List.Forall₂ Denotes js cs) : List.Forall₂ (fun j c => ofJson j = .ok c) js cs := by
  cases h with
  | nil => exact .nil
  | cons hj hjs => exact .cons (ofJson_of_denotes hj) (forall₂_ofJson_of_denotes hjs)

end

/-- What is rejected is read in vain, for the same reason. -/
theorem ofJson_of_rejected {j : Json} {e : Error} (h : Rejected j e) : ofJson j = .error e := by
  induction h with
  | shape hnull hobject =>
    rw [ofJson]
    · exact hnull
    · exact hobject
  | notAWord hop hnull hstring =>
    exact ofJson_of_head_bad (Head.ofMembers_eq_notAWord hop hnull hstring)
  | unknown hop hempty hcomparison hconnective =>
    have hhead := (Head.ofMembers_eq_ofWord hop).trans
      (Head.ofWord_eq_bad hempty hcomparison hconnective)
    exact ofJson_of_head_bad hhead
  | field hop hword hfield =>
    have hhead := (Head.ofMembers_eq_ofWord hop).trans (Head.ofWord_of_mem_comparison hword)
    rw [ofJson_of_head_comparison hhead, comparisonOfMembers_eq_error hfield]
  | value hop hword hfield hvalue hj =>
    have hhead := (Head.ofMembers_eq_ofWord hop).trans (Head.ofWord_of_mem_comparison hword)
    rw [ofJson_of_head_comparison hhead, comparisonOfMembers_eq hfield hvalue,
      Value.follows.error_of_rejected ⟨hj, rfl⟩]
    rfl
  | blocks hop hword hblocks =>
    have hhead := (Head.ofMembers_eq_ofWord hop).trans (Head.ofWord_of_mem_connective hword)
    exact ofJson_of_head_connective_without hhead hblocks
  | child hop hword hblocks hbefore hb ih =>
    have hhead := (Head.ofMembers_eq_ofWord hop).trans (Head.ofWord_of_mem_connective hword)
    have hread : ∀ x ∈ _, ∃ c, ofJson x = .ok c := fun x hx =>
      (hbefore x hx).imp fun c hc => ofJson_of_denotes hc
    rw [ofJson_of_head_connective hhead hblocks, Outcome.mapM_eq_error_of_append hread ih]
    rfl

/-- An object with a comparison in `op` denotes a condition or is rejected. -/
theorem denotes_or_rejected_of_comparison (hop : ms.get? "op" = some (.string word))
    (hword : word ∈ Comparison.words) :
    (∃ c, Denotes (.object ms) c) ∨ ∃ e, Rejected (.object ms) e := by
  by_cases hfield : ∃ field, ms.get? "field" = some (.string field)
  · obtain ⟨field, hfield⟩ := hfield
    cases hvalue : (ms.get? "value").or (ms.get? "val") with
    | none => exact Or.inl ⟨_, .comparisonWithoutValue hop hword hfield hvalue⟩
    | some j =>
      by_cases hj : j.IsScalar
      · obtain ⟨v, hv⟩ := Value.exists_denotes hj
        exact Or.inl ⟨_, .comparison hop hword hfield hvalue hv⟩
      · exact Or.inr ⟨_, .value hop hword hfield hvalue hj⟩
  · exact Or.inr ⟨_, .field hop hword (not_exists.1 hfield)⟩

/-- Every JSON value denotes a condition or is rejected. -/
theorem denotes_or_rejected (j : Json) : (∃ c, Denotes j c) ∨ ∃ e, Rejected j e := by
  cases j with
  | null => exact Or.inl ⟨.empty, .null⟩
  | object ms =>
    cases hop : Table.get? ms "op" with
    | none => exact Or.inl ⟨.empty, .nothing (Or.inl hop)⟩
    | some op =>
      cases op with
      | null => exact Or.inl ⟨.empty, .nothing (Or.inr (Or.inl hop))⟩
      | string word =>
        by_cases hempty : word = ""
        · rw [hempty] at hop
          exact Or.inl ⟨.empty, .nothing (Or.inr (Or.inr hop))⟩
        by_cases hcomparison : word ∈ Comparison.words
        · exact denotes_or_rejected_of_comparison hop hcomparison
        by_cases hconnective : word ∈ Connective.words
        · by_cases hblocks : ∃ blocks, Table.get? ms "blocks" = some (.array blocks)
          · obtain ⟨blocks, hblocks⟩ := hblocks
            rcases forall₂_or_firstRejected fun b (hb : b ∈ blocks) => denotes_or_rejected b with
              ⟨children, hchildren⟩ | ⟨e, before, b, after, rfl, hbefore, hb⟩
            · exact Or.inl ⟨_, .group hop hconnective hblocks hchildren⟩
            · exact Or.inr ⟨e, .child hop hconnective hblocks hbefore hb⟩
          · exact Or.inr ⟨_, .blocks hop hconnective (not_exists.1 hblocks)⟩
        · exact Or.inr ⟨_, .unknown hop hempty hcomparison hconnective⟩
      | _ => exact Or.inr ⟨_, .notAWord hop nofun nofun⟩
  | _ => exact Or.inr ⟨_, .shape nofun nofun⟩
termination_by sizeOf j
decreasing_by
  -- An item of an array that is a member of an object is smaller than the object.
  have hmember := Table.sizeOf_get?_lt hblocks
  have hitem := List.sizeOf_lt_of_mem hb
  simp only [Json.array.sizeOf_spec, Json.object.sizeOf_spec] at *
  omega

/-- Conditions are read as the grammar says. -/
theorem follows : Follows ofJson Denotes Rejected where
  ok_of_denotes := ofJson_of_denotes
  error_of_rejected := ofJson_of_rejected
  denotes_or_rejected := denotes_or_rejected

/-! ## Members that no rule names -/

/-- Objects that agree on `op` and on the members of a comparison are read alike, unless they are groups
that are not. -/
theorem ofJson_congr
    (h : ∀ name ∈ ["op", "field", "value", "val"], ms.get? name = ms'.get? name)
    (hgroup : ∀ word, Head.ofMembers ms = .connective word → Head.ofMembers ms' = .connective word →
      ofJson (.object ms) = ofJson (.object ms')) :
    ofJson (.object ms) = ofJson (.object ms') := by
  have hhead' : Head.ofMembers ms' = Head.ofMembers ms := by
    rw [Head.ofMembers, Head.ofMembers, h "op" (by decide)]
  cases hhead : Head.ofMembers ms with
  | none => rw [ofJson_of_head_none hhead, ofJson_of_head_none (hhead'.trans hhead)]
  | bad cause => rw [ofJson_of_head_bad hhead, ofJson_of_head_bad (hhead'.trans hhead)]
  | comparison word =>
    rw [ofJson_of_head_comparison hhead, ofJson_of_head_comparison (hhead'.trans hhead),
      comparisonOfMembers, comparisonOfMembers, valueMember?_eq, valueMember?_eq,
      h "field" (by decide), h "value" (by decide), h "val" (by decide)]
  | connective word => exact hgroup word hhead (hhead'.trans hhead)

mutual

/-- JSON values that differ in no member that a rule names are read alike. -/
theorem ofJson_of_sameMembers {j j' : Json} (h : SameMembers j j') : ofJson j = ofJson j' := by
  cases h with
  | self => rfl
  | @object ms ms' h =>
    refine ofJson_congr (fun name hname => h name ?_) fun word hhead hhead' => ?_
    · exact List.mem_append_left ["blocks"] hname
    · have hblocks : ms.get? "blocks" = ms'.get? "blocks" := h "blocks" (by decide)
      by_cases harray : ∃ blocks, ms'.get? "blocks" = some (.array blocks)
      · obtain ⟨blocks, harray⟩ := harray
        rw [ofJson_of_head_connective hhead (hblocks.trans harray),
          ofJson_of_head_connective hhead' harray]
      · have hnone := not_exists.1 harray
        have hnone' : ∀ blocks, ms.get? "blocks" ≠ some (.array blocks) := by
          rw [hblocks]
          exact hnone
        rw [ofJson_of_head_connective_without hhead hnone',
          ofJson_of_head_connective_without hhead' hnone]
  | blocks h hblocks hblocks' hsame =>
    have hread := Outcome.mapM_congr_forall₂ (forall₂_ofJson_of_sameMembers hsame)
    refine ofJson_congr h fun word hhead hhead' => ?_
    rw [ofJson_of_head_connective hhead hblocks, ofJson_of_head_connective hhead' hblocks', hread]
termination_by sizeOf j
decreasing_by
  have hmember := Table.sizeOf_get?_lt hblocks
  simp only [Json.array.sizeOf_spec, Json.object.sizeOf_spec] at *
  omega

/-- The same for the items of lists, place by place. -/
theorem forall₂_ofJson_of_sameMembers {js js' : List Json} (h : List.Forall₂ SameMembers js js') :
    List.Forall₂ (fun j j' => ofJson j = ofJson j') js js' := by
  cases h with
  | nil => exact .nil
  | cons hj hjs => exact .cons (ofJson_of_sameMembers hj) (forall₂_ofJson_of_sameMembers hjs)
termination_by sizeOf js

end

/-- A JSON value is read as a condition exactly if it denotes that condition, and otherwise the error is
what it is rejected with.  Members that no rule of the grammar names never matter, at whatever depth. -/
theorem reading_is_exact (j : Json) :
    (∀ c, ofJson j = .ok c ↔ Denotes j c) ∧ (∀ e, ofJson j = .error e ↔ Rejected j e) ∧
    ∀ j', SameMembers j j' → ofJson j = ofJson j' := by
  refine ⟨?_, ?_, ?_⟩
  · intro c
    exact follows.eq_ok_iff
  · intro e
    exact follows.eq_error_iff
  · intro j' h
    exact ofJson_of_sameMembers h

end Condition

end BoundSql
