import BoundSql.Condition.Basic

/-!
# Conditions from JSON

A condition is read from `null` or an object.  The member `op` decides: absent, null or empty it is no
condition; one of the eight comparisons takes a `field` and a `value`, or `val` where `value` is
absent; a connective takes its `blocks`.  Other members never matter.
-/

namespace BoundSql

namespace Table

theorem sizeOf_get?_lt {ms : List (String × Json)} {name : String} {j : Json}
    (h : Table.get? ms name = some j) : sizeOf j < sizeOf ms := by
  induction ms with
  | nil => simp [Table.get?] at h
  | cons m ms ih =>
    obtain ⟨k, v⟩ := m
    simp only [Table.get?] at h
    split at h
    · cases h
      simp only [List.cons.sizeOf_spec, Prod.mk.sizeOf_spec]
      omega
    · have := ih h
      simp only [List.cons.sizeOf_spec]
      omega

end Table

namespace Condition

/-- What the member `op` of an object says. -/
inductive Head
  | none
  | comparison (word : String)
  | connective (word : String)
  | bad (cause : OperatorError)

namespace Head

/-- What a word says: nothing, a comparison, a connective, or something unknown. -/
def ofWord (word : String) : Head :=
  if word = "" then .none
  else if (Comparison.ofWord? word).isSome then .comparison word
  else if (Connective.ofWord? word).isSome then .connective word
  else .bad (.condition word)

/-- What an object says by its member `op`. -/
def ofMembers (ms : Table String Json) : Head :=
  match ms.get? "op" with
  | Option.none => .none
  | some .null => .none
  | some (.string word) => ofWord word
  | some other => .bad (.notAWord other)

end Head

/-- The member that holds the value of a comparison: `value`, else `val`. -/
def valueMember? (ms : Table String Json) : Option Json :=
  match ms.get? "value" with
  | some j => some j
  | none => ms.get? "val"

/-- The comparison that an object denotes.  The field is looked at before the value. -/
def comparisonOfMembers (word : String) (ms : Table String Json) : Except Error Condition :=
  match ms.get? "field" with
  | some (.string field) =>
    match valueMember? ms with
    | some j => (Value.ofJson j).map (.compare field word)
    | none => .ok (.compare field word .null)
  | _ => .error (.badShape (.comparisonWithoutField word))

/-- The condition that a JSON value denotes. -/
def ofJson : Json → Except Error Condition
  | .null => .ok .empty
  | .object ms =>
    match Head.ofMembers ms with
    | .none => .ok .empty
    | .bad cause => .error (.unknownOperator cause)
    | .comparison word => comparisonOfMembers word ms
    | .connective word =>
      match _h : Table.get? ms "blocks" with
      | some (.array blocks) =>
        (blocks.attach.mapM fun b => ofJson b.1).map (.group word)
      | _ => .error (.badShape (.groupWithoutBlocks word))
  | other => .error (.badShape (.notAnObject other))
termination_by j => sizeOf j
decreasing_by
  have h1 := Table.sizeOf_get?_lt _h
  have h2 := List.sizeOf_lt_of_mem b.2
  simp only [Json.array.sizeOf_spec, Json.object.sizeOf_spec] at *
  omega

/-- An object that says nothing by its `op` is no condition. -/
theorem ofJson_of_head_none {ms : Table String Json} (h : Head.ofMembers ms = .none) :
    ofJson (.object ms) = .ok .empty := by
  rw [ofJson]
  simp [h]

/-- An object whose `op` is a comparison is one of its field. -/
theorem ofJson_of_head_comparison {ms : Table String Json} {word : String}
    (h : Head.ofMembers ms = .comparison word) :
    ofJson (.object ms) = comparisonOfMembers word ms := by
  rw [ofJson]
  simp [h]

/-- An object whose `op` is a connective is a group of its blocks. -/
theorem ofJson_of_head_connective {ms : Table String Json} {word : String} {blocks : List Json}
    (h : Head.ofMembers ms = .connective word) (hb : ms.get? "blocks" = some (.array blocks)) :
    ofJson (.object ms) = (blocks.mapM ofJson).map (.group word) := by
  rw [ofJson]
  simp only [h]
  split
  · rename_i bs hbs
    rw [hb] at hbs
    cases hbs
    rw [List.mapM_subtype (g := ofJson) fun _ _ => rfl, List.unattach_attach]
  · rename_i hn
    exact absurd hb (hn blocks)

/-- The condition that a JSON text denotes. -/
def ofText (text : String) : Except Error Condition :=
  Json.decodeText (fun j => (ofJson j).mapError .notACondition) text

end Condition

end BoundSql
