import BoundSql.Template.Basic

/-!
# Stored overrides

What the tables of a template store for a key.  Building a template registers the keys of its segments
without storing anything for them, so nothing is found under any key until it is overridden.  After that
it is the last override of the key that is found (`Template.storedBlock?_overrideBlocks`), and under the
other keys what was found before.
-/

namespace BoundSql

namespace Table

variable {κ α : Type} [DecidableEq κ]

/-- The value of the last pair of a key. -/
def last? (pairs : List (κ × α)) (key : κ) : Option α := pairs.reverse.lookup key

@[simp] theorem last?_nil (key : κ) : last? ([] : List (κ × α)) key = none := rfl

/-- Of two lists of pairs the later one decides. -/
theorem last?_append (ps qs : List (κ × α)) (key : κ) :
    last? (ps ++ qs) key = (last? qs key).or (last? ps key) := by
  rw [last?, List.reverse_append, List.lookup_append]
  rfl

/-- The only pair is the last one of its key. -/
theorem last?_singleton (p : κ × α) (key : κ) :
    last? [p] key = if p.1 = key then some p.2 else none := by
  rw [last?, List.reverse_singleton, List.lookup_cons]
  by_cases h : p.1 = key
  · rw [if_pos h, h, beq_self_eq_true]
  · rw [if_neg h, beq_false_of_ne (Ne.symm h)]
    rfl

/-- A pair is the last one of its key if no later pair is. -/
theorem last?_cons (p : κ × α) (pairs : List (κ × α)) (key : κ) :
    last? (p :: pairs) key = (last? pairs key).or (if p.1 = key then some p.2 else none) := by
  rw [← last?_singleton, ← last?_append, List.singleton_append]

/-- A key has no last pair when it has none. -/
theorem last?_eq_none_iff {pairs : List (κ × α)} {key : κ} :
    last? pairs key = none ↔ key ∉ pairs.map Prod.fst := by
  rw [last?, List.lookup_eq_none_iff]
  constructor
  · intro h hkey
    obtain ⟨p, hp, rfl⟩ := List.mem_map.1 hkey
    exact absurd rfl (bne_iff_ne.1 (h p (List.mem_reverse.2 hp)))
  · intro h p hp
    rw [bne_iff_ne]
    rintro rfl
    exact h (List.mem_map_of_mem (List.mem_reverse.1 hp))

/-- What is done to the values is done to the last one. -/
theorem last?_map {β : Type} (g : α → β) (pairs : List (κ × α)) (key : κ) :
    last? (pairs.map fun p => (p.1, g p.2)) key = (last? pairs key).map g := by
  induction pairs with
  | nil => rfl
  | cons p pairs ih =>
    rw [List.map_cons, last?_cons, last?_cons, ih]
    by_cases h : p.1 = key
    · cases last? pairs key <;> simp [h]
    · cases last? pairs key <;> simp [h]

variable [Ord κ] [Std.LawfulEqOrd κ]

/-- After the insertion of pairs a key has the value of its last pair, else the one it had. -/
theorem get?_insertAll (t : Table κ α) (pairs : List (κ × α)) (key : κ) :
    (t.insertAll pairs).get? key = (last? pairs key).or (t.get? key) := by
  induction pairs generalizing t with
  | nil => rfl
  | cons p pairs ih =>
    rw [insertAll_cons, ih, last?_cons, Option.or_assoc, get?_insert]
    by_cases h : p.1 = key
    · rw [if_pos h, if_pos h, Option.some_or]
    · rw [if_neg h, if_neg h, Option.none_or]

/-- Registering keys stores nothing under any key. -/
theorem join_get?_insertAll_none {t : Table κ (Option α)} (h : ∀ key, (t.get? key).join = none)
    (keys : List κ) (key : κ) :
    ((t.insertAll (keys.map fun k => (k, none))).get? key).join = none := by
  induction keys generalizing t with
  | nil => exact h key
  | cons k keys ih =>
    rw [List.map_cons, insertAll_cons]
    refine ih fun key' => ?_
    rw [get?_insert]
    by_cases hk : k = key'
    · rw [if_pos hk]
      rfl
    · rw [if_neg hk]
      exact h key'

/-- What is stored for a key is what was stored last. -/
theorem join_get?_insertAll_some (t : Table κ (Option α)) (pairs : List (κ × α)) (key : κ) :
    ((t.insertAll (pairs.map fun p => (p.1, some p.2))).get? key).join =
      (last? pairs key).or (t.get? key).join := by
  rw [get?_insertAll, last?_map]
  cases last? pairs key <;> rfl

end Table

namespace Template

/-- A template that was just built stores no block. -/
@[simp] theorem storedBlock?_ofSegments (segments : List Segment) (key : Key) :
    (ofSegments segments).storedBlock? key = none :=
  Table.join_get?_insertAll_none (fun _ => rfl) _ key

/-- A template that was just built stores no value. -/
@[simp] theorem storedValue?_ofSegments (segments : List Segment) (key : Key) :
    (ofSegments segments).storedValue? key = none :=
  Table.join_get?_insertAll_none (fun _ => rfl) _ key

/-- The block that is found under a key is its last override, else what was stored before. -/
theorem storedBlock?_overrideBlocks (t : Template) (overrides : List (Key × Fragment)) (key : Key) :
    (t.overrideBlocks overrides).storedBlock? key =
      (Table.last? overrides key).or (t.storedBlock? key) :=
  Table.join_get?_insertAll_some t.blocks overrides key

/-- The value that is found under a key is its last override, else what was stored before. -/
theorem storedValue?_overrideValues (t : Template) (overrides : List (Key × Value)) (key : Key) :
    (t.overrideValues overrides).storedValue? key =
      (Table.last? overrides key).or (t.storedValue? key) :=
  Table.join_get?_insertAll_some t.values overrides key

/-- Overriding blocks stores no value. -/
@[simp] theorem storedValue?_overrideBlocks (t : Template) (overrides : List (Key × Fragment))
    (key : Key) : (t.overrideBlocks overrides).storedValue? key = t.storedValue? key := rfl

/-- Overriding values stores no block. -/
@[simp] theorem storedBlock?_overrideValues (t : Template) (overrides : List (Key × Value))
    (key : Key) : (t.overrideValues overrides).storedBlock? key = t.storedBlock? key := rfl

end Template

end BoundSql
