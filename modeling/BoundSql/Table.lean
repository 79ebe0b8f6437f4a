/-!
# Tables in key order

A `Table` holds one value per key, in ascending order of the keys.  It is a plain list of pairs, so
its order can be shown and walked; `Table.insert` keeps it ascending (`Table.Ascending.insert`) and
replaces the value of a key that is already there (`Table.get?_insert`).
-/

namespace BoundSql

/-- Pairs of a key and a value; every table that is built by `Table.insert` ascends strictly. -/
abbrev Table (κ α : Type) := List (κ × α)

namespace Table

variable {κ α : Type}

/-- The table without keys. -/
def empty : Table κ α := []

/-- The value of a key. -/
def get? [DecidableEq κ] : Table κ α → κ → Option α
  | [], _ => none
  | (k, v) :: t, key => if k = key then some v else get? t key

/-- The table in which `key` has the value `value`, whether it had one before or not. -/
def insert [Ord κ] : Table κ α → κ → α → Table κ α
  | [], key, value => [(key, value)]
  | (k, v) :: t, key, value =>
    match compare key k with
    | .lt => (key, value) :: (k, v) :: t
    | .eq => (key, value) :: t
    | .gt => (k, v) :: insert t key value

/-- The pairs inserted in order, so that the last pair of a key wins. -/
def insertAll [Ord κ] (t : Table κ α) (pairs : List (κ × α)) : Table κ α :=
  pairs.foldl (fun t p => t.insert p.1 p.2) t

/-- The table of a list of pairs; of two pairs with one key the later wins. -/
def ofPairs [Ord κ] (pairs : List (κ × α)) : Table κ α := insertAll empty pairs

/-- The keys in ascending order. -/
def keys (t : Table κ α) : List κ := t.map Prod.fst

/-- Whether the keys ascend strictly, so that no key occurs twice. -/
def Ascending [Ord κ] (t : Table κ α) : Prop :=
  t.keys.Pairwise fun k l => compare k l = .lt

@[simp] theorem keys_empty : (empty : Table κ α).keys = [] := rfl

@[simp] theorem insertAll_nil [Ord κ] (t : Table κ α) : t.insertAll [] = t := rfl

@[simp] theorem insertAll_cons [Ord κ] (t : Table κ α) (p : κ × α) (pairs : List (κ × α)) :
    t.insertAll (p :: pairs) = (t.insert p.1 p.2).insertAll pairs := rfl

/-- An insertion changes the value of its key and of no other. -/
theorem get?_insert [DecidableEq κ] [Ord κ] [Std.LawfulEqOrd κ] (t : Table κ α) (key : κ) (value : α)
    (k : κ) : (t.insert key value).get? k = if key = k then some value else t.get? k := by
  induction t with
  | nil => rfl
  | cons p t ih =>
    obtain ⟨l, v⟩ := p
    unfold insert
    cases h : compare key l with
    | lt => rfl
    | eq =>
      have hkl : key = l := Std.compare_eq_iff_eq.1 h
      subst hkl
      by_cases hk : key = k <;> simp [get?, hk]
    | gt =>
      have hkl : key ≠ l := fun e => by
        rw [Std.compare_eq_iff_eq.2 e] at h
        exact Ordering.noConfusion h
      simp only [get?, ih]
      by_cases hlk : l = k
      · subst hlk
        simp [hkl]
      · simp [hlk]

/-- The keys of a table after an insertion. -/
theorem mem_keys_insert [Ord κ] [Std.LawfulEqOrd κ] (t : Table κ α) (key : κ) (value : α) (k : κ) :
    k ∈ (t.insert key value).keys ↔ k = key ∨ k ∈ t.keys := by
  induction t with
  | nil => simp [insert, keys]
  | cons p t ih =>
    obtain ⟨l, v⟩ := p
    unfold insert
    cases h : compare key l with
    | lt => simp [keys]
    | eq =>
      have hkl : key = l := Std.compare_eq_iff_eq.1 h
      subst hkl
      simp [keys]
    | gt =>
      simp only [keys, List.map_cons, List.mem_cons] at ih ⊢
      rw [ih]
      exact or_left_comm

/-- An insertion keeps a table ascending. -/
theorem Ascending.insert [Ord κ] [Std.TransOrd κ] [Std.LawfulEqOrd κ] {t : Table κ α}
    (h : t.Ascending) (key : κ) (value : α) : (t.insert key value).Ascending := by
  induction t with
  | nil => exact List.pairwise_singleton _ _
  | cons p t ih =>
    obtain ⟨l, v⟩ := p
    obtain ⟨hl, ht⟩ := List.pairwise_cons.1 h
    unfold Table.insert
    cases hc : compare key l with
    | lt =>
      refine List.pairwise_cons.2 ⟨fun k hk => ?_, h⟩
      rcases List.mem_cons.1 hk with rfl | hk
      · exact hc
      · exact Std.TransCmp.lt_trans hc (hl k hk)
    | eq =>
      have hkl : key = l := Std.compare_eq_iff_eq.1 hc
      subst hkl
      exact h
    | gt =>
      refine List.pairwise_cons.2 ⟨fun k hk => ?_, ih ht⟩
      rcases (mem_keys_insert t key value k).1 hk with rfl | hk
      · exact Std.OrientedCmp.gt_iff_lt.1 hc
      · exact hl k hk

/-- Insertions keep a table ascending. -/
theorem Ascending.insertAll [Ord κ] [Std.TransOrd κ] [Std.LawfulEqOrd κ] {t : Table κ α}
    (h : t.Ascending) (pairs : List (κ × α)) : (t.insertAll pairs).Ascending := by
  induction pairs generalizing t with
  | nil => exact h
  | cons p pairs ih => exact ih (h.insert p.1 p.2)

/-- A table of pairs is ascending. -/
theorem ascending_ofPairs [Ord κ] [Std.TransOrd κ] [Std.LawfulEqOrd κ] (pairs : List (κ × α)) :
    (ofPairs pairs).Ascending := by
  have h : (empty : Table κ α).Ascending := List.Pairwise.nil
  exact h.insertAll pairs

end Table

end BoundSql
