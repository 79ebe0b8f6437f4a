import BoundSql.Proofs.SortOrder.Grammar

/-!
# Sort orders put together

Items may be read list by list.  The sort orders that come of it, put together in the order of the lists,
are what all items at once are read as, and if some lists are rejected, the error is that of the first of
them (`SortOrder.ofItems_flatten`).  It does not matter in which groups sort orders are put together
(`SortOrder.concat_flatten`), and orders without columns leave no trace in the clause: it lists what the
clauses of the others list (`SortOrder.clause_concat`).
-/

namespace BoundSql

/-- Texts of several lists are joined list by list; the empty lists have no part in it. -/
theorem intercalate_flatten (separator : String) (lists : List (List String)) :
    separator.intercalate lists.flatten =
      separator.intercalate ((lists.filter fun l => !l.isEmpty).map separator.intercalate) := by
  induction lists with
  | nil => rfl
  | cons l lists ih =>
    cases l with
    | nil => exact ih
    | cons text texts =>
      have hfirst : ((text :: texts) :: lists).filter (fun l => !l.isEmpty) =
          (text :: texts) :: lists.filter fun l => !l.isEmpty := rfl
      rw [hfirst, List.map_cons, List.flatten_cons]
      by_cases hrest : lists.flatten = []
      · have hnone : lists.filter (fun l => !l.isEmpty) = [] := by
          rw [List.filter_eq_nil_iff]
          intro l hl
          simp [List.flatten_eq_nil_iff.1 hrest l hl]
        rw [hrest, hnone, List.append_nil, List.map_nil, String.intercalate_singleton]
      · have hsome : (lists.filter fun l => !l.isEmpty).map separator.intercalate ≠ [] := by
          intro hnil
          rw [List.map_eq_nil_iff, List.filter_eq_nil_iff] at hnil
          refine hrest (List.flatten_eq_nil_iff.2 fun l hl => ?_)
          simpa using hnil l hl
        rw [String.intercalate_append_of_ne_nil (List.cons_ne_nil text texts) hrest, ih,
          String.intercalate_cons_of_ne_nil hsome]

namespace SortOrder

/-! ## Reading lists of items -/

/-- Items after others are read after them. -/
theorem ofItems_append (xs ys : List String) (allowed : AllowList) :
    ofItems (xs ++ ys) allowed = do
      let o ← ofItems xs allowed
      let p ← ofItems ys allowed
      return concat [o, p] := by
  rw [ofItems, List.mapM_append, ofItems, ofItems]
  cases xs.mapM (column allowed) with
  | error e => rfl
  | ok columns =>
    cases ys.mapM (column allowed) with
    | error e => rfl
    | ok more =>
      have hconcat : concat [⟨columns⟩, ⟨more⟩] = ⟨columns ++ more⟩ := by
        rw [concat, List.flatMap_cons, List.flatMap_singleton]
      exact congrArg Except.ok hconcat.symm

/-- An order put before others. -/
theorem concat_cons (o : SortOrder) (orders : List SortOrder) :
    concat (o :: orders) = concat [o, concat orders] := by
  rw [concat, concat, List.flatMap_cons, List.flatMap_cons, List.flatMap_singleton, concat]

/-- Lists of items may be read one by one. -/
theorem ofItems_flatten (lists : List (List String)) (allowed : AllowList) :
    ofItems lists.flatten allowed = do
      let orders ← lists.mapM fun items => ofItems items allowed
      return concat orders := by
  induction lists with
  | nil => rfl
  | cons items lists ih =>
    rw [List.flatten_cons, ofItems_append, ih, List.mapM_cons]
    cases ofItems items allowed with
    | error e => rfl
    | ok o =>
      cases lists.mapM fun items => ofItems items allowed with
      | error e => rfl
      | ok orders => exact congrArg Except.ok (concat_cons o orders).symm

/-! ## Putting sort orders together -/

/-- Orders may be put together group by group. -/
theorem concat_flatten (groups : List (List SortOrder)) :
    concat groups.flatten = concat (groups.map concat) := by
  rw [concat, concat, List.flatten_eq_flatMap, List.flatMap_assoc, List.flatMap_map]
  rfl

/-- Without columns there is nothing to sort by. -/
theorem isEmpty_iff {o : SortOrder} : o.isEmpty = true ↔ o.columns = [] :=
  List.isEmpty_iff

/-- Orders that are put together have a column if one of them has. -/
theorem isEmpty_concat_iff {orders : List SortOrder} :
    (concat orders).isEmpty = true ↔ ∀ o ∈ orders, o.isEmpty = true := by
  rw [isEmpty_iff, concat, List.flatMap_eq_nil_iff]
  exact forall₂_congr fun o _ => isEmpty_iff.symm

/-- A clause without text is one without columns. -/
theorem isEmpty_clause_iff {o : SortOrder} : o.clause.isEmpty = true ↔ o.isEmpty = true := by
  rw [clause]
  split
  · rename_i hempty
    exact iff_of_true rfl hempty
  · rename_i hsome
    refine iff_of_false (fun htext => ?_) hsome
    have hlist : "order by " ++ ", ".intercalate o.columns = "" := String.isEmpty_iff.1 htext
    exact absurd (String.append_eq_empty_iff.1 hlist).1 (by decide)

/-- The clause of orders that are put together lists what the clauses of those with columns list. -/
theorem clause_concat (orders : List SortOrder) :
    ∃ listings : List String,
      ((orders.filter fun o => !o.isEmpty).map fun o => o.clause.text) =
        listings.map ("order by " ++ ·) ∧
      (concat orders).clause =
        if ∀ o ∈ orders, o.isEmpty then .empty
        else .raw ("order by " ++ ", ".intercalate listings) := by
  refine ⟨(orders.filter fun o => !o.isEmpty).map fun o => ", ".intercalate o.columns, ?_, ?_⟩
  · rw [List.map_map]
    refine List.map_congr_left fun o ho => ?_
    have hcolumns : o.columns ≠ [] := by
      have hsome := (List.mem_filter.1 ho).2
      rwa [Bool.not_eq_true', ← Bool.not_eq_true, isEmpty_iff] at hsome
    rw [text_clause, if_neg hcolumns]
    rfl
  · have hlists : ", ".intercalate (concat orders).columns =
        ", ".intercalate ((orders.filter fun o => !o.isEmpty).map fun o => ", ".intercalate o.columns) := by
      have hflatten : (concat orders).columns = (orders.map columns).flatten := List.flatMap_def
      rw [hflatten, intercalate_flatten, List.filter_map, List.map_map]
      rfl
    rw [clause, if_congr isEmpty_concat_iff rfl rfl, hlists]

/-- Items that follow others are read as these are and then they, and put together; the error is that of the
first items if they are rejected, and that of the others if only they are.  The same holds for any number
of lists.  Sort orders may be put together in groups.  What is put together has a clause unless no order
has one, and the clause lists what the clauses of the orders list, without gaps for those that have none. -/
theorem reading_and_putting_together (allowed : AllowList) :
    (∀ xs ys : List String, ofItems (xs ++ ys) allowed =
      match ofItems xs allowed, ofItems ys allowed with
      | .error e, _ => .error e
      | .ok _, .error e => .error e
      | .ok o, .ok p => .ok (concat [o, p])) ∧
    (∀ lists : List (List String), ofItems lists.flatten allowed = do
      let orders ← lists.mapM fun items => ofItems items allowed
      return concat orders) ∧
    (∀ groups : List (List SortOrder), concat groups.flatten = concat (groups.map concat)) ∧
    ∀ orders : List SortOrder,
      ((concat orders).clause.isEmpty ↔ ∀ o ∈ orders, o.isEmpty) ∧
      ∃ listings : List String,
        ((orders.filter fun o => !o.isEmpty).map fun o => o.clause.text) =
          listings.map ("order by " ++ ·) ∧
        (concat orders).clause =
          if ∀ o ∈ orders, o.isEmpty then .empty
          else .raw ("order by " ++ ", ".intercalate listings) := by
  refine ⟨fun xs ys => ?_, fun lists => ofItems_flatten lists allowed, concat_flatten, fun orders => ?_⟩
  · rw [ofItems_append]
    cases ofItems xs allowed with
    | error e => rfl
    | ok o => cases ofItems ys allowed <;> rfl
  · exact ⟨isEmpty_clause_iff.trans isEmpty_concat_iff, clause_concat orders⟩

/-- Orders without columns leave no gap, and a column without text is still one of the list. -/
example :
    (concat [empty, ⟨["", "a"]⟩, empty, ⟨["b desc"]⟩, empty]).clause.text = "order by , a, b desc" := by
  decide

end SortOrder

end BoundSql
