import BoundSql.AllowList
import BoundSql.Proofs.Condition.Machine
import BoundSql.Proofs.Grammar
import Mathlib.Data.List.TakeDrop
import Mathlib.Data.List.TakeWhile

/-!
# The grammar of sort orders

What the items of a sort order denote under an allow-list (`SortOrder.Denotes`) and what is wrong with the
others (`SortOrder.Rejected`).  An item is cut at its first space, if it has one, so the name of a field
never has a space.  What follows the space has to be the word of a direction, and this is looked at before
the field.

Sort orders are read as the grammar says (`SortOrder.reading_items_is_exact`).  All that is taken over from
an item is which field of the allow-list it names and which of the two directions.
-/

namespace BoundSql

namespace SortDirection

/-- A direction is named by its own word and by no other. -/
theorem ofWord_eq_ok_iff {word : String} {d : SortDirection} : ofWord word = .ok d ↔ word = d.word := by
  constructor
  · intro h
    unfold ofWord at h
    split at h <;> cases h <;> rfl
  · rintro rfl
    cases d <;> rfl

/-- A word that names no direction is what is wrong with it. -/
theorem ofWord_eq_error_of_forall {word : String} (h : ∀ d : SortDirection, word ≠ d.word) :
    ofWord word = .error (.unknownDirection word) := by
  unfold ofWord
  split
  · exact absurd rfl (h .ascending)
  · exact absurd rfl (h .descending)
  · rfl

end SortDirection

namespace SortOrder

/-! ## The grammar -/

/-- The columns, with or without a direction, that items denote. -/
inductive Denotes (allowed : AllowList) : String → String → Prop
  | field {field column : String} (hspace : ' ' ∉ field.toList)
      (hcolumn : allowed.column? field = some column) : Denotes allowed field column
  | directed {field column : String} (direction : SortDirection) (hspace : ' ' ∉ field.toList)
      (hcolumn : allowed.column? field = some column) :
      Denotes allowed (field ++ " " ++ direction.word) (column ++ " " ++ direction.word)

/-- What is wrong with the items that denote nothing. -/
inductive Rejected (allowed : AllowList) : String → Error → Prop
  | direction {field word : String} (hspace : ' ' ∉ field.toList)
      (hword : ∀ direction : SortDirection, word ≠ direction.word) :
      Rejected allowed (field ++ " " ++ word) (.unknownDirection word)
  | field {field : String} (hspace : ' ' ∉ field.toList) (hcolumn : allowed.column? field = none) :
      Rejected allowed field (.unknownField field)
  | directed {field : String} (direction : SortDirection) (hspace : ' ' ∉ field.toList)
      (hcolumn : allowed.column? field = none) :
      Rejected allowed (field ++ " " ++ direction.word) (.unknownField field)

/-- Whether an entry of a sort order consists of a column of the allow-list and, at most, a direction. -/
def IsEntry (allowed : AllowList) (entry : String) : Prop :=
  ∃ field column, allowed.column? field = some column ∧
    (entry = column ∨ ∃ direction : SortDirection, entry = column ++ " " ++ direction.word)

/-- What an item denotes is an entry. -/
theorem Denotes.isEntry {allowed : AllowList} {item entry : String} (h : Denotes allowed item entry) :
    IsEntry allowed entry := by
  cases h with
  | field hspace hcolumn => exact ⟨_, _, hcolumn, Or.inl rfl⟩
  | directed direction hspace hcolumn => exact ⟨_, _, hcolumn, Or.inr ⟨direction, rfl⟩⟩

/-! ## Reading an item -/

/-- The characters of a field with something after a space. -/
theorem toList_append_space (field modifier : String) :
    (field ++ " " ++ modifier).toList = field.toList ++ ' ' :: modifier.toList := by
  rw [String.toList_append, String.toList_append, List.append_assoc]
  rfl

/-- The cut looks for no other character than the space. -/
theorem forall_ne_of_not_mem {cs : List Char} (h : ' ' ∉ cs) : ∀ c ∈ cs, (c != ' ') = true :=
  fun _ hc => bne_iff_ne.2 fun hspace => h (hspace ▸ hc)

/-- An item without a space is a field. -/
theorem splitItem_of_not_mem {item : String} (h : ' ' ∉ item.toList) : splitItem item = (item, none) := by
  have hall := forall_ne_of_not_mem h
  rw [splitItem, List.span_eq_takeWhile_dropWhile, List.takeWhile_eq_self_iff.2 hall,
    List.dropWhile_eq_nil_iff.2 hall]
  simp only [String.ofList_toList]

/-- An item is cut at its first space. -/
theorem splitItem_append {field : String} (h : ' ' ∉ field.toList) (modifier : String) :
    splitItem (field ++ " " ++ modifier) = (field, some modifier) := by
  have hall := forall_ne_of_not_mem h
  rw [splitItem, toList_append_space, List.span_eq_takeWhile_dropWhile,
    List.takeWhile_append_of_pos hall, List.dropWhile_append_of_pos hall,
    List.takeWhile_cons_of_neg (by decide), List.dropWhile_cons_of_neg (by decide), List.append_nil]
  simp only [String.ofList_toList]

/-- An item without a space stands for the column of the field. -/
theorem column_of_not_mem {item : String} (h : ' ' ∉ item.toList) (allowed : AllowList) :
    column allowed item = allowed.columnOf item := by
  rw [column, splitItem_of_not_mem h]

/-- An item with a space stands for a column with a direction. -/
theorem column_append {field : String} (h : ' ' ∉ field.toList) (allowed : AllowList)
    (modifier : String) :
    column allowed (field ++ " " ++ modifier) = do
      let direction ← SortDirection.ofWord modifier
      let column ← allowed.columnOf field
      return column ++ " " ++ direction.word := by
  rw [column, splitItem_append h]

/-- Each item is a field, or a field and something after a space. -/
theorem field_or_append (item : String) :
    ' ' ∉ item.toList ∨
      ∃ field modifier, ' ' ∉ field.toList ∧ item = field ++ " " ++ modifier := by
  by_cases hmem : ' ' ∈ item.toList
  · obtain ⟨left, right, hitem, hleft⟩ := List.eq_append_cons_of_mem hmem
    refine Or.inr ⟨String.ofList left, String.ofList right, by rwa [String.toList_ofList], ?_⟩
    rw [← String.toList_inj, hitem, toList_append_space, String.toList_ofList, String.toList_ofList]
  · exact Or.inl hmem

/-- Items are read as the grammar says. -/
theorem follows (allowed : AllowList) :
    Follows (column allowed) (Denotes allowed) (Rejected allowed) where
  ok_of_denotes := by
    intro item entry h
    cases h with
    | field hspace hcolumn =>
      rw [column_of_not_mem hspace]
      exact AllowList.columnOf_eq_ok_iff.2 hcolumn
    | directed direction hspace hcolumn =>
      rw [column_append hspace, SortDirection.ofWord_eq_ok_iff.2 rfl, Outcome.ok_bind,
        AllowList.columnOf_eq_ok_iff.2 hcolumn]
      rfl
  error_of_rejected := by
    intro item e h
    cases h with
    | direction hspace hword =>
      rw [column_append hspace, SortDirection.ofWord_eq_error_of_forall hword, Outcome.error_bind]
    | field hspace hcolumn =>
      rw [column_of_not_mem hspace]
      exact AllowList.columnOf_eq_error_iff.2 ⟨hcolumn, rfl⟩
    | directed direction hspace hcolumn =>
      rw [column_append hspace, SortDirection.ofWord_eq_ok_iff.2 rfl, Outcome.ok_bind,
        AllowList.columnOf_eq_error_iff.2 ⟨hcolumn, rfl⟩, Outcome.error_bind]
  denotes_or_rejected := by
    intro item
    rcases field_or_append item with hspace | ⟨field, modifier, hspace, rfl⟩
    · cases hcolumn : allowed.column? item with
      | some column => exact Or.inl ⟨column, .field hspace hcolumn⟩
      | none => exact Or.inr ⟨_, .field hspace hcolumn⟩
    · by_cases hword : ∃ direction : SortDirection, modifier = direction.word
      · obtain ⟨direction, rfl⟩ := hword
        cases hcolumn : allowed.column? field with
        | some column => exact Or.inl ⟨_, .directed direction hspace hcolumn⟩
        | none => exact Or.inr ⟨_, .directed direction hspace hcolumn⟩
      · exact Or.inr ⟨_, .direction hspace fun direction h => hword ⟨direction, h⟩⟩

/-! ## Reading a list of items -/

section

variable {allowed other : AllowList} {items : List String} {o : SortOrder} {e : Error}

/-- A list of items is read when all of them are. -/
theorem ofItems_eq_ok_iff :
    ofItems items allowed = .ok o ↔ List.Forall₂ (Denotes allowed) items o.columns := by
  rw [ofItems, Outcome.bind_eq_ok_iff, ← (follows allowed).list.eq_ok_iff]
  constructor
  · rintro ⟨columns, hread, ho⟩
    obtain rfl := Except.ok.inj ho
    exact hread
  · exact fun hread => ⟨o.columns, hread, rfl⟩

/-- A list of items is rejected with the first of them that is. -/
theorem ofItems_eq_error_iff :
    ofItems items allowed = .error e ↔ FirstRejected (Denotes allowed) (Rejected allowed) items e := by
  rw [ofItems, Outcome.bind_eq_error_iff, ← (follows allowed).list.eq_error_iff]
  constructor
  · rintro (hread | ⟨columns, -, hpure⟩)
    · exact hread
    · cases hpure
  · exact Or.inl

/-- An item is read with the entries of the allow-list for fields without a space. -/
theorem column_congr (h : ∀ field, ' ' ∉ field.toList → other.column? field = allowed.column? field)
    (item : String) : column other item = column allowed item := by
  rcases field_or_append item with hspace | ⟨field, modifier, hspace, rfl⟩
  · rw [column_of_not_mem hspace, column_of_not_mem hspace, AllowList.columnOf, AllowList.columnOf,
      h item hspace]
  · rw [column_append hspace, column_append hspace, AllowList.columnOf, AllowList.columnOf,
      h field hspace]

/-- The clause lists the entries, if there are any. -/
theorem text_clause (o : SortOrder) :
    o.clause.text = if o.columns = [] then "" else "order by " ++ ", ".intercalate o.columns := by
  rw [clause, isEmpty]
  cases o.columns <;> rfl

end

/-- A list of items is read as a sort order exactly if each of them is a field of the allow-list whose name
has no space, or such a field, one space and the word of a direction.  Its entries are, item by item, the
columns of these fields with the same directions, and the text of the clause has nothing but these.
Otherwise the error is that of the first item that is neither: what follows its first space, if that is
not the word of a direction, whether the field is known or not, and else the field.  Fields whose names
have a space make no difference. -/
theorem reading_items_is_exact (allowed : AllowList) (items : List String) :
    ((∃ o, ofItems items allowed = .ok o) ↔ ∀ item ∈ items, ∃ entry, Denotes allowed item entry) ∧
    (∀ o, ofItems items allowed = .ok o ↔ List.Forall₂ (Denotes allowed) items o.columns) ∧
    (∀ o, ofItems items allowed = .ok o → (∀ entry ∈ o.columns, IsEntry allowed entry) ∧
      o.clause.text = if items = [] then "" else "order by " ++ ", ".intercalate o.columns) ∧
    (∀ e, ofItems items allowed = .error e ↔
      ∃ before item after, items = before ++ item :: after ∧
        (∀ x ∈ before, ∃ entry, Denotes allowed x entry) ∧ Rejected allowed item e) ∧
    ∀ other : AllowList,
      (∀ field, ' ' ∉ field.toList → other.column? field = allowed.column? field) →
        ofItems items other = ofItems items allowed := by
  refine ⟨?_, fun o => ofItems_eq_ok_iff, ?_, fun e => ofItems_eq_error_iff, ?_⟩
  · rw [← exists_forall₂_iff]
    constructor
    · rintro ⟨o, ho⟩
      exact ⟨o.columns, ofItems_eq_ok_iff.1 ho⟩
    · rintro ⟨columns, hcolumns⟩
      exact ⟨⟨columns⟩, ofItems_eq_ok_iff.2 hcolumns⟩
  · intro o ho
    have hdenotes := ofItems_eq_ok_iff.1 ho
    refine ⟨fun entry hentry => ?_, ?_⟩
    · obtain ⟨item, -, hitem⟩ := Outcome.exists_mem_of_mem_mapM
        ((follows allowed).list.ok_of_denotes hdenotes) hentry
      exact ((follows allowed).eq_ok_iff.1 hitem).isEntry
    · have hempty : items = [] ↔ o.columns = [] := by
        rw [← List.length_eq_zero_iff, hdenotes.length_eq, List.length_eq_zero_iff]
      rw [text_clause, if_congr hempty rfl rfl]
  · intro other hother
    have hcolumn : column other = column allowed := funext (column_congr hother)
    rw [ofItems, ofItems, hcolumn]

/-- The empty field, a field that is named as a direction, and a field that is named as another one with a
direction: the last is never what an item names.  Of two spaces the second belongs to what should be a
direction, and is rejected before the unknown field in front of it. -/
theorem reading_items_is_exact_of_lookalikes :
    let bare := AllowList.ofPairs [("", "t.e"), ("asc", "t.asc"), ("a", "t.a")]
    let allowed := bare.allow "a asc" "t.aa"
    let items := ["a asc", " desc", "asc asc", "asc"]
    let o : SortOrder := ⟨["t.a asc", "t.e desc", "t.asc asc", "t.asc"]⟩
    ofItems items allowed = .ok o ∧ o.clause.text = "order by t.a asc, t.e desc, t.asc asc, t.asc" ∧
      ofItems ["a", "b  desc", "c"] allowed = .error (.unknownDirection " desc") ∧
      (∀ field, ' ' ∉ field.toList → bare.column? field = allowed.column? field) ∧
      ofItems items bare = .ok o := by
  intro bare allowed items o
  obtain ⟨-, hok, htext, -, hother⟩ := reading_items_is_exact allowed items
  obtain ⟨-, -, -, herror, -⟩ := reading_items_is_exact allowed ["a", "b  desc", "c"]
  have ha : Denotes allowed "a asc" "t.a asc" :=
    .directed .ascending (by decide : ' ' ∉ "a".toList) (rfl : allowed.column? "a" = some "t.a")
  have hempty : Denotes allowed " desc" "t.e desc" :=
    .directed .descending (by decide : ' ' ∉ "".toList) (rfl : allowed.column? "" = some "t.e")
  have hasc : Denotes allowed "asc asc" "t.asc asc" :=
    .directed .ascending (by decide : ' ' ∉ "asc".toList) (rfl : allowed.column? "asc" = some "t.asc")
  have hdenotes : List.Forall₂ (Denotes allowed) items o.columns :=
    .cons ha (.cons hempty (.cons hasc (.cons (.field (by decide) rfl) .nil)))
  have hitems : ofItems items allowed = .ok o := (hok o).2 hdenotes
  have hword : ∀ direction : SortDirection, " desc" ≠ direction.word := by
    intro direction
    cases direction <;> decide
  have hrejected : Rejected allowed "b  desc" (.unknownDirection " desc") :=
    .direction (by decide : ' ' ∉ "b".toList) hword
  have hagree : ∀ field, ' ' ∉ field.toList → bare.column? field = allowed.column? field := by
    intro field hspace
    have hne : "a asc" ≠ field := by
      rintro rfl
      exact hspace (by decide)
    rw [AllowList.column?_allow, if_neg hne]
  refine ⟨hitems, (htext o hitems).2, (herror _).2 ⟨["a"], "b  desc", ["c"], rfl, ?_, hrejected⟩, hagree,
    (hother bare hagree).trans hitems⟩
  exact List.forall_mem_singleton.2 ⟨"t.a", .field (by decide) rfl⟩

end SortOrder

end BoundSql
