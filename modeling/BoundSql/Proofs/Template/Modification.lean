import BoundSql.Proofs.Fragment.Composition
import BoundSql.Proofs.Fragment.Regrouping
import BoundSql.Proofs.Template.Grammar
import BoundSql.Proofs.Template.Independence
import BoundSql.Proofs.Template.Pieces
import BoundSql.Template.Commands
import Mathlib.Data.List.Perm.Basic

/-!
# Statements that change rows

An insert writes its names at one place and its values at another, and an update writes its condition after
its assignments.  Nothing in a statement says which value belongs to which name but the order, and these
templates keep it: names, texts of values and values come in the order of the fields, with what the table
brings before and with what the condition brings after them (`Statement.inserted`, `Statement.updated`).
A generation of such a template succeeds exactly when all its segments bring something and the marks are as
many as the values (`Template.outcome_generate_insert_eq_ok_iff`,
`Template.outcome_generate_update_eq_ok_iff`).
-/

namespace BoundSql

namespace Statement

/-- The statement that inserts a row into a table, with the columns that are returned. -/
def inserted (table : Statement) (assigned : List (String × Statement)) (output : Option String) :
    Statement where
  sql := "insert into " ++ table.sql ++ "(" ++ ", ".intercalate (assigned.map Prod.fst) ++ ")\n" ++
    (output.map ("output " ++ ·)).getD "" ++ "\n" ++
    "values (" ++ ", ".intercalate (assigned.map fun a => a.2.sql) ++ ")"
  values := table.values ++ assigned.flatMap fun a => a.2.values

/-- The statement that updates the rows of a table that meet a condition. -/
def updated (table : Statement) (assigned : List (String × Statement)) (condition : Statement) :
    Statement where
  sql := "update " ++ table.sql ++ "\n" ++
    "set " ++ ", ".intercalate (assigned.map fun a => a.1 ++ " = " ++ a.2.sql) ++ "\n" ++ condition.sql
  values := table.values ++ (assigned.flatMap fun a => a.2.values) ++ condition.values

end Statement

namespace Template

variable {blocks : Key → Option Fragment} {values : Key → Option Value} {b : Bindings}

/-- Whether a name is given what the segment of its field brings. -/
structure Assigned (b : Bindings) (field : String × Segment) (a : String × Statement) : Prop where
  name : a.1 = field.1
  value : field.2.Brings b a.2

/-- What is assigned for a field: its name and the piece of its segment. -/
def assignedPiece (b : Bindings) (field : String × Segment) : String × Statement :=
  (field.1, field.2.piece b)

/-- Fields are assigned their pieces, if nothing of them is open, and nothing else. -/
theorem forall₂_assigned_iff {fields : List (String × Segment)} {assigned : List (String × Statement)} :
    List.Forall₂ (Assigned b) fields assigned ↔
      (∀ field ∈ fields, field.2.IsClosed b) ∧ assigned = fields.map (assignedPiece b) := by
  have hassigned : Assigned b = fun field a => field.2.IsClosed b ∧ assignedPiece b field = a := by
    funext field a
    refine propext ⟨fun h => ?_, fun h => ?_⟩
    · obtain ⟨hclosed, hpiece⟩ := Segment.brings_iff.1 h.value
      exact ⟨hclosed, Prod.ext h.name.symm hpiece.symm⟩
    · obtain ⟨hclosed, rfl⟩ := h
      exact ⟨rfl, Segment.brings_iff.2 ⟨hclosed, rfl⟩⟩
  rw [hassigned, List.forall₂_and_left, ← List.forall₂_map_left_iff, List.forall₂_eq_eq_eq, eq_comm]

/-! ## Segments with texts between them -/

/-- Separated segments have texts around them. -/
theorem framed_separated (separator : String) (segments : List Segment) :
    Framed segments (Segment.separated separator segments) := by
  induction segments using Segment.separated.induct with
  | case1 => exact .nil
  | case2 s => exact .refl [s]
  | case3 s segments hne ih =>
    rw [Segment.separated]
    · exact .given s (.text separator ih)
    · exact hne

/-- Separated segments have their texts with the separator between neighbours. -/
theorem textOf_separated (separator : String) (segments : List Segment) :
    textOf blocks (Segment.separated separator segments) =
      separator.intercalate (segments.map fun s => textOf blocks [s]) := by
  induction segments using Segment.separated.induct with
  | case1 => rfl
  | case2 s => rw [Segment.separated, List.map_singleton, String.intercalate_singleton]
  | case3 s segments hne ih =>
    have hrest : (segments.map fun s => textOf blocks [s]) ≠ [] := fun h => hne (List.map_eq_nil_iff.1 h)
    rw [Segment.separated, textOf_cons, textOf_text_cons, ih, List.map_cons,
      String.intercalate_cons_of_ne_nil hrest, String.append_assoc]
    exact hne

/-- Assignments are the segments of the fields with texts around them. -/
theorem framed_assignments (lead : String) (fields : List (String × Segment)) :
    Framed (fields.map Prod.snd) (assignments lead fields) := by
  induction fields generalizing lead with
  | nil => exact .nil
  | cons field fields ih => exact .text _ (.given field.2 (ih ", "))

/-- Assignments after others have a comma before each. -/
theorem textOf_assignments_comma (fields : List (String × Segment)) :
    textOf blocks (assignments ", " fields) =
      String.join ((fields.map fun field => field.1 ++ " = " ++ textOf blocks [field.2]).map (", " ++ ·)) := by
  induction fields with
  | nil => rfl
  | cons field fields ih =>
    rw [assignments, textOf_text_cons, textOf_cons, ih, List.map_cons, List.map_cons, String.join_cons]
    simp only [String.append_assoc]

/-- All assignments have a comma between neighbours. -/
theorem textOf_assignments (fields : List (String × Segment)) :
    textOf blocks (assignments "" fields) =
      ", ".intercalate (fields.map fun field => field.1 ++ " = " ++ textOf blocks [field.2]) := by
  cases fields with
  | nil => rfl
  | cons field fields =>
    rw [assignments, textOf_text_cons, textOf_cons, textOf_assignments_comma, List.map_cons,
      Fragment.intercalate_cons, String.empty_append]
    simp only [String.append_assoc]

/-! ## Inserting -/

/-- An insert is made of the table and the values, with texts around them. -/
theorem framed_insert (table : Segment) (fields : List (String × Segment)) (output : Option String) :
    Framed (table :: fields.map Prod.snd) (insert table fields output).segments := by
  have hvalues : Framed (fields.map Prod.snd)
      (Segment.separated ", " (fields.map Prod.snd) ++ [.text ")"]) := by
    simpa only [List.append_nil] using (framed_separated ", " (fields.map Prod.snd)).append (.text ")" .nil)
  exact .text _ (.given table (.text _ (.text _ (.text _ (.text _ hvalues)))))

/-- The text of an insert. -/
theorem textOf_insert (table : Segment) (fields : List (String × Segment)) (output : Option String) :
    textOf b.block? (insert table fields output).segments =
      (Statement.inserted (table.piece b) (fields.map (assignedPiece b)) output).sql := by
  unfold insert ofSegments Statement.inserted Segment.piece
  simp only [List.cons_append, List.nil_append, textOf_text_cons]
  rw [textOf_cons]
  simp only [textOf_text_cons, textOf_append, textOf_separated, textOf_nil,
    String.append_empty, String.append_assoc, List.map_map]
  cases output <;> rfl

/-- An insert of what its segments bring is left to be counted. -/
theorem outcome_generate_insert {table : Segment} {fields : List (String × Segment)} {t : Statement}
    {assigned : List (String × Statement)} (ht : table.Brings b t)
    (hassigned : List.Forall₂ (Assigned b) fields assigned) (output : Option String) :
    ((insert table fields output).generate b).outcome =
      Statement.checked (Statement.inserted t assigned output).sql
        (Statement.inserted t assigned output).values := by
  obtain ⟨htable, rfl⟩ := Segment.brings_iff.1 ht
  obtain ⟨hfields, rfl⟩ := forall₂_assigned_iff.1 hassigned
  have hgiven : ∀ x ∈ table :: fields.map Prod.snd, x.IsClosed b :=
    List.forall_mem_cons.2 ⟨htable, List.forall_mem_map.2 hfields⟩
  refine (outcome_generate_of_isClosed (framed_insert table fields output) hgiven).trans ?_
  rw [textOf_insert, List.flatMap_cons, List.flatMap_map]
  unfold Statement.inserted
  rw [List.flatMap_map]
  rfl

/-- An insert gives a statement if the table and all values bring something and the marks are as many as the
values; the statement is made of what they bring. -/
theorem outcome_generate_insert_eq_ok_iff {table : Segment} {fields : List (String × Segment)}
    {output : Option String} {s : Statement} :
    ((insert table fields output).generate b).outcome = .ok s ↔
      ∃ t assigned, table.Brings b t ∧ List.Forall₂ (Assigned b) fields assigned ∧
        markCount s.sql = s.values.length ∧ s = .inserted t assigned output := by
  constructor
  · intro h
    obtain ⟨htable, hfields⟩ :=
      List.forall_mem_cons.1 (isClosed_of_outcome_generate (framed_insert table fields output) h)
    have ht : table.Brings b (table.piece b) := Segment.brings_iff.2 ⟨htable, rfl⟩
    have hassigned := forall₂_assigned_iff.2 ⟨List.forall_mem_map.1 hfields, rfl⟩
    rw [outcome_generate_insert ht hassigned, Statement.checked_eq_ok_iff] at h
    obtain ⟨hmarks, rfl⟩ := h
    exact ⟨_, _, ht, hassigned, hmarks, rfl⟩
  · rintro ⟨t, assigned, ht, hassigned, hmarks, rfl⟩
    rw [outcome_generate_insert ht hassigned, Statement.checked_eq_ok_iff]
    exact ⟨hmarks, rfl⟩

/-! ### Fields that are left open -/

/-- Fields whose values are looked up under their names. -/
def openSegments (names : List String) : List (String × Segment) :=
  (openFields names).map fun field => (field.1, .fragment field.2)

/-- A name with a mark and the value that is bound to the name, if there is one. -/
def boundField? (b : Bindings) (name : String) : Option (String × Statement) :=
  (b.value? (.name name)).map fun v => (name, ⟨"?", [v]⟩)

/-- The names that are bound, each with a mark and its value. -/
def boundFields (b : Bindings) (names : List String) : List (String × Statement) :=
  names.filterMap (boundField? b)

/-- The segments of open fields are marks. -/
theorem snd_openSegments (names : List String) :
    (openSegments names).map Prod.snd =
      names.map fun name => .fragment (Placeholder.ofKey (.name name)).mark := by
  rw [openSegments, openFields, List.map_map, List.map_map]
  rfl

/-- Open fields miss no block. -/
theorem openBlock?_openSegments (names : List String) :
    openBlock? blocks ((openSegments names).map Prod.snd) = none := by
  rw [snd_openSegments]
  refine List.findSome?_eq_none_iff.2 fun s hs => ?_
  obtain ⟨name, -, rfl⟩ := List.mem_map.1 hs
  rfl

/-- Open fields miss the value of the first name that is not bound. -/
theorem openValue?_openSegments (names : List String) :
    openValue? values (argsOf blocks ((openSegments names).map Prod.snd)) =
      (names.find? fun name => (values (.name name)).isNone).map Key.name := by
  rw [snd_openSegments]
  induction names with
  | nil => rfl
  | cons name names ih =>
    have hfirst : openValue? values (Placeholder.ofKey (.name name) : Placeholder Value).mark.args =
        (Placeholder.ofKey (.name name) : Placeholder Value).openKey? values := List.findSome?_singleton
    rw [List.map_cons, argsOf_cons, argsOf_fragment, openValue?_append, ih, hfirst,
      Placeholder.openKey?, Placeholder.filled?, List.find?_cons]
    cases hname : values (.name name) with
    | none => simp [Placeholder.ofKey, hname]
    | some v => simp [Placeholder.ofKey, hname]

/-- Open fields are given the values that are bound to their names. -/
theorem forall₂_openSegments {names : List String}
    (h : ∀ name ∈ names, ∃ v, b.value? (.name name) = some v) :
    List.Forall₂ (Assigned b) (openSegments names) (boundFields b names) := by
  induction names with
  | nil => exact .nil
  | cons name names ih =>
    obtain ⟨⟨v, hv⟩, hnames⟩ := List.forall_mem_cons.1 h
    have hfirst : boundField? b name = some (name, ⟨"?", [v]⟩) := by
      rw [boundField?, hv]
      rfl
    have hfilled : (Placeholder.ofKey (.name name)).filled? b.value? = some v := by
      rw [Placeholder.filled?, Placeholder.ofKey, hv]
      rfl
    rw [boundFields, List.filterMap_cons_some hfirst]
    exact .cons ⟨rfl, Segment.brings_mark_iff.2 ⟨v, hfilled, rfl⟩⟩ (ih hnames)

/-- If all names are bound, there is one for each. -/
theorem fst_boundFields {names : List String}
    (h : ∀ name ∈ names, ∃ v, b.value? (.name name) = some v) :
    (boundFields b names).map Prod.fst = names := by
  obtain ⟨-, hpieces⟩ := forall₂_assigned_iff.1 (forall₂_openSegments h)
  rw [hpieces, openSegments, openFields, List.map_map, List.map_map, List.map_map]
  exact List.map_id names

/-- Every bound field has one mark. -/
theorem sum_markCount_boundFields (names : List String) :
    ((boundFields b names).map fun a => markCount a.2.sql).sum = (boundFields b names).length := by
  have hone : ∀ a ∈ boundFields b names, markCount a.2.sql = 1 := by
    intro a ha
    obtain ⟨name, -, hname⟩ := List.mem_filterMap.1 ha
    obtain ⟨v, -, rfl⟩ := Option.map_eq_some_iff.1 hname
    exact Fragment.markCount_mark (.value v)
  rw [List.map_congr_left hone, List.map_const', List.sum_replicate_nat, Nat.mul_one]

/-- Every bound field has one value. -/
theorem length_flatMap_boundFields (names : List String) :
    ((boundFields b names).flatMap fun a => a.2.values).length = (boundFields b names).length := by
  have hone : ∀ a ∈ boundFields b names, a.2.values.length = 1 := by
    intro a ha
    obtain ⟨name, -, hname⟩ := List.mem_filterMap.1 ha
    obtain ⟨v, -, rfl⟩ := Option.map_eq_some_iff.1 hname
    rfl
  rw [List.length_flatMap, List.map_congr_left hone, List.map_const', List.sum_replicate_nat,
    Nat.mul_one]

/-- The marks of an insert are those of the table, the names, the output columns and the values. -/
theorem markCount_inserted (t : Statement) (assigned : List (String × Statement))
    (output : Option String) :
    markCount (Statement.inserted t assigned output).sql =
      ((t.sql :: (assigned.map Prod.fst ++ output.toList)).map markCount).sum +
        (assigned.map fun a => markCount a.2.sql).sum := by
  unfold Statement.inserted
  -- The texts of the template itself have no marks.
  simp (disch := decide) only [markCount_append, Fragment.markCount_intercalate,
    markCount_eq_zero_iff.mpr, List.map_cons, List.map_append, List.map_map, Function.comp_def, List.sum_cons,
    List.sum_append]
  have houtput : markCount ((output.map ("output " ++ ·)).getD "") = (output.toList.map markCount).sum := by
    cases output with
    | none => rfl
    | some columns => simp (disch := decide) [markCount_eq_zero_iff.mpr]
  rw [houtput]
  omega

/-- An insert of open fields into a table that is a plain text: the first name that is not bound is missing,
and otherwise the texts that are given have to be free of marks. -/
theorem outcome_generate_insert_openSegments (sql : String) (names : List String) (output : Option String) :
    ((insert (.text sql) (openSegments names) output).generate b).outcome =
      match names.find? fun name => (b.value? (.name name)).isNone with
      | some name => .error (.missing .value (.name name))
      | none =>
        if ∀ text ∈ sql :: (names ++ output.toList), '?' ∉ text.toList then
          .ok (.inserted ⟨sql, []⟩ (boundFields b names) output)
        else
          .error (.countMismatch
            (((sql :: (names ++ output.toList)).map markCount).sum + names.length) names.length) := by
  cases hfind : names.find? fun name => (b.value? (.name name)).isNone with
  | some name =>
    refine (outcome_generate_ofSegments (insert (.text sql) (openSegments names) output).segments b).trans ?_
    rw [statementOf, (framed_insert ..).openBlock?_eq, (framed_insert ..).argsOf_eq, openBlock?_text_cons,
      argsOf_text_cons, openBlock?_openSegments, openValue?_openSegments, hfind]
    rfl
  | none =>
    have hbound : ∀ name ∈ names, ∃ v, b.value? (.name name) = some v := by
      intro name hname
      have hsome := List.find?_eq_none.1 hfind name hname
      exact Option.ne_none_iff_exists'.1 fun hnone => hsome (by rw [hnone]; rfl)
    have hlength : (boundFields b names).length = names.length := by
      have hnames := congrArg List.length (fst_boundFields hbound)
      rwa [List.length_map] at hnames
    have hmarks : markCount (Statement.inserted ⟨sql, []⟩ (boundFields b names) output).sql =
        ((sql :: (names ++ output.toList)).map markCount).sum + names.length := by
      rw [markCount_inserted, fst_boundFields hbound, sum_markCount_boundFields, hlength]
    have hvalues : (Statement.inserted ⟨sql, []⟩ (boundFields b names) output).values.length =
        names.length := by
      unfold Statement.inserted
      rw [List.nil_append, length_flatMap_boundFields, hlength]
    have hfree : (∀ text ∈ sql :: (names ++ output.toList), '?' ∉ text.toList) ↔
        ((sql :: (names ++ output.toList)).map markCount).sum = 0 := by
      rw [List.sum_eq_zero_iff_forall_eq_nat, List.forall_mem_map]
      exact forall₂_congr fun text _ => markCount_eq_zero_iff.symm
    rw [outcome_generate_insert (Segment.brings_text_iff.2 rfl) (forall₂_openSegments hbound),
      Statement.checked, hmarks, hvalues]
    refine if_congr ?_ rfl rfl
    rw [hfree]
    exact Nat.add_eq_right

/-- An insert keeps the names and the values of its fields in one order.  It gives a statement if the table and
all values bring something and the marks are as many as the values.  The text names the fields and then gives
the texts of their values, both in the order of the fields, and the values are those of the table and then
those of the fields, in this order as well.  If the fields are left open and the table is a plain text, then
the first name that is not bound is missing; if all names are bound, the statement has one mark and one value
for each, unless the table, the names or the output columns hold a mark. -/
theorem insert_pairs_names_with_values (output : Option String) (b : Bindings) :
    (∀ (table : Segment) (fields : List (String × Segment)) (s : Statement),
      ((insert table fields output).generate b).outcome = .ok s ↔
        ∃ t assigned, table.Brings b t ∧ List.Forall₂ (Assigned b) fields assigned ∧
          markCount s.sql = s.values.length ∧ s = .inserted t assigned output) ∧
    ∀ (sql : String) (names : List String),
      ((insert (.text sql) (openSegments names) output).generate b).outcome =
        match names.find? fun name => (b.value? (.name name)).isNone with
        | some name => .error (.missing .value (.name name))
        | none =>
          if ∀ text ∈ sql :: (names ++ output.toList), '?' ∉ text.toList then
            .ok (.inserted ⟨sql, []⟩ (boundFields b names) output)
          else
            .error (.countMismatch
              (((sql :: (names ++ output.toList)).map markCount).sum + names.length) names.length) :=
  ⟨fun _ _ _ => outcome_generate_insert_eq_ok_iff,
    fun sql names => outcome_generate_insert_openSegments sql names output⟩

/-! ## Updating -/

/-- An update is made of the table, the values and the condition, with texts around them. -/
theorem framed_update (table : Segment) (fields : List (String × Segment)) (condition : Segment) :
    Framed (table :: (fields.map Prod.snd ++ [condition])) (update table fields condition).segments :=
  .text _ (.given table (.text _ (.text _
    ((framed_assignments "" fields).append (.text _ (.refl [condition]))))))

/-- The text of an update. -/
theorem textOf_update (table : Segment) (fields : List (String × Segment)) (condition : Segment) :
    textOf b.block? (update table fields condition).segments =
      (Statement.updated (table.piece b) (fields.map (assignedPiece b)) (condition.piece b)).sql := by
  unfold update ofSegments Statement.updated Segment.piece
  simp only [List.cons_append, List.nil_append, textOf_text_cons]
  rw [textOf_cons]
  simp only [textOf_text_cons, textOf_append, textOf_assignments, String.append_assoc, List.map_map]
  rfl

/-- An update of what its segments bring is left to be counted. -/
theorem outcome_generate_update {table condition : Segment} {fields : List (String × Segment)}
    {t c : Statement} {assigned : List (String × Statement)} (ht : table.Brings b t)
    (hassigned : List.Forall₂ (Assigned b) fields assigned) (hc : condition.Brings b c) :
    ((update table fields condition).generate b).outcome =
      Statement.checked (Statement.updated t assigned c).sql (Statement.updated t assigned c).values := by
  obtain ⟨htable, rfl⟩ := Segment.brings_iff.1 ht
  obtain ⟨hfields, rfl⟩ := forall₂_assigned_iff.1 hassigned
  obtain ⟨hcondition, rfl⟩ := Segment.brings_iff.1 hc
  have hgiven : ∀ x ∈ table :: (fields.map Prod.snd ++ [condition]), x.IsClosed b := by
    rw [List.forall_mem_cons, List.forall_mem_append, List.forall_mem_map, List.forall_mem_singleton]
    exact ⟨htable, hfields, hcondition⟩
  refine (outcome_generate_of_isClosed (framed_update table fields condition) hgiven).trans ?_
  rw [textOf_update, List.flatMap_cons, List.flatMap_append, List.flatMap_map, List.flatMap_singleton]
  unfold Statement.updated
  rw [List.flatMap_map, List.append_assoc]
  rfl

/-- An update gives a statement if the table, all values and the condition bring something and the marks are as
many as the values; the statement is made of what they bring. -/
theorem outcome_generate_update_eq_ok_iff {table condition : Segment} {fields : List (String × Segment)}
    {s : Statement} :
    ((update table fields condition).generate b).outcome = .ok s ↔
      ∃ t assigned c, table.Brings b t ∧ List.Forall₂ (Assigned b) fields assigned ∧
        condition.Brings b c ∧ markCount s.sql = s.values.length ∧ s = .updated t assigned c := by
  constructor
  · intro h
    have hgiven := isClosed_of_outcome_generate (framed_update table fields condition) h
    rw [List.forall_mem_cons, List.forall_mem_append, List.forall_mem_map, List.forall_mem_singleton]
      at hgiven
    obtain ⟨htable, hfields, hcondition⟩ := hgiven
    have ht : table.Brings b (table.piece b) := Segment.brings_iff.2 ⟨htable, rfl⟩
    have hassigned := forall₂_assigned_iff.2 ⟨hfields, rfl⟩
    have hc : condition.Brings b (condition.piece b) := Segment.brings_iff.2 ⟨hcondition, rfl⟩
    rw [outcome_generate_update ht hassigned hc, Statement.checked_eq_ok_iff] at h
    obtain ⟨hmarks, rfl⟩ := h
    exact ⟨_, _, _, ht, hassigned, hc, hmarks, rfl⟩
  · rintro ⟨t, assigned, c, ht, hassigned, hc, hmarks, rfl⟩
    rw [outcome_generate_update ht hassigned hc, Statement.checked_eq_ok_iff]
    exact ⟨hmarks, rfl⟩

/-- Assignments in another order have the same marks. -/
theorem markCount_updated_of_perm {assigned assigned' : List (String × Statement)}
    (h : assigned.Perm assigned') (t c : Statement) :
    markCount (Statement.updated t assigned c).sql = markCount (Statement.updated t assigned' c).sql := by
  have hcomma : markCount ", " = 0 := rfl
  have hlist : markCount (", ".intercalate (assigned.map fun a => a.1 ++ " = " ++ a.2.sql)) =
      markCount (", ".intercalate (assigned'.map fun a => a.1 ++ " = " ++ a.2.sql)) := by
    rw [Fragment.markCount_intercalate hcomma, Fragment.markCount_intercalate hcomma]
    exact ((h.map _).map markCount).sum_nat
  unfold Statement.updated
  simp only [markCount_append, hlist]

/-- Assignments in another order have as many values. -/
theorem length_values_updated_of_perm {assigned assigned' : List (String × Statement)}
    (h : assigned.Perm assigned') (t c : Statement) :
    (Statement.updated t assigned c).values.length = (Statement.updated t assigned' c).values.length := by
  have hvalues := (h.flatMap_right fun a => a.2.values).length_eq
  unfold Statement.updated
  rw [List.length_append, List.length_append, List.length_append, List.length_append, hvalues]

/-- The value of a placeholder that is bound is what is bound to its key, wherever the placeholder stands. -/
theorem getElem?_values_of_bound {segments given : List Segment} {s : Statement}
    (hframed : Framed given segments) (h : ((ofSegments segments).generate b).outcome = .ok s) {i : Nat}
    {p : Placeholder Value} {v : Value}
    (hi : (argsOf b.block? given)[i]? = some (.placeholder p)) (hv : b.value? p.key = some v) :
    s.values[i]? = some v := by
  rw [outcome_generate_ofSegments] at h
  obtain ⟨-, hopen, -, rfl⟩ := statementOf_eq_ok_iff.1 h
  have hfilled : (Argument.placeholder p).filled? b.value? = some v := by
    change (b.value? p.key).or p.default? = some v
    rw [hv, Option.some_or]
  rw [getElem?_valuesOf hopen, hframed.argsOf_eq, hi]
  exact hfilled

/-- An update keeps its assignments and its condition apart and in order.  It gives a statement if the table,
all values and the condition bring something and the marks are as many as the values; the text and the
values are those of the table, then those of the assignments in their order, and then those of the
condition.  A placeholder that is bound is given the same value at all its places, be they in assignments or
in the condition.  The same assignments in another order have the same pieces in that order, with the table
and the condition where they were. -/
theorem update_keeps_parts_in_order (table condition : Segment) (fields : List (String × Segment))
    (b : Bindings) :
    (∀ s, ((update table fields condition).generate b).outcome = .ok s ↔
      ∃ t assigned c, table.Brings b t ∧ List.Forall₂ (Assigned b) fields assigned ∧
        condition.Brings b c ∧ markCount s.sql = s.values.length ∧ s = .updated t assigned c) ∧
    ∀ s, ((update table fields condition).generate b).outcome = .ok s →
      (∀ (i : Nat) (p : Placeholder Value) (v : Value),
        (argsOf b.block? (table :: (fields.map Prod.snd ++ [condition])))[i]? = some (.placeholder p) →
        b.value? p.key = some v → s.values[i]? = some v) ∧
      ∀ fields', fields.Perm fields' →
        ∃ t assigned assigned' c, table.Brings b t ∧ condition.Brings b c ∧
          List.Forall₂ (Assigned b) fields assigned ∧ List.Forall₂ (Assigned b) fields' assigned' ∧
          assigned.Perm assigned' ∧ s = .updated t assigned c ∧
          ((update table fields' condition).generate b).outcome = .ok (.updated t assigned' c) := by
  refine ⟨fun s => outcome_generate_update_eq_ok_iff, fun s hs => ⟨?_, ?_⟩⟩
  · intro i p v hi hv
    exact getElem?_values_of_bound (framed_update table fields condition) hs hi hv
  · intro fields' hperm
    obtain ⟨t, assigned, c, ht, hassigned, hc, hmarks, rfl⟩ := outcome_generate_update_eq_ok_iff.1 hs
    obtain ⟨assigned', hassigned', hperm'⟩ := List.perm_comp_forall₂ hperm.symm hassigned
    refine ⟨t, assigned, assigned', c, ht, hc, hassigned, hassigned', hperm'.symm, rfl, ?_⟩
    rw [outcome_generate_update_eq_ok_iff]
    refine ⟨t, assigned', c, ht, hassigned', hc, ?_, rfl⟩
    rw [markCount_updated_of_perm hperm', length_values_updated_of_perm hperm']
    exact hmarks

/-- An update with one placeholder in an assignment and in the condition, and with its assignments in the other
order. -/
theorem update_keeps_parts_in_order_of_shared_key :
    let p : Placeholder Value := .ofKey (.name "k")
    let fields : List (String × Segment) := [("a", .fragment p.mark), ("b", .text "now()")]
    let fields' : List (String × Segment) := [("b", .text "now()"), ("a", .fragment p.mark)]
    let condition : Segment := .fragment ⟨"where c = ? or d = ?", [.value (.int 3), .placeholder p]⟩
    let b := Bindings.empty.bindValue (.name "k") (.int 7)
    let s : Statement :=
      ⟨"update t\nset a = ?, b = now()\nwhere c = ? or d = ?", [.int 7, .int 3, .int 7]⟩
    let args := argsOf b.block? (.text "t" :: (fields.map Prod.snd ++ [condition]))
    ((update (.text "t") fields condition).generate b).outcome = .ok s ∧ fields.Perm fields' ∧
      args[0]? = some (.placeholder p) ∧ args[2]? = some (.placeholder p) ∧
      b.value? p.key = some (.int 7) ∧ s.values[0]? = some (.int 7) ∧ s.values[2]? = some (.int 7) ∧
      ∃ t assigned assigned' c, Segment.Brings b (.text "t") t ∧ condition.Brings b c ∧
        List.Forall₂ (Assigned b) fields assigned ∧ List.Forall₂ (Assigned b) fields' assigned' ∧
        assigned.Perm assigned' ∧ s = .updated t assigned c ∧
        ((update (.text "t") fields' condition).generate b).outcome = .ok (.updated t assigned' c) := by
  intro p fields fields' condition b s args
  have hs : ((update (.text "t") fields condition).generate b).outcome = .ok s := by
    simp only [fields, condition, b, s, p]
    rfl
  have hperm : fields.Perm fields' := .swap _ _ _
  have hfirst : args[0]? = some (.placeholder p) := rfl
  have hlast : args[2]? = some (.placeholder p) := rfl
  have hbound : b.value? p.key = some (.int 7) := rfl
  obtain ⟨-, hkept⟩ := update_keeps_parts_in_order (.text "t") condition fields b
  obtain ⟨hplaces, horder⟩ := hkept s hs
  exact ⟨hs, hperm, hfirst, hlast, hbound, hplaces 0 p _ hfirst hbound, hplaces 2 p _ hlast hbound,
    horder fields' hperm⟩

end Template

end BoundSql
