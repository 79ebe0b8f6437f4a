import BoundSql.Fragment.Named
import BoundSql.Proofs.Template.Independence
import Mathlib.Data.List.TakeWhile

/-!
# Reading SQL with named placeholders loses nothing

A `NamedSql.Splits` derivation says how a text falls into plain characters and placeholders: a name is a
run of name characters that is not empty and that no name character follows, and no plain colon stands
before a name character.  The pieces of a text are such a split (`NamedSql.splits_pieces`), and what is
known of the positional text is shown along the derivation.

`NamedSql.restore` undoes the reading: it puts the names back in the places of the marks.  A text without
marks of its own is read as a fragment from which it can be restored (`NamedSql.ReadsAs`); any other
text is refused, because its own marks have no arguments.
-/

namespace BoundSql

namespace NamedSql

/-- Whether no name goes on with the characters that come next. -/
def EndsName (cs : List Char) : Prop := ∀ c ∈ cs.head?, isNameChar c = false

/-- A text split into plain characters and placeholders with longest names. -/
inductive Splits : List Char → List Piece → Prop
  | nil : Splits [] []
  | named {name rest : List Char} {ps : List Piece} (hname : name ≠ [])
      (hchars : ∀ c ∈ name, isNameChar c = true) (hends : EndsName rest) (hrest : Splits rest ps) :
      Splits (':' :: (name ++ rest)) (.named name :: ps)
  | plain {c : Char} {rest : List Char} {ps : List Piece} (hcolon : c = ':' → EndsName rest)
      (hrest : Splits rest ps) : Splits (c :: rest) (.plain c :: ps)

/-- Where a longest run of name characters is empty, no name goes on. -/
theorem endsName_of_takeWhile_eq_nil {cs : List Char} (h : cs.takeWhile isNameChar = []) :
    EndsName cs := by
  intro c hc
  cases cs with
  | nil => cases hc
  | cons d ds =>
    obtain rfl := Option.some.inj hc
    by_contra hname
    rw [Bool.not_eq_false] at hname
    rw [List.takeWhile_cons_of_pos hname] at h
    cases h

/-- After a longest run of name characters no name goes on. -/
theorem endsName_dropWhile (cs : List Char) : EndsName (cs.dropWhile isNameChar) := by
  intro c hc
  have hhead := List.head?_dropWhile_not isNameChar cs
  rw [Option.mem_def] at hc
  rwa [hc] at hhead

/-- The pieces of a text split it. -/
theorem splits_pieces (cs : List Char) : Splits cs (pieces cs) := by
  fun_induction pieces cs with
  | case1 => exact .nil
  | case2 c cs h ih =>
    obtain ⟨rfl, hname⟩ := h
    have hsplit := Splits.named hname (fun c hc => List.mem_takeWhile_imp hc) (endsName_dropWhile cs) ih
    rwa [List.takeWhile_append_dropWhile] at hsplit
  | case3 c cs h ih =>
    refine .plain (fun hc => ?_) ih
    by_contra hends
    exact h ⟨hc, fun hnil => hends (endsName_of_takeWhile_eq_nil hnil)⟩

/-! ## The positional text -/

/-- The text of some pieces with a `?` for each name. -/
def positionalOf (ps : List Piece) : List Char := ps.flatMap Piece.positional

/-- The names among some pieces. -/
def namesOf (ps : List Piece) : List String := ps.filterMap Piece.name?

/-- The positional text of a SQL text is that of its pieces. -/
@[simp] theorem toList_toPositional (sql : String) :
    (toPositional sql).toList = positionalOf (pieces sql.toList) :=
  String.toList_ofList

/-- The names of a split are not empty and consist of name characters. -/
theorem Splits.isName {cs : List Char} {ps : List Piece} (h : Splits cs ps) :
    ∀ name ∈ namesOf ps, name ≠ "" ∧ ∀ c ∈ name.toList, isNameChar c = true := by
  induction h with
  | nil => exact nofun
  | @named name rest ps hname hchars hends hrest ih =>
    intro n hn
    rcases List.mem_cons.1 hn with rfl | hn
    · exact ⟨fun hempty => hname (String.ofList_eq_empty_iff.1 hempty), by rwa [String.toList_ofList]⟩
    · exact ih n hn
  | plain hcolon hrest ih => exact ih

/-- The marks of the positional text are those of the text and one for each name. -/
theorem Splits.count_positionalOf {cs : List Char} {ps : List Piece} (h : Splits cs ps) :
    (positionalOf ps).count '?' = cs.count '?' + (namesOf ps).length := by
  induction h with
  | nil => rfl
  | @named name rest ps hname hchars hends hrest ih =>
    have hnone : name.count '?' = 0 := List.count_eq_zero.2 fun hmem => by
      have hchar := hchars '?' hmem
      exact absurd hchar (by decide)
    have hcolon : (':' :: (name ++ rest)).count '?' = rest.count '?' := by
      rw [List.count_cons_of_ne (by decide), List.count_append, hnone, Nat.zero_add]
    have hmark : (positionalOf (.named name :: ps)).count '?' = (positionalOf ps).count '?' + 1 :=
      List.count_cons_self
    rw [hcolon, hmark, ih]
    rfl
  | @plain c rest ps hcolon hrest ih =>
    have hplain : positionalOf (.plain c :: ps) = c :: positionalOf ps := rfl
    have hnames : namesOf (.plain c :: ps) = namesOf ps := rfl
    rw [hplain, hnames, List.count_cons, List.count_cons, ih]
    omega

/-- What comes first in the positional text ends a name if what comes first in the text does. -/
theorem Splits.endsName_positionalOf {cs : List Char} {ps : List Piece} (h : Splits cs ps)
    (hends : EndsName cs) : EndsName (positionalOf ps) := by
  cases h with
  | nil => exact hends
  | named hname hchars hrest =>
    intro c hc
    obtain rfl := Option.some.inj hc
    decide
  | plain hcolon hrest =>
    intro c hc
    exact hends c hc

/-- No colon of the positional text stands before a name character. -/
theorem Splits.endsName_of_colon {cs : List Char} {ps : List Piece} (h : Splits cs ps)
    {left right : List Char} (hsplit : positionalOf ps = left ++ ':' :: right) : EndsName right := by
  induction h generalizing left with
  | nil => cases left <;> cases hsplit
  | @named name rest ps hname hchars hends hrest ih =>
    have hmark : positionalOf (.named name :: ps) = '?' :: positionalOf ps := rfl
    rw [hmark] at hsplit
    cases left with
    | nil => cases hsplit
    | cons d left => exact ih (List.cons.inj hsplit).2
  | @plain c rest ps hcolon hrest ih =>
    have hplain : positionalOf (.plain c :: ps) = c :: positionalOf ps := rfl
    rw [hplain] at hsplit
    cases left with
    | nil =>
      obtain ⟨rfl, rfl⟩ := List.cons.inj hsplit
      exact hrest.endsName_positionalOf (hcolon rfl)
    | cons d left => exact ih (List.cons.inj hsplit).2

/-! ## Restoring the names -/

/-- A text in which each `?` is replaced by a colon and the next of some names; once there are no more
names, it stays. -/
def restore : List Char → List String → List Char
  | [], _ => []
  | c :: cs, [] => c :: restore cs []
  | c :: cs, name :: names =>
    if c = '?' then ':' :: (name.toList ++ restore cs names) else c :: restore cs (name :: names)

/-- A character that is no mark stays in its place. -/
theorem restore_cons_of_ne {c : Char} (h : c ≠ '?') (cs : List Char) (names : List String) :
    restore (c :: cs) names = c :: restore cs names := by
  cases names with
  | nil => rfl
  | cons name names => rw [restore, if_neg h]

/-- The first mark is replaced by the first name. -/
theorem restore_mark (cs : List Char) (name : String) (names : List String) :
    restore ('?' :: cs) (name :: names) = ':' :: (name.toList ++ restore cs names) := by
  rw [restore, if_pos rfl]

/-- A text without marks of its own is restored from its positional text. -/
theorem Splits.restore_eq {cs : List Char} {ps : List Piece} (h : Splits cs ps) (hmarks : '?' ∉ cs) :
    restore (positionalOf ps) (namesOf ps) = cs := by
  induction h with
  | nil => rfl
  | @named name rest ps hname hchars hends hrest ih =>
    have hrestored := ih fun hmem =>
      hmarks (List.mem_cons_of_mem _ (List.mem_append_right _ hmem))
    have hstep : restore (positionalOf (.named name :: ps)) (namesOf (.named name :: ps)) =
        ':' :: ((String.ofList name).toList ++ restore (positionalOf ps) (namesOf ps)) :=
      restore_mark _ _ _
    rw [hstep, hrestored, String.toList_ofList]
  | @plain c rest ps hcolon hrest ih =>
    rw [List.mem_cons, not_or] at hmarks
    have hstep : restore (positionalOf (.plain c :: ps)) (namesOf (.plain c :: ps)) =
        c :: restore (positionalOf ps) (namesOf ps) :=
      restore_cons_of_ne (Ne.symm hmarks.1) _ _
    rw [hstep, ih hmarks.2]

/-- At each mark of the positional text the name in the same place was read, between what is restored from
the text before and from the text after the mark, and the name could not have been longer. -/
theorem Splits.exists_name_of_mark {cs : List Char} {ps : List Piece} (h : Splits cs ps)
    (hmarks : '?' ∉ cs) {left right : List Char} (hsplit : positionalOf ps = left ++ '?' :: right) :
    ∃ before name after, namesOf ps = before ++ name :: after ∧ before.length = left.count '?' ∧
      cs = restore left before ++ ':' :: (name.toList ++ restore right after) ∧
      EndsName (restore right after) := by
  induction h generalizing left with
  | nil => cases left <;> cases hsplit
  | @named name rest ps hname hchars hends hrest ih =>
    have hrestmarks : '?' ∉ rest := fun hmem =>
      hmarks (List.mem_cons_of_mem _ (List.mem_append_right _ hmem))
    have hmark : positionalOf (.named name :: ps) = '?' :: positionalOf ps := rfl
    have hnames : namesOf (.named name :: ps) = String.ofList name :: namesOf ps := rfl
    rw [hmark] at hsplit
    cases left with
    | nil =>
      obtain rfl := (List.cons.inj hsplit).2
      refine ⟨[], String.ofList name, namesOf ps, hnames, rfl, ?_, ?_⟩
      · rw [hrest.restore_eq hrestmarks, String.toList_ofList]
        rfl
      · rwa [hrest.restore_eq hrestmarks]
    | cons d left =>
      obtain ⟨rfl, hleft⟩ := List.cons.inj hsplit
      obtain ⟨before, n, after, hps, hlength, hcs, hafter⟩ := ih hrestmarks hleft
      refine ⟨String.ofList name :: before, n, after, ?_, ?_, ?_, hafter⟩
      · rw [hnames, hps, List.cons_append]
      · rw [List.length_cons, hlength, List.count_cons_self]
      · rw [restore_mark, String.toList_ofList, hcs, List.cons_append, List.append_assoc]
  | @plain c rest ps hcolon hrest ih =>
    rw [List.mem_cons, not_or] at hmarks
    have hplain : positionalOf (.plain c :: ps) = c :: positionalOf ps := rfl
    rw [hplain] at hsplit
    cases left with
    | nil => exact absurd (List.cons.inj hsplit).1 (Ne.symm hmarks.1)
    | cons d left =>
      obtain ⟨rfl, hleft⟩ := List.cons.inj hsplit
      obtain ⟨before, n, after, hps, hlength, hcs, hafter⟩ := ih hmarks.2 hleft
      refine ⟨before, n, after, hps, ?_, ?_, hafter⟩
      · rw [hlength, List.count_cons_of_ne (Ne.symm hmarks.1)]
      · rw [restore_cons_of_ne (Ne.symm hmarks.1), hcs, List.cons_append]

/-! ## The fragment -/

/-- A fragment is what a SQL text with certain names is read as, and nothing of the text is lost in it. -/
structure ReadsAs (sql : String) (names : List String) (f : Fragment) : Prop where
  /-- Each argument is a placeholder without default whose key is a name, also if it consists of digits. -/
  args : f.args = names.map fun name => .placeholder ⟨.name name, none⟩
  text : f.text = toPositional sql
  restored : restore f.text.toList names = sql.toList
  isName : ∀ name ∈ names, name ≠ "" ∧ ∀ c ∈ name.toList, isNameChar c = true
  /-- The name that was read at a mark was read there as far as it goes. -/
  longest : ∀ left right, f.text.toList = left ++ '?' :: right →
    ∃ before name after, names = before ++ name :: after ∧ before.length = left.count '?' ∧
      sql.toList = restore left before ++ ':' :: (name.toList ++ restore right after) ∧
      EndsName (restore right after)
  noneLeft : ∀ left right, f.text.toList = left ++ ':' :: right → EndsName right

/-- The positional text of a SQL text has a mark for each of its own marks and for each of its names. -/
theorem markCount_toPositional (sql : String) :
    markCount (toPositional sql) = markCount sql + (names sql).length := by
  rw [markCount, toList_toPositional, (splits_pieces sql.toList).count_positionalOf]
  rfl

end NamedSql

namespace Fragment

open NamedSql

/-- The count of marks decides whether a SQL text is read. -/
theorem ofNamed_eq (sql : String) :
    ofNamed sql =
      if '?' ∈ sql.toList then
        .error (.countMismatch (markCount sql + (names sql).length) (names sql).length)
      else .ok ⟨toPositional sql, (names sql).map fun name => .placeholder (.ofKey (.name name))⟩ := by
  rw [ofNamed, checked, List.length_map, markCount_toPositional]
  by_cases hmarks : '?' ∈ sql.toList
  · have hpos : 0 < markCount sql := List.count_pos_iff.2 hmarks
    rw [if_pos hmarks, if_neg (by omega)]
  · have hzero : markCount sql = 0 := List.count_eq_zero.2 hmarks
    rw [if_neg hmarks, if_pos (by omega)]

/-- What a SQL text is read as keeps everything of it. -/
theorem readsAs_of_ofNamed {sql : String} {f : Fragment} (h : ofNamed sql = .ok f) :
    ReadsAs sql (names sql) f := by
  have hsplits := splits_pieces sql.toList
  rw [ofNamed_eq] at h
  split at h
  · cases h
  · rename_i hmarks
    obtain rfl := Except.ok.inj h
    refine ⟨rfl, rfl, ?_, hsplits.isName, ?_, ?_⟩
    · rw [toList_toPositional]
      exact hsplits.restore_eq hmarks
    · intro left right hleft
      rw [toList_toPositional] at hleft
      exact hsplits.exists_name_of_mark hmarks hleft
    · intro left right hleft
      rw [toList_toPositional] at hleft
      exact hsplits.endsName_of_colon hleft

/-- Bindings for all names give each mark the value of the name in its place. -/
theorem outcome_fill_of_readsAs {sql : String} {names : List String} {f : Fragment} {b : Bindings}
    (h : ReadsAs sql names f) (hcount : markCount f.text = f.args.length)
    (hbound : ∀ name ∈ names, (b.value? (.name name)).isSome) :
    ∃ s, (f.fill b).outcome = .ok s ∧ s.sql = f.text ∧
      ∀ i : Nat, s.values[i]? = names[i]?.bind fun name => b.value? (.name name) := by
  have hopen : Template.openValue? b.value? f.args = none := by
    rw [Template.openValue?, List.findSome?_eq_none_iff, h.args]
    intro a ha
    obtain ⟨name, hname, rfl⟩ := List.mem_map.1 ha
    obtain ⟨v, hv⟩ := Option.isSome_iff_exists.1 (hbound name hname)
    refine Placeholder.openKey?_eq_none_iff.2 ⟨v, ?_⟩
    rw [Placeholder.filled?, hv]
    rfl
  refine ⟨_, Template.outcome_fillWith_eq_ok_iff.2 ⟨hopen, hcount, rfl⟩, rfl, fun i => ?_⟩
  rw [Template.getElem?_valuesOf hopen, h.args, List.getElem?_map]
  cases names[i]? with
  | none => rfl
  | some name => exact Option.or_none

/-- A SQL text with named placeholders is read exactly if it has no mark of its own; otherwise its marks and
names are counted against its names.  What it is read as keeps everything of it, and once all names are
bound each mark is given the value of the name in its place. -/
theorem ofNamed_loses_nothing (sql : String) :
    ((∃ f, ofNamed sql = .ok f) ↔ '?' ∉ sql.toList) ∧
    ('?' ∈ sql.toList → ofNamed sql =
      .error (.countMismatch (markCount sql + (names sql).length) (names sql).length)) ∧
    ∀ f, ofNamed sql = .ok f → ReadsAs sql (names sql) f ∧
      ∀ b : Bindings, (∀ name ∈ names sql, (b.value? (.name name)).isSome) →
        ∃ s, (f.fill b).outcome = .ok s ∧ s.sql = toPositional sql ∧
          ∀ i : Nat, s.values[i]? = (names sql)[i]?.bind fun name => b.value? (.name name) := by
  refine ⟨?_, ?_, ?_⟩
  · rw [ofNamed_eq]
    by_cases hmarks : '?' ∈ sql.toList <;> simp [hmarks]
  · intro hmarks
    rw [ofNamed_eq, if_pos hmarks]
  · intro f hf
    have hreads := readsAs_of_ofNamed hf
    obtain ⟨hcount, hf'⟩ := checked_eq_ok_iff.1 hf
    refine ⟨hreads, fun b hbound => ?_⟩
    rw [← hreads.text]
    refine outcome_fill_of_readsAs hreads ?_ hbound
    rw [hf']
    exact hcount

/-- A cast by two colons, a name of a digit beside the index of that number, and a name that is used twice:
each mark is given the value of its name. -/
theorem ofNamed_loses_nothing_of_cast :
    let sql := "a = :a::b or c in (:9, :é, :a)"
    let b := (((Bindings.empty.bindValue (.name "a") (.int 1)).bindValue (.name "b") .null).bindValue
      (.index 9) (.int 9)).bindValue (.name "9") (.text "nine")
    names sql = ["a", "b", "9", "a"] ∧ (∀ name ∈ names sql, (b.value? (.name name)).isSome) ∧
      ∃ f s, ofNamed sql = .ok f ∧ f.text = "a = ?:? or c in (?, :é, ?)" ∧ (f.fill b).outcome = .ok s ∧
        s.sql = f.text ∧ s.values[2]? = some (.text "nine") ∧ s.values[3]? = some (.int 1) := by
  intro sql b
  have hnames : names sql = ["a", "b", "9", "a"] := by decide +kernel
  have htext : toPositional sql = "a = ?:? or c in (?, :é, ?)" := by decide +kernel
  have hbound : ∀ name ∈ names sql, (b.value? (.name name)).isSome := by
    rw [hnames]
    decide
  obtain ⟨hread, -, hloss⟩ := ofNamed_loses_nothing sql
  obtain ⟨f, hf⟩ := hread.2 (by decide)
  obtain ⟨hreads, hfill⟩ := hloss f hf
  obtain ⟨s, hs, hsql, hvalues⟩ := hfill b hbound
  refine ⟨hnames, hbound, f, s, hf, hreads.text.trans htext, hs, hsql.trans hreads.text.symm, ?_, ?_⟩
  · rw [hvalues, hnames]
    rfl
  · rw [hvalues, hnames]
    rfl

end Fragment

end BoundSql
