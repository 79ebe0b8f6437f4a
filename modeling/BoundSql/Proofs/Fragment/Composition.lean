import BoundSql.AllowList
import BoundSql.Condition.Rendering
import BoundSql.Fragment.Named
import BoundSql.Proofs.Condition.Machine
import BoundSql.Proofs.Fragment.Join
import BoundSql.Proofs.Outcome
import BoundSql.Template.Basic
import Mathlib.Algebra.BigOperators.Group.List.Basic

/-!
# Fragments composed by the operations of the library

`Fragment.Composed f n` says that the operations of the library compose `f`, however often and however
nested, and that `n` of the marks of its text came without an argument.  Marks of that kind come from
two places only, from a joiner and from a column expression: neither is counted when it is put into a
text.  Everything else keeps marks and arguments equal in number, so that
`markCount f.text = f.args.length + n` (`Fragment.Composed.markCount_eq`).
-/

namespace BoundSql

namespace Condition

mutual

/-- The marks in the columns of a condition. -/
def columnMarks (allowed : AllowList) : Condition → Nat
  | .empty => 0
  | .compare field _ _ =>
    match allowed.column? field with
    | some column => markCount column
    | none => 0
  | .group _ children => columnMarksOfAll allowed children

/-- The marks in the columns of some conditions. -/
def columnMarksOfAll (allowed : AllowList) : List Condition → Nat
  | [] => 0
  | c :: cs => c.columnMarks allowed + columnMarksOfAll allowed cs

end

end Condition

namespace Statement

/-- The fragment of a checked statement has as many marks as arguments. -/
theorem markCount_toFragment_of_fillWith {f : Fragment} {lookup : Key → Option Value}
    {s : Statement} (h : (f.fillWith lookup).outcome = .ok s) :
    markCount s.toFragment.text = s.toFragment.args.length := by
  rw [Fragment.fillWith, Traced.outcome_bind] at h
  obtain ⟨values, -, hs⟩ := Outcome.bind_eq_ok_iff.1 h
  obtain ⟨hcount, rfl⟩ := checked_eq_ok_iff.1 hs
  rw [toFragment, List.length_map]
  exact hcount

end Statement

namespace Fragment

/-- The fragments that the operations of the library compose, each with the number of marks in its
text that came with a joiner or with a column. -/
inductive Composed : Fragment → Nat → Prop
  | checked {sql : String} {args : List Argument} {f : Fragment}
      (h : Fragment.checked sql args = .ok f) : Composed f 0
  | plain {sql : String} {f : Fragment} (h : Fragment.plain sql = .ok f) : Composed f 0
  | empty : Composed .empty 0
  | mark (a : Argument) : Composed (.mark a) 0
  | ofNamed {sql : String} {f : Fragment} (h : Fragment.ofNamed sql = .ok f) : Composed f 0
  | wrap {p : Placeholder Value} {sql : String} {f : Fragment} (h : p.wrap sql = .ok f) :
      Composed f 0
  | slot (p : Placeholder Value) : Composed p.mark 0
  | join (joiner : String) (parts : List Fragment) (extra : Fragment → Nat)
      (h : ∀ p ∈ parts, Composed p (extra p)) :
      Composed (.join joiner parts)
        ((parts.map extra).sum + joinerCount (parts.map Fragment.text) * markCount joiner)
  | asWhere {f : Fragment} {n : Nat} (h : Composed f n) : Composed f.asWhere n
  | render (c : Comparison) (column : String) (v : Value) :
      Composed (c.render column v) (markCount column)
  | comparison {column word : String} {v : Value} {f : Fragment}
      (h : Fragment.comparison column word v = .ok f) : Composed f (markCount column)
  | connect (c : Connective) (operands : List Fragment) (extra : Fragment → Nat)
      (h : ∀ p ∈ operands, Composed p (extra p)) :
      Composed (c.join operands) (operands.map extra).sum
  | group {word : String} {f : Fragment} (operands : List Fragment) (extra : Fragment → Nat)
      (h : ∀ p ∈ operands, Composed p (extra p)) (hf : Fragment.group word operands = .ok f) :
      Composed f (operands.map extra).sum
  | compile {c : Condition} {allowed : AllowList} {f : Fragment}
      (h : (c.compile allowed).outcome = .ok f) : Composed f (c.columnMarks allowed)
  | clause (o : SortOrder) : Composed o.clause (o.columns.map markCount).sum
  | fill {f : Fragment} {b : Bindings} {s : Statement} (h : (f.fill b).outcome = .ok s) :
      Composed s.toFragment 0
  | generate {t : Template} {b : Bindings} {s : Statement} (h : (t.generate b).outcome = .ok s) :
      Composed s.toFragment 0

/-! ## The marks of single operations -/

/-- A checked fragment has as many marks as arguments. -/
theorem markCount_eq_of_checked {sql : String} {args : List Argument} {f : Fragment}
    (h : checked sql args = .ok f) : markCount f.text = f.args.length := by
  obtain ⟨hcount, rfl⟩ := checked_eq_ok_iff.1 h
  exact hcount

/-- A single mark has its argument. -/
theorem markCount_mark (a : Argument) : markCount (mark a).text = (mark a).args.length := by
  have hmark : markCount "?" = 1 := rfl
  exact hmark

/-- Parentheses hold no mark. -/
theorem markCount_inParentheses (f : Fragment) :
    markCount f.inParentheses.text = markCount f.text := by
  change markCount ("(" ++ f.text ++ ")") = markCount f.text
  rw [markCount_append, markCount_append]
  exact Nat.zero_add _

/-- A condition without text gives no clause. -/
theorem asWhere_of_text_eq_empty {f : Fragment} (h : f.text = "") : f.asWhere = f := by
  have hempty : f.isEmpty = true := String.isEmpty_iff.2 h
  exact if_pos hempty

/-- The clause of a condition with a text has the same arguments. -/
theorem asWhere_of_text_ne_empty {f : Fragment} (h : f.text ≠ "") :
    f.asWhere = ⟨"where " ++ f.text, f.args⟩ := by
  have hempty : ¬ f.isEmpty = true := mt String.isEmpty_iff.1 h
  exact if_neg hempty

/-- A clause has a text when its condition has one. -/
theorem text_asWhere_eq_empty_iff {f : Fragment} : f.asWhere.text = "" ↔ f.text = "" := by
  by_cases h : f.text = ""
  · rw [asWhere_of_text_eq_empty h]
  · rw [asWhere_of_text_ne_empty h]
    simp [h]

/-- The keyword before a condition holds no mark. -/
theorem markCount_asWhere (f : Fragment) : markCount f.asWhere.text = markCount f.text := by
  by_cases h : f.text = ""
  · rw [asWhere_of_text_eq_empty h]
  · rw [asWhere_of_text_ne_empty h, markCount_append]
    exact Nat.zero_add _

/-- The keyword before a condition changes no argument. -/
@[simp] theorem args_asWhere (f : Fragment) : f.asWhere.args = f.args := by
  by_cases h : f.text = ""
  · rw [asWhere_of_text_eq_empty h]
  · rw [asWhere_of_text_ne_empty h]

/-- The word of a comparison holds no mark. -/
@[simp] theorem markCount_word (c : Comparison) : markCount c.word = 0 := by
  cases c <;> rfl

/-- A comparison has a mark for its argument, and the marks of its column. -/
theorem markCount_render (c : Comparison) (column : String) (v : Value) :
    markCount (c.render column v).text = (c.render column v).args.length + markCount column := by
  unfold Comparison.render
  by_cases h : c = .is
  · rw [if_pos h]
    change markCount ("(" ++ column ++ ") " ++ _) = 0 + markCount column
    have hnull : ∀ b : Bool, markCount (if b then "is not null" else "is null") = 0 := by decide
    rw [markCount_append, markCount_append, markCount_append, hnull]
    exact congrArg (0 + ·) rfl
  · rw [if_neg h]
    change markCount ("(" ++ column ++ ") " ++ c.word ++ " ?") = 1 + markCount column
    have hopen : markCount "(" = 0 := rfl
    have hclose : markCount ") " = 0 := rfl
    have hmark : markCount " ?" = 1 := rfl
    rw [markCount_append, markCount_append, markCount_append, markCount_append, markCount_word,
      hopen, hclose, hmark]
    omega

/-- The joiner of a connective holds no mark. -/
theorem markCount_joiner (c : Connective) : markCount (" " ++ c.word ++ " ") = 0 := by
  cases c <;> rfl

/-- A connective adds no mark, and what it drops has none. -/
theorem markCount_connective_join (c : Connective) (operands : List Fragment) :
    markCount (c.join operands).text = (operands.map fun f => markCount f.text).sum := by
  rw [Connective.join, text_join, markCount_joinTexts, markCount_joiner, Nat.mul_zero, Nat.add_zero]
  induction operands with
  | nil => rfl
  | cons f operands ih =>
    rw [List.map_cons, List.sum_cons, ← ih]
    by_cases h : f.isEmpty
    · have htext : f.text = "" := String.isEmpty_iff.1 h
      rw [List.filter_cons_of_neg (by simp [h]), htext, markCount_empty, Nat.zero_add]
    · rw [List.filter_cons_of_pos (by simp [h]), List.map_cons, List.map_cons, List.map_cons,
        List.sum_cons, markCount_inParentheses]

/-- Without marks there are no arguments either if arguments never outnumber marks. -/
theorem args_eq_nil_of_isEmpty {f : Fragment} (h : f.args.length ≤ markCount f.text)
    (hf : f.isEmpty) : f.args = [] := by
  have htext : f.text = "" := String.isEmpty_iff.1 hf
  rw [htext, markCount_empty] at h
  exact List.eq_nil_of_length_eq_zero (Nat.le_zero.1 h)

/-- What a connective drops has no arguments if arguments never outnumber marks. -/
theorem args_connective_join (c : Connective) {operands : List Fragment}
    (h : ∀ f ∈ operands, f.args.length ≤ markCount f.text) :
    (c.join operands).args = operands.flatMap Fragment.args := by
  rw [Connective.join, args_join]
  induction operands with
  | nil => rfl
  | cons f operands ih =>
    rw [List.flatMap_cons, ← ih fun g hg => h g (List.mem_cons_of_mem f hg)]
    by_cases hf : f.isEmpty
    · rw [List.filter_cons_of_neg (by simp [hf]),
        args_eq_nil_of_isEmpty (h f List.mem_cons_self) hf, List.nil_append]
    · rw [List.filter_cons_of_pos (by simp [hf]), List.map_cons, List.flatMap_cons]
      rfl

/-- A separator without marks adds none. -/
theorem markCount_intercalate {separator : String} (h : markCount separator = 0)
    (texts : List String) :
    markCount (separator.intercalate texts) = (texts.map markCount).sum := by
  induction texts with
  | nil => rfl
  | cons t texts ih =>
    rw [List.map_cons, List.sum_cons, ← ih]
    by_cases ht : texts = []
    · rw [ht, String.intercalate_singleton, String.intercalate_nil]
      rfl
    · rw [String.intercalate_cons_of_ne_nil ht, markCount_append, markCount_append, h, Nat.add_zero]

/-- A sort order has the marks of its columns, and no arguments. -/
theorem markCount_clause (o : SortOrder) :
    markCount o.clause.text = o.clause.args.length + (o.columns.map markCount).sum := by
  unfold SortOrder.clause
  by_cases h : o.isEmpty
  · have hcolumns : o.columns = [] := List.isEmpty_iff.1 h
    rw [if_pos h, hcolumns]
    rfl
  · rw [if_neg h]
    change markCount ("order by " ++ ", ".intercalate o.columns) = 0 + _
    have hseparator : markCount ", " = 0 := rfl
    rw [markCount_append, markCount_intercalate hseparator]
    exact congrArg (· + (o.columns.map markCount).sum) rfl

end Fragment

/-! ## The marks of compiled conditions -/

namespace Condition

mutual

/-- A rendered condition has a mark for each argument, and the marks of its columns. -/
theorem markCount_of_rendered {allowed : AllowList} {c : Condition} {f : Fragment}
    (h : c.rendered allowed = .ok f) :
    markCount f.text = f.args.length + c.columnMarks allowed := by
  cases c with
  | empty =>
    obtain rfl := Except.ok.inj h
    rfl
  | compare field word value =>
    obtain ⟨column, hcolumn, hf⟩ := Outcome.bind_eq_ok_iff.1 h
    obtain ⟨c, -, hc⟩ := Outcome.bind_eq_ok_iff.1 hf
    obtain rfl := Except.ok.inj hc
    rw [columnMarks, AllowList.columnOf_eq_ok_iff.1 hcolumn]
    exact Fragment.markCount_render c column value
  | group word children =>
    obtain ⟨c, -, hc⟩ := Outcome.bind_eq_ok_iff.1 h
    obtain ⟨fs, hfs, hf⟩ := Outcome.bind_eq_ok_iff.1 hc
    obtain rfl := Except.ok.inj hf
    obtain ⟨hle, hsum⟩ := markCount_of_renderedAll hfs
    rw [Fragment.markCount_connective_join, Fragment.args_connective_join c hle,
      List.length_flatMap, hsum, columnMarks]

/-- The same for the fragments of some conditions, whose arguments never outnumber their marks. -/
theorem markCount_of_renderedAll {allowed : AllowList} {cs : List Condition} {fs : List Fragment}
    (h : renderedAll allowed cs = .ok fs) :
    (∀ f ∈ fs, f.args.length ≤ markCount f.text) ∧
    (fs.map fun f => markCount f.text).sum =
      (fs.map fun f => f.args.length).sum + columnMarksOfAll allowed cs := by
  cases cs with
  | nil =>
    obtain rfl := Except.ok.inj h
    exact ⟨fun f hf => absurd hf List.not_mem_nil, rfl⟩
  | cons c cs =>
    obtain ⟨f, hf, hrest⟩ := Outcome.bind_eq_ok_iff.1 h
    obtain ⟨gs, hgs, hfs⟩ := Outcome.bind_eq_ok_iff.1 hrest
    obtain rfl := Except.ok.inj hfs
    have hfirst := markCount_of_rendered hf
    obtain ⟨hle, hsum⟩ := markCount_of_renderedAll hgs
    refine ⟨?_, ?_⟩
    · intro g hg
      rcases List.mem_cons.1 hg with rfl | hg
      · omega
      · exact hle g hg
    · simp only [List.map_cons, List.sum_cons, columnMarksOfAll]
      omega

end

end Condition

/-! ## The marks of composed fragments -/

namespace Fragment

/-- The marks of parts that each have some marks beyond their arguments. -/
theorem sum_markCount_eq {parts : List Fragment} {extra : Fragment → Nat}
    (h : ∀ p ∈ parts, markCount p.text = p.args.length + extra p) :
    (parts.map fun p => markCount p.text).sum =
      (parts.map fun p => p.args.length).sum + (parts.map extra).sum := by
  rw [List.map_congr_left h, List.sum_map_add]

/-- Operands keep their marks beyond arguments when a connective joins them. -/
theorem markCount_connective_join_eq (c : Connective) {operands : List Fragment}
    {extra : Fragment → Nat} (h : ∀ p ∈ operands, markCount p.text = p.args.length + extra p) :
    markCount (c.join operands).text = (c.join operands).args.length + (operands.map extra).sum := by
  have hle : ∀ p ∈ operands, p.args.length ≤ markCount p.text := by
    intro p hp
    rw [h p hp]
    exact Nat.le_add_right _ _
  rw [markCount_connective_join, args_connective_join c hle, List.length_flatMap,
    sum_markCount_eq h]

/-- A composed fragment has a mark for each argument, and those that came with joiners and columns. -/
theorem Composed.markCount_eq {f : Fragment} {n : Nat} (h : Composed f n) :
    markCount f.text = f.args.length + n := by
  induction h with
  | checked h => exact markCount_eq_of_checked h
  | plain h => exact markCount_eq_of_checked h
  | empty => rfl
  | mark a => exact markCount_mark a
  | ofNamed h => exact markCount_eq_of_checked h
  | wrap h => exact markCount_eq_of_checked h
  | slot p => exact markCount_mark (.placeholder p)
  | join joiner parts extra h ih =>
    rw [text_join, args_join, markCount_joinTexts, List.map_map, List.length_flatMap]
    have hsum := sum_markCount_eq ih
    simp only [Function.comp_def]
    omega
  | asWhere h ih => rw [markCount_asWhere, args_asWhere, ih]
  | render c column v => exact markCount_render c column v
  | comparison h =>
    obtain ⟨c, -, hc⟩ := Outcome.bind_eq_ok_iff.1 h
    obtain rfl := Except.ok.inj hc
    exact markCount_render c _ _
  | connect c operands extra h ih => exact markCount_connective_join_eq c ih
  | group operands extra h hf ih =>
    obtain ⟨c, -, hc⟩ := Outcome.bind_eq_ok_iff.1 hf
    obtain rfl := Except.ok.inj hc
    exact markCount_connective_join_eq c ih
  | compile h =>
    rw [Condition.outcome_compile, Condition.compiled_eq_rendered] at h
    exact Condition.markCount_of_rendered h
  | clause o => exact markCount_clause o
  | fill h => exact Statement.markCount_toFragment_of_fillWith h
  | generate h =>
    rw [Template.generate, Traced.outcome_bind] at h
    obtain ⟨f, -, hf⟩ := Outcome.bind_eq_ok_iff.1 h
    rw [Traced.outcome_bind] at hf
    obtain ⟨s, hs, hr⟩ := Outcome.bind_eq_ok_iff.1 hf
    obtain rfl := Except.ok.inj hr
    exact Statement.markCount_toFragment_of_fillWith hs

end Fragment

end BoundSql
