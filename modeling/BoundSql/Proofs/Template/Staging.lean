import BoundSql.Proofs.Template.Phases
import BoundSql.Proofs.Template.Stored
import Mathlib.Data.List.Forall2

/-!
# Generation in stages

Segments that have a statement of their own may be replaced by it wherever they stand
(`Template.statementOf_replace`).  The errors of a generation do not come in the order of the segments
but of the phases, so the reason is not that a generation would go on where the stage before it ended.
It is that every phase looks at all segments as if the phases of neighbours were put together
(`Template.openBlock?_append` and its companions), and that a statement is to each phase what its
segments were: nothing in it is open, and it has their text and their values.
-/

namespace BoundSql

namespace Template

variable {blocks : Key → Option Fragment} {values : Key → Option Value}

/-! ## Neighbouring segments -/

/-- The first missing block of neighbours. -/
theorem openBlock?_append (xs ys : List Segment) :
    openBlock? blocks (xs ++ ys) = (openBlock? blocks xs).or (openBlock? blocks ys) :=
  List.findSome?_append

/-- The parts of neighbours. -/
theorem partsOf_append (xs ys : List Segment) :
    partsOf blocks (xs ++ ys) = partsOf blocks xs ++ partsOf blocks ys :=
  List.filterMap_append

/-- The text of neighbours. -/
theorem textOf_append (xs ys : List Segment) :
    textOf blocks (xs ++ ys) = textOf blocks xs ++ textOf blocks ys := by
  rw [textOf, partsOf_append, List.map_append, String.join_append]
  rfl

/-- The arguments of neighbours. -/
theorem argsOf_append (xs ys : List Segment) :
    argsOf blocks (xs ++ ys) = argsOf blocks xs ++ argsOf blocks ys := by
  rw [argsOf, partsOf_append, List.flatMap_append]
  rfl

/-- The first missing value of neighbours. -/
theorem openValue?_append (as bs : List Argument) :
    openValue? values (as ++ bs) = (openValue? values as).or (openValue? values bs) :=
  List.findSome?_append

/-- The values of neighbours. -/
theorem valuesOf_append (as bs : List Argument) :
    valuesOf values (as ++ bs) = valuesOf values as ++ valuesOf values bs :=
  List.filterMap_append

/-- The text of a fragment that is the only segment. -/
theorem textOf_fragment (f : Fragment) : textOf blocks [.fragment f] = f.text := by
  change String.join [f.text] = f.text
  rw [String.join_cons, String.join_nil, String.append_empty]

/-- The arguments of a fragment that is the only segment. -/
theorem argsOf_fragment (f : Fragment) : argsOf blocks [.fragment f] = f.args :=
  List.flatMap_singleton ..

/-- The text of a segment is that of its part. -/
theorem textOf_singleton {s : Segment} {f : Fragment} (h : s.part? blocks = some f) :
    textOf blocks [s] = f.text := by
  have hparts : partsOf blocks [s] = partsOf blocks [.fragment f] := List.filterMap_cons_some h
  rw [textOf, hparts, ← textOf, textOf_fragment]

/-- The arguments of a segment are those of its part. -/
theorem argsOf_singleton {s : Segment} {f : Fragment} (h : s.part? blocks = some f) :
    argsOf blocks [s] = f.args := by
  have hparts : partsOf blocks [s] = partsOf blocks [.fragment f] := List.filterMap_cons_some h
  rw [argsOf, hparts, ← argsOf, argsOf_fragment]

/-- Neighbours that each have a statement have the two statements one after the other. -/
theorem statementOf_append {xs ys : List Segment} {s r : Statement}
    (hs : statementOf blocks values xs = .ok s) (hr : statementOf blocks values ys = .ok r) :
    statementOf blocks values (xs ++ ys) = .ok ⟨s.sql ++ r.sql, s.values ++ r.values⟩ := by
  obtain ⟨hblock, hvalue, hcount, rfl⟩ := statementOf_eq_ok_iff.1 hs
  obtain ⟨hblock', hvalue', hcount', rfl⟩ := statementOf_eq_ok_iff.1 hr
  refine statementOf_eq_ok_iff.2 ⟨?_, ?_, ?_, ?_⟩
  · rw [openBlock?_append, hblock, hblock', Option.none_or]
  · rw [argsOf_append, openValue?_append, hvalue, hvalue', Option.none_or]
  · rw [markCount_append, hcount, hcount', List.length_append]
  · rw [textOf_append, argsOf_append, valuesOf_append]

/-! ## A statement as a segment -/

/-- No value of a statement is missing. -/
theorem openValue?_toFragment (s : Statement) : openValue? values s.toFragment.args = none := by
  refine List.findSome?_eq_none_iff.2 fun a ha => ?_
  obtain ⟨v, -, rfl⟩ := List.mem_map.1 ha
  rfl

/-- Arguments that are values already are not looked up. -/
theorem valuesOf_map_value (vs : List Value) : valuesOf values (vs.map .value) = vs := by
  rw [valuesOf, List.filterMap_map]
  exact List.filterMap_some

/-- The values of a statement are its own. -/
theorem valuesOf_toFragment (s : Statement) : valuesOf values s.toFragment.args = s.values :=
  valuesOf_map_value s.values

/-- Segments may be replaced by their statement, whatever stands before and after them. -/
theorem statementOf_replace {ys : List Segment} {s : Statement}
    (h : statementOf blocks values ys = .ok s) (xs zs : List Segment) :
    statementOf blocks values (xs ++ ys ++ zs) =
      statementOf blocks values (xs ++ [.fragment s.toFragment] ++ zs) := by
  obtain ⟨hblock, hvalue, -, hs⟩ := statementOf_eq_ok_iff.1 h
  have hsql : s.sql = textOf blocks ys := congrArg Statement.sql hs
  have hvalues : s.values = valuesOf values (argsOf blocks ys) := congrArg Statement.values hs
  refine statementOf_congr ?_ ?_ ?_ ?_
  · have hsegment : openBlock? blocks [.fragment s.toFragment] = none := rfl
    simp only [openBlock?_append, hblock, hsegment]
  · simp only [argsOf_append, openValue?_append, hvalue, argsOf_fragment, openValue?_toFragment]
  · simp only [textOf_append, textOf_fragment, Statement.toFragment, hsql]
  · simp only [argsOf_append, valuesOf_append, argsOf_fragment, valuesOf_toFragment, hvalues]

/-- What was filled once is filled by anything as it is. -/
theorem outcome_fillWith_toFragment {f : Fragment} {s : Statement}
    (h : (f.fillWith values).outcome = .ok s) (values' : Key → Option Value) :
    (s.toFragment.fillWith values').outcome = .ok s := by
  obtain ⟨hopen, hmarks, rfl⟩ := outcome_fillWith_eq_ok_iff.1 h
  rw [outcome_fillWith_eq_ok_iff, valuesOf_toFragment]
  refine ⟨openValue?_toFragment _, ?_, rfl⟩
  rw [Statement.toFragment, List.length_map, length_valuesOf hopen]
  exact hmarks

/-! ## Templates without overrides -/

/-- A template without overrides has the statement of its segments under the bindings of the call. -/
theorem outcome_generate_ofSegments (segments : List Segment) (b : Bindings) :
    ((ofSegments segments).generate b).outcome = statementOf b.block? b.value? segments := by
  have hblocks : (ofSegments segments).block? b = b.block? := by
    funext key
    rw [block?, storedBlock?_ofSegments, Option.or_none]
  have hvalues : (ofSegments segments).value? b = b.value? := by
    funext key
    rw [value?, storedValue?_ofSegments, Option.or_none]
  rw [outcome_generate, hblocks, hvalues]
  rfl

/-- A statement ends with what its last segment brings. -/
theorem ends_with_part {segments : List Segment} {last : Segment} {b : Bindings} {f : Fragment}
    {s : Statement} (hlast : last.part? b.block? = some f)
    (hs : ((ofSegments (segments ++ [last])).generate b).outcome = .ok s) :
    s = ⟨textOf b.block? segments ++ f.text,
      valuesOf b.value? (argsOf b.block? segments) ++ valuesOf b.value? f.args⟩ := by
  rw [outcome_generate_ofSegments] at hs
  obtain ⟨-, -, -, rfl⟩ := statementOf_eq_ok_iff.1 hs
  rw [textOf_append, argsOf_append, valuesOf_append, textOf_singleton hlast, argsOf_singleton hlast]

/-- Pieces that each have a statement have these statements one after the other. -/
theorem outcome_generate_flatten {b : Bindings} {pieces : List (List Segment)}
    {statements : List Statement}
    (h : List.Forall₂ (fun piece s => ((ofSegments piece).generate b).outcome = .ok s) pieces
      statements) :
    ((ofSegments pieces.flatten).generate b).outcome =
      .ok ⟨String.join (statements.map Statement.sql), statements.flatMap Statement.values⟩ := by
  induction h with
  | nil => rfl
  | cons hpiece hrest ih =>
    rw [outcome_generate_ofSegments] at hpiece ih ⊢
    rw [List.flatten_cons, List.map_cons, String.join_cons, List.flatMap_cons]
    exact statementOf_append hpiece ih

/-- If some segments have a statement, a generation comes to the same outcome with these segments and with
their statement in their place, whatever stands around them.  Every statement is filled by anything as it
is, so that it is a last stage; and pieces that are generated on their own, one beside the other, make the
statement of the whole. -/
theorem staged_generation {ys : List Segment} {b : Bindings} {s : Statement}
    (h : ((ofSegments ys).generate b).outcome = .ok s) :
    (∀ xs zs, ((ofSegments (xs ++ ys ++ zs)).generate b).outcome =
      ((ofSegments (xs ++ [.fragment s.toFragment] ++ zs)).generate b).outcome) ∧
    (∀ (t : Template) (c c' : Bindings) (r : Statement), (t.generate c).outcome = .ok r →
      (r.toFragment.fill c').outcome = .ok r) ∧
    (∀ (f : Fragment) (c c' : Bindings) (r : Statement), (f.fill c).outcome = .ok r →
      (r.toFragment.fill c').outcome = .ok r) ∧
    ∀ (pieces : List (List Segment)) (statements : List Statement),
      List.Forall₂ (fun piece r => ((ofSegments piece).generate b).outcome = .ok r) pieces
        statements →
      ((ofSegments pieces.flatten).generate b).outcome =
        .ok ⟨String.join (statements.map Statement.sql), statements.flatMap Statement.values⟩ := by
  refine ⟨?_, ?_, ?_, ?_⟩
  · intro xs zs
    rw [outcome_generate_ofSegments] at h
    rw [outcome_generate_ofSegments, outcome_generate_ofSegments]
    exact statementOf_replace h xs zs
  · intro t c c' r hr
    rw [outcome_generate_eq_bind] at hr
    obtain ⟨f, -, hf⟩ := Outcome.bind_eq_ok_iff.1 hr
    exact outcome_fillWith_toFragment hf c'.value?
  · intro f c c' r hr
    exact outcome_fillWith_toFragment hr c'.value?
  · intro pieces statements hpieces
    exact outcome_generate_flatten hpieces

/-- A condition that is generated first, in a query whose count fails because of a mark before it and which
has a missing value after it: the missing value is the error with the condition and with its statement. -/
theorem staged_generation_of_query :
    let ys : List Segment :=
      [.text "a = ", .fragment (.mark (.placeholder (.ofKey (.name "a"))))]
    let xs : List Segment := [.text "select ? from t where "]
    let zs : List Segment := [.text " and b = ", .fragment (.mark (.placeholder (.ofKey (.name "b"))))]
    let b := Bindings.empty.bindValue (.name "a") (.int 1)
    let s : Statement := ⟨"a = ?", [.int 1]⟩
    ((ofSegments ys).generate b).outcome = .ok s ∧
      ((ofSegments (xs ++ [.fragment s.toFragment] ++ zs)).generate b).outcome =
        .error (.missing .value (.name "b")) ∧
      ((ofSegments (xs ++ [.fragment s.toFragment])).generate b).outcome =
        .error (.countMismatch 2 1) := by
  intro ys xs zs b s
  have h : ((ofSegments ys).generate b).outcome = .ok s := rfl
  have hstages := (staged_generation h).1
  refine ⟨h, ?_, ?_⟩
  · rw [← hstages xs zs]
    rfl
  · have hlast := hstages xs []
    rw [List.append_nil, List.append_nil] at hlast
    rw [← hlast]
    rfl

end Template

end BoundSql
