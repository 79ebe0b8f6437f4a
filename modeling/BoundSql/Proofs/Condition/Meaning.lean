import BoundSql.Condition.Rendering
import BoundSql.Proofs.Condition.Machine
import BoundSql.Proofs.Fragment.Join
import BoundSql.Proofs.Outcome
import BoundSql.Proofs.Text.Parentheses

/-!
# What a condition means

Different conditions may ask for the same.  A `Meaning` is what is left of a condition when everything
is dropped that cannot matter: conditions that ask for nothing, the connective of a group with a single
operand, the name of a field once its column is known, and the value of a null test but for its truth.

`Condition.meaning` checks a condition and gives its meaning, and what a condition is rendered as is the
rendering of its meaning (`Condition.rendered_eq_map_meaning`).
-/

namespace BoundSql

/-- What a comparison asks of its column. -/
inductive Test
  /-- A comparison with a value. -/
  | against (c : Comparison) (v : Value) (binds : c ≠ .is)
  /-- Whether there has to be something in the column, or nothing. -/
  | presence (wanted : Bool)

/-- What a condition asks for. -/
inductive Meaning
  | leaf (column : String) (test : Test)
  /-- A group with a single operand, whose connective has no effect. -/
  | single (operand : Meaning)
  /-- A group of two or more operands. -/
  | group (c : Connective) (first second : Meaning) (rest : List Meaning)

namespace Test

/-- The test that a comparison with a value makes. -/
def ofComparison (c : Comparison) (v : Value) : Test :=
  if h : c = .is then .presence v.countsAsTrue else .against c v h

/-- What is written after the column. -/
def text : Test → String
  | .against c _ _ => " " ++ c.word ++ " ?"
  | .presence true => " is not null"
  | .presence false => " is null"

/-- The argument of a test, if it has one. -/
def args : Test → List Argument
  | .against _ v _ => [.value v]
  | .presence _ => []

/-- A comparison is rendered as the column in parentheses with the test after it. -/
theorem render_eq (c : Comparison) (column : String) (v : Value) :
    c.render column v =
      ⟨enclosed column (ofComparison c v).text, (ofComparison c v).args⟩ := by
  have hclose : (") " : String) = ")" ++ " " := rfl
  unfold Comparison.render ofComparison
  by_cases h : c = .is
  · rw [if_pos h, dif_pos h]
    cases v.countsAsTrue <;>
      simp [Fragment.raw, enclosed, text, args, hclose, String.append_assoc]
  · rw [if_neg h, dif_neg h]
    simp only [enclosed, text, args, hclose, String.append_assoc]

end Test

namespace Connective

/-- What stands between two operands. -/
def joiner (c : Connective) : String := " " ++ c.word ++ " "

end Connective

namespace Meaning

/-- The meaning of a group, given the meanings of its operands that ask for something. -/
def ofOperands (c : Connective) : List Meaning → Option Meaning
  | [] => none
  | [m] => some (.single m)
  | m :: n :: rest => some (.group c m n rest)

/-- A group asks for nothing if no operand asks for something. -/
theorem ofOperands_eq_none_iff {c : Connective} {ms : List Meaning} :
    ofOperands c ms = none ↔ ms = [] := by
  cases ms with
  | nil => simp [ofOperands]
  | cons m ms => cases ms <;> simp [ofOperands]

mutual

/-- The text of a meaning. -/
def text : Meaning → String
  | .leaf column test => enclosed column test.text
  | .single m => enclosed m.text ""
  | .group c m n rest => enclosed m.text (c.joiner ++ enclosed n.text (textOfRest c rest))

/-- The text of further operands, each after the connective. -/
def textOfRest (c : Connective) : List Meaning → String
  | [] => ""
  | m :: ms => c.joiner ++ enclosed m.text (textOfRest c ms)

end

mutual

/-- The tests of a meaning with their columns, from left to right. -/
def leaves : Meaning → List (String × Test)
  | .leaf column test => [(column, test)]
  | .single m => m.leaves
  | .group _ m n rest => m.leaves ++ (n.leaves ++ leavesOfAll rest)

/-- The tests of some meanings with their columns, from left to right. -/
def leavesOfAll : List Meaning → List (String × Test)
  | [] => []
  | m :: ms => m.leaves ++ leavesOfAll ms

end

/-- The arguments of a meaning. -/
def args (m : Meaning) : List Argument := m.leaves.flatMap fun l => l.2.args

/-- What a meaning is rendered as. -/
def fragment (m : Meaning) : Fragment := ⟨m.text, m.args⟩

/-- What a condition is rendered as that may ask for nothing. -/
def fragmentOf : Option Meaning → Fragment
  | none => .empty
  | some m => m.fragment

/-- A property of all meanings follows from what it is for a group by its operands. -/
theorem induction {motive : Meaning → Prop} (leaf : ∀ column test, motive (.leaf column test))
    (single : ∀ m, motive m → motive (.single m))
    (group : ∀ c m n rest, (∀ o ∈ m :: n :: rest, motive o) → motive (.group c m n rest)) :
    ∀ m, motive m
  | .leaf column test => leaf column test
  | .single m => single m (induction leaf single group m)
  | .group c m n rest => group c m n rest fun o _ => induction leaf single group o
termination_by m => sizeOf m
decreasing_by
  · simp
  · rename_i ho
    have hsize := List.sizeOf_lt_of_mem ho
    have hc : 0 < sizeOf c := by cases c <;> decide
    simp only [List.cons.sizeOf_spec, Meaning.group.sizeOf_spec] at *
    omega

/-! ## Rendering a group -/

/-- The text of a meaning begins with a parenthesis, so it is not empty. -/
theorem text_ne_empty (m : Meaning) : m.text ≠ "" := by
  cases m with
  | leaf column test => exact enclosed_ne_empty _ _
  | single m => exact enclosed_ne_empty _ _
  | group c m n rest => exact enclosed_ne_empty _ _

/-- Without anything to ask for there is no text, and with it there is one. -/
theorem text_fragmentOf_eq_empty_iff {m : Option Meaning} : (fragmentOf m).text = "" ↔ m = none := by
  cases m with
  | none => simp [fragmentOf, Fragment.empty, Fragment.raw]
  | some m => simp [fragmentOf, fragment, m.text_ne_empty]

/-- The texts of further operands follow one another. -/
theorem textOfRest_eq (c : Connective) (ms : List Meaning) :
    textOfRest c ms =
      String.join ((ms.map fun m => "(" ++ m.text ++ ")").map (c.joiner ++ ·)) := by
  induction ms with
  | nil => simp [textOfRest]
  | cons m ms ih =>
    rw [textOfRest, ih, List.map_cons, List.map_cons, String.join_cons]
    simp only [enclosed, String.append_assoc]

/-- The tests of some meanings are those of each in order. -/
theorem leavesOfAll_eq (ms : List Meaning) : leavesOfAll ms = ms.flatMap leaves := by
  induction ms with
  | nil => rfl
  | cons m ms ih => rw [leavesOfAll, ih, List.flatMap_cons]

/-- The arguments of a group are those of its operands in order. -/
theorem args_group (c : Connective) (m n : Meaning) (rest : List Meaning) :
    (group c m n rest).args = m.args ++ (n :: rest).flatMap args := by
  simp only [args, leaves, leavesOfAll_eq, List.flatMap_append, List.flatMap_assoc,
    List.flatMap_cons]
  rfl

/-- The texts of operands are put in parentheses. -/
theorem map_text_inParentheses (ms : List Meaning) :
    ((ms.map fragment).map Fragment.inParentheses).map Fragment.text =
      ms.map fun m => "(" ++ m.text ++ ")" := by
  rw [List.map_map, List.map_map]
  rfl

/-- The arguments of operands stay as they are in parentheses. -/
theorem flatMap_args_inParentheses (ms : List Meaning) :
    ((ms.map fragment).map Fragment.inParentheses).flatMap Fragment.args = ms.flatMap args := by
  rw [List.map_map, List.flatMap_map]
  rfl

/-- A connective joins operands to the rendering of their group. -/
theorem join_eq_fragmentOf (c : Connective) {operands : List Fragment} {ms : List Meaning}
    (h : operands.filter (fun f => !f.isEmpty) = ms.map fragment) :
    c.join operands = fragmentOf (ofOperands c ms) := by
  have hne : ∀ m : Meaning, "(" ++ m.text ++ ")" ≠ "" := by
    intro m hm
    refine enclosed_ne_empty m.text "" ?_
    rw [enclosed, String.append_empty, hm]
  rw [Connective.join, h, Fragment.join, map_text_inParentheses, flatMap_args_inParentheses]
  cases ms with
  | nil => rfl
  | cons m ms =>
    rw [List.map_cons, Fragment.joinTexts_cons, if_neg (hne m)]
    cases ms with
    | nil => simp [ofOperands, fragmentOf, fragment, text, enclosed, args, leaves]
    | cons n rest =>
      have htail := textOfRest_eq c (n :: rest)
      rw [textOfRest, Connective.joiner] at htail
      rw [← htail, List.flatMap_cons, ← args_group c]
      rfl

end Meaning

namespace Condition

mutual

/-- What a condition asks for, if it asks for anything.  The condition is checked as it is when it is
rendered: a field before its operator, and the operator of a group before its children. -/
def meaning (allowed : AllowList) : Condition → Except Error (Option Meaning)
  | .empty => .ok none
  | .compare field word value => do
    let column ← allowed.columnOf field
    let c ← Comparison.ofWord word
    return some (.leaf column (.ofComparison c value))
  | .group word children => do
    let c ← Connective.ofWord word
    let ms ← meanings allowed children
    return Meaning.ofOperands c ms

/-- What some conditions ask for; those that ask for nothing are left out. -/
def meanings (allowed : AllowList) : List Condition → Except Error (List Meaning)
  | [] => .ok []
  | c :: cs => do
    let m ← c.meaning allowed
    let ms ← meanings allowed cs
    return m.toList ++ ms

end

mutual

/-- A condition is rendered as its meaning is, and fails as its meaning does. -/
theorem rendered_eq_map_meaning (allowed : AllowList) (c : Condition) :
    c.rendered allowed = (c.meaning allowed).map Meaning.fragmentOf := by
  cases c with
  | empty => rfl
  | compare field word value =>
    simp only [rendered, meaning, Fragment.comparison]
    cases allowed.columnOf field with
    | error e => rfl
    | ok column =>
      cases Comparison.ofWord word with
      | error e => rfl
      | ok c =>
        change Except.ok (c.render column value) =
          Except.ok (Meaning.leaf column (.ofComparison c value)).fragment
        rw [Test.render_eq]
        simp [Meaning.fragment, Meaning.text, Meaning.args, Meaning.leaves]
  | group word children =>
    simp only [rendered, meaning]
    cases Connective.ofWord word with
    | error e => rfl
    | ok c =>
      rcases Outcome.map_eq_map_cases (filter_renderedAll allowed children) with
          ⟨e, hfs, hms⟩ | ⟨fs, ms, hfs, hms, hfilter⟩
      · rw [hfs, hms]
        rfl
      · rw [hfs, hms]
        exact congrArg Except.ok (Meaning.join_eq_fragmentOf c hfilter)

/-- Of the renderings of some conditions, those that are not empty are the renderings of their
meanings. -/
theorem filter_renderedAll (allowed : AllowList) (cs : List Condition) :
    (renderedAll allowed cs).map (List.filter fun f => !f.isEmpty) =
      (meanings allowed cs).map (List.map Meaning.fragment) := by
  cases cs with
  | nil => rfl
  | cons c cs =>
    simp only [renderedAll, meanings, rendered_eq_map_meaning allowed c]
    cases c.meaning allowed with
    | error e => rfl
    | ok m =>
      rcases Outcome.map_eq_map_cases (filter_renderedAll allowed cs) with
          ⟨e, hfs, hms⟩ | ⟨fs, ms, hfs, hms, hfilter⟩
      · rw [hfs, hms]
        rfl
      · rw [hfs, hms]
        refine congrArg Except.ok ?_
        cases m with
        | none => exact hfilter
        | some m =>
          have hm : (!m.fragment.isEmpty) = true := by
            simp [Fragment.isEmpty, Meaning.fragment, m.text_ne_empty]
          change List.filter (fun f => !f.isEmpty) (m.fragment :: fs) =
            m.fragment :: ms.map Meaning.fragment
          rw [List.filter_cons, if_pos hm, hfilter]

end

end Condition

end BoundSql
