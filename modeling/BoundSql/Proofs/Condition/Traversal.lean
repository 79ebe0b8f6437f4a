import BoundSql.Condition.Rendering
import BoundSql.Proofs.Condition.Machine
import BoundSql.Proofs.Fragment.Composition
import BoundSql.Proofs.Outcome

/-!
# Conditions in the order in which they are met

`Condition.preorder` lists a tree, a group before its children and these from left to right.  That list
says all about a compilation but its text: the error is the fault of the first condition of the list that
has one (`Condition.rendered_eq_error_iff`), and otherwise the arguments are the values that the
conditions of the list bind, in order (`Condition.args_of_rendered`).  Nothing of the tree is passed over
on the way, whatever is dropped from the text later.
-/

namespace BoundSql

namespace Condition

mutual

/-- The conditions of a tree in the order in which they are met. -/
def preorder : Condition → List Condition
  | .empty => [.empty]
  | .compare field word value => [.compare field word value]
  | .group word children => .group word children :: preorderOfAll children

/-- The conditions of some trees in the order in which they are met. -/
def preorderOfAll : List Condition → List Condition
  | [] => []
  | c :: cs => c.preorder ++ preorderOfAll cs

end

/-- What is wrong with a condition itself, whatever its children are.  A field is looked at before its
operator. -/
def fault? (allowed : AllowList) : Condition → Option Error
  | .empty => none
  | .compare field word _ =>
    match allowed.column? field with
    | none => some (.unknownField field)
    | some _ =>
      match Comparison.ofWord? word with
      | none => some (.unknownOperator (.comparison word))
      | some _ => none
  | .group word _ =>
    match Connective.ofWord? word with
    | none => some (.unknownOperator (.connective word))
    | some _ => none

/-- The value that a condition itself binds; a null test binds none. -/
def boundValue? : Condition → Option Value
  | .compare _ word value => if word = "is" then none else some value
  | _ => none

/-- The values of the comparisons of a tree that are no null tests, from left to right. -/
def boundValues (c : Condition) : List Value := c.preorder.filterMap boundValue?

/-- The condition `n` at place `k` is the first of a tree that has a fault, which is `e`. -/
structure FirstFault (allowed : AllowList) (c : Condition) (k : Nat) (n : Condition) (e : Error) :
    Prop where
  place : c.preorder[k]? = some n
  fault : n.fault? allowed = some e
  before : ∀ j m, j < k → c.preorder[j]? = some m → m.fault? allowed = none

/-! ## The first fault -/

/-- A comparison has a fault when its field is unknown, or else when its operator is. -/
theorem fault?_compare_eq_some_iff {allowed : AllowList} {field word : String} {v : Value} {e : Error} :
    (compare field word v).fault? allowed = some e ↔
      (allowed.column? field = none ∧ e = .unknownField field) ∨
      (allowed.column? field ≠ none ∧ Comparison.ofWord? word = none ∧
        e = .unknownOperator (.comparison word)) := by
  rw [fault?]
  cases allowed.column? field with
  | none => simp [eq_comm]
  | some column => cases Comparison.ofWord? word <;> simp [eq_comm]

/-- A group has a fault when its operator is unknown. -/
theorem fault?_group_eq_some_iff {allowed : AllowList} {word : String} {children : List Condition}
    {e : Error} :
    (group word children).fault? allowed = some e ↔
      Connective.ofWord? word = none ∧ e = .unknownOperator (.connective word) := by
  rw [fault?]
  cases Connective.ofWord? word <;> simp [eq_comm]

mutual

/-- A tree is rendered in vain for the fault of the first condition in it that has one. -/
theorem failure?_rendered (allowed : AllowList) (c : Condition) :
    Outcome.failure? (c.rendered allowed) = c.preorder.findSome? (fault? allowed) := by
  cases c with
  | empty => rfl
  | compare field word value =>
    simp only [rendered, Fragment.comparison, AllowList.columnOf, Comparison.ofWord, preorder,
      List.findSome?_singleton, fault?]
    cases allowed.column? field with
    | none => rfl
    | some column => cases Comparison.ofWord? word <;> rfl
  | group word children =>
    have hchildren := failure?_renderedAll allowed children
    rw [preorder, List.findSome?_cons, ← hchildren, rendered, fault?, Connective.ofWord]
    cases Connective.ofWord? word with
    | none => rfl
    | some c => cases renderedAll allowed children <;> rfl

/-- The same for a list of trees, which are listed one after the other. -/
theorem failure?_renderedAll (allowed : AllowList) (cs : List Condition) :
    Outcome.failure? (renderedAll allowed cs) = (preorderOfAll cs).findSome? (fault? allowed) := by
  cases cs with
  | nil => rfl
  | cons c cs =>
    rw [preorderOfAll, List.findSome?_append, ← failure?_rendered allowed c,
      ← failure?_renderedAll allowed cs, renderedAll]
    cases c.rendered allowed with
    | error e => rfl
    | ok f => cases renderedAll allowed cs <;> rfl

end

/-- A tree is rendered in vain exactly for its first fault. -/
theorem rendered_eq_error_iff {allowed : AllowList} {c : Condition} {e : Error} :
    c.rendered allowed = .error e ↔ ∃ k n, FirstFault allowed c k n e := by
  rw [← Outcome.failure?_eq_some_iff, failure?_rendered, Outcome.findSome?_eq_some_iff_getElem?]
  constructor
  · rintro ⟨k, n, hplace, hfault, hbefore⟩
    exact ⟨k, n, hplace, hfault, hbefore⟩
  · rintro ⟨k, n, h⟩
    exact ⟨k, n, h.place, h.fault, h.before⟩

/-! ## The values that are bound -/

/-- A comparison binds its value, unless it is a null test. -/
theorem args_render {c : Comparison} {word : String} (h : Comparison.ofWord? word = some c)
    (field column : String) (v : Value) :
    (c.render column v).args = (compare field word v).boundValues.map .value := by
  have hword : word = "is" ↔ c = .is := by
    rw [Comparison.ofWord?_eq_some_iff.1 h]
    exact ⟨fun hw => Comparison.word_injective hw, fun hc => congrArg Comparison.word hc⟩
  rw [boundValues, preorder, Comparison.render]
  by_cases hc : c = .is
  · have hnone : boundValue? (compare field word v) = none := if_pos (hword.2 hc)
    rw [if_pos hc, List.filterMap_cons_none hnone]
    rfl
  · have hsome : boundValue? (compare field word v) = some v := if_neg (mt hword.1 hc)
    rw [if_neg hc, List.filterMap_cons_some hsome]
    rfl

mutual

/-- The arguments of a rendered tree are the values that its comparisons bind, from left to right. -/
theorem args_of_rendered {allowed : AllowList} {c : Condition} {f : Fragment}
    (h : c.rendered allowed = .ok f) : f.args = c.boundValues.map .value := by
  cases c with
  | empty =>
    obtain rfl := Except.ok.inj h
    rfl
  | compare field word value =>
    obtain ⟨column, -, hrest⟩ := Outcome.bind_eq_ok_iff.1 h
    obtain ⟨c, hc, hf⟩ := Outcome.bind_eq_ok_iff.1 hrest
    obtain rfl := Except.ok.inj hf
    exact args_render (Comparison.ofWord_eq_ok_iff.1 hc) field column value
  | group word children =>
    obtain ⟨c, -, hrest⟩ := Outcome.bind_eq_ok_iff.1 h
    obtain ⟨fs, hfs, hf⟩ := Outcome.bind_eq_ok_iff.1 hrest
    obtain rfl := Except.ok.inj hf
    -- What the connective drops is empty, and so binds nothing.
    have hnone : boundValue? (group word children) = none := rfl
    rw [Fragment.args_connective_join c (markCount_of_renderedAll hfs).1,
      args_of_renderedAll hfs, boundValues, preorder, List.filterMap_cons_none hnone]

/-- The same for a list of trees, one after the other. -/
theorem args_of_renderedAll {allowed : AllowList} {cs : List Condition} {fs : List Fragment}
    (h : renderedAll allowed cs = .ok fs) :
    fs.flatMap Fragment.args = ((preorderOfAll cs).filterMap boundValue?).map .value := by
  cases cs with
  | nil =>
    obtain rfl := Except.ok.inj h
    rfl
  | cons c cs =>
    obtain ⟨f, hf, hrest⟩ := Outcome.bind_eq_ok_iff.1 h
    obtain ⟨gs, hgs, hfs⟩ := Outcome.bind_eq_ok_iff.1 hrest
    obtain rfl := Except.ok.inj hfs
    rw [List.flatMap_cons, args_of_rendered hf, args_of_renderedAll hgs, boundValues,
      preorderOfAll, List.filterMap_append, List.map_append]

end

end Condition

end BoundSql
