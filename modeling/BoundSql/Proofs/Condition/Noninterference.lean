import BoundSql.Proofs.Condition.Traversal
import Mathlib.Data.List.Forall2

/-!
# What a caller puts into a condition stays out of its text

A caller chooses the names of fields and the values of a condition.  Two conditions have the `SameForm`
if they differ in these only: a name may be another one under another allow-list as long as both stand for
the same column or for none, and a value may be any other one, except that a null test shows whether its
value counts as true.

Conditions of the same form compile alike (`Condition.compile_noninterference`): to one text, with the
values of each as arguments, or to faults of one kind in the same place.
-/

namespace BoundSql

namespace Condition

/-- Conditions of one shape with the same operators, the first under the allow-list `allowed` and the
second under `allowed'`. -/
inductive SameForm (allowed allowed' : AllowList) : Condition → Condition → Prop
  | empty : SameForm allowed allowed' .empty .empty
  | compare {field field' word : String} {v v' : Value}
      (hcolumn : allowed.column? field = allowed'.column? field')
      (htruth : word = "is" → v.countsAsTrue = v'.countsAsTrue) :
      SameForm allowed allowed' (.compare field word v) (.compare field' word v')
  | group {word : String} {children children' : List Condition}
      (h : List.Forall₂ (SameForm allowed allowed') children children') :
      SameForm allowed allowed' (.group word children) (.group word children')

/-- Errors of one kind: two fields that are unknown, or one operator that is. -/
inductive SameFault : Error → Error → Prop
  | field (name name' : String) : SameFault (.unknownField name) (.unknownField name')
  | operator (cause : OperatorError) : SameFault (.unknownOperator cause) (.unknownOperator cause)

variable {allowed allowed' : AllowList}

mutual

/-- It does not matter which of two conditions of the same form is the first. -/
theorem SameForm.symm {c c' : Condition} (h : SameForm allowed allowed' c c') :
    SameForm allowed' allowed c' c := by
  cases h with
  | empty => exact .empty
  | compare hcolumn htruth => exact .compare hcolumn.symm fun hword => (htruth hword).symm
  | group hchildren => exact .group (forall₂_sameForm_symm hchildren)

/-- The same for lists of conditions. -/
theorem forall₂_sameForm_symm {cs cs' : List Condition}
    (h : List.Forall₂ (SameForm allowed allowed') cs cs') :
    List.Forall₂ (SameForm allowed' allowed) cs' cs := by
  cases h with
  | nil => exact .nil
  | cons hhead htail => exact .cons hhead.symm (forall₂_sameForm_symm htail)

end

/-! ## The text -/

/-- The text of a comparison shows of its value only whether it counts as true, and that only in a null
test. -/
theorem text_render_congr {c : Comparison} {v v' : Value}
    (h : c = .is → v.countsAsTrue = v'.countsAsTrue) (column : String) :
    (c.render column v).text = (c.render column v').text := by
  unfold Comparison.render
  by_cases hc : c = .is
  · rw [if_pos hc, if_pos hc, h hc]
  · rw [if_neg hc, if_neg hc]

/-- The text of joined operands, given the texts of the operands. -/
theorem text_connective_join (c : Connective) (operands : List Fragment) :
    (c.join operands).text =
      Fragment.joinTexts (" " ++ c.word ++ " ")
        (((operands.map Fragment.text).filter fun t => !t.isEmpty).map fun t => "(" ++ t ++ ")") := by
  rw [Connective.join, Fragment.text_join, List.filter_map, List.map_map, List.map_map]
  rfl

mutual

/-- Conditions of the same form are rendered as the same text if both are rendered. -/
theorem SameForm.text_rendered {c c' : Condition} {f f' : Fragment}
    (h : SameForm allowed allowed' c c') (hf : c.rendered allowed = .ok f)
    (hf' : c'.rendered allowed' = .ok f') : f.text = f'.text := by
  cases h with
  | empty =>
    obtain rfl := Except.ok.inj hf
    obtain rfl := Except.ok.inj hf'
    rfl
  | compare hcolumn htruth =>
    obtain ⟨column, hcol, hrest⟩ := Outcome.bind_eq_ok_iff.1 hf
    obtain ⟨column', hcol', hrest'⟩ := Outcome.bind_eq_ok_iff.1 hf'
    rw [AllowList.columnOf_eq_ok_iff] at hcol hcol'
    obtain rfl : column = column' := Option.some.inj (hcol.symm.trans (hcolumn.trans hcol'))
    obtain ⟨c, hc, hr⟩ := Outcome.bind_eq_ok_iff.1 hrest
    obtain ⟨d, hd, hr'⟩ := Outcome.bind_eq_ok_iff.1 hrest'
    obtain rfl : c = d := Except.ok.inj (hc.symm.trans hd)
    obtain rfl := Except.ok.inj hr
    obtain rfl := Except.ok.inj hr'
    have hword := Comparison.ofWord?_eq_some_iff.1 (Comparison.ofWord_eq_ok_iff.1 hc)
    refine text_render_congr (fun his => htruth ?_) column
    rw [hword, his]
    rfl
  | group hchildren =>
    obtain ⟨c, hc, hrest⟩ := Outcome.bind_eq_ok_iff.1 hf
    obtain ⟨d, hd, hrest'⟩ := Outcome.bind_eq_ok_iff.1 hf'
    obtain rfl : c = d := Except.ok.inj (hc.symm.trans hd)
    obtain ⟨fs, hfs, hr⟩ := Outcome.bind_eq_ok_iff.1 hrest
    obtain ⟨gs, hgs, hr'⟩ := Outcome.bind_eq_ok_iff.1 hrest'
    obtain rfl := Except.ok.inj hr
    obtain rfl := Except.ok.inj hr'
    rw [text_connective_join, text_connective_join, texts_renderedAll hchildren hfs hgs]

/-- The same for lists of conditions, place by place. -/
theorem texts_renderedAll {cs cs' : List Condition} {fs fs' : List Fragment}
    (h : List.Forall₂ (SameForm allowed allowed') cs cs') (hfs : renderedAll allowed cs = .ok fs)
    (hfs' : renderedAll allowed' cs' = .ok fs') :
    fs.map Fragment.text = fs'.map Fragment.text := by
  cases h with
  | nil =>
    obtain rfl := Except.ok.inj hfs
    obtain rfl := Except.ok.inj hfs'
    rfl
  | cons hhead htail =>
    obtain ⟨f, hf, hrest⟩ := Outcome.bind_eq_ok_iff.1 hfs
    obtain ⟨f', hf', hrest'⟩ := Outcome.bind_eq_ok_iff.1 hfs'
    obtain ⟨gs, hgs, hr⟩ := Outcome.bind_eq_ok_iff.1 hrest
    obtain ⟨gs', hgs', hr'⟩ := Outcome.bind_eq_ok_iff.1 hrest'
    obtain rfl := Except.ok.inj hr
    obtain rfl := Except.ok.inj hr'
    rw [List.map_cons, List.map_cons, hhead.text_rendered hf hf', texts_renderedAll htail hgs hgs']

end

/-! ## The faults -/

mutual

/-- Conditions of the same form are listed place by place. -/
theorem SameForm.preorder {c c' : Condition} (h : SameForm allowed allowed' c c') :
    List.Forall₂ (SameForm allowed allowed') c.preorder c'.preorder := by
  cases h with
  | empty => exact .cons .empty .nil
  | compare hcolumn htruth => exact .cons (.compare hcolumn htruth) .nil
  | group hchildren => exact .cons (.group hchildren) (forall₂_preorderOfAll hchildren)

/-- The same for lists of conditions. -/
theorem forall₂_preorderOfAll {cs cs' : List Condition}
    (h : List.Forall₂ (SameForm allowed allowed') cs cs') :
    List.Forall₂ (SameForm allowed allowed') (preorderOfAll cs) (preorderOfAll cs') := by
  cases h with
  | nil => exact .nil
  | cons hhead htail => exact List.rel_append hhead.preorder (forall₂_preorderOfAll htail)

end

/-- What has a member in one place has a related one there in a related list. -/
theorem exists_getElem?_of_forall₂ {α β : Type} {R : α → β → Prop} {xs : List α} {ys : List β}
    {k : Nat} {a : α} (h : List.Forall₂ R xs ys) (ha : xs[k]? = some a) :
    ∃ b, ys[k]? = some b ∧ R a b := by
  induction h generalizing k with
  | nil => cases ha
  | @cons x y xs ys hhead htail ih =>
    cases k with
    | zero =>
      obtain rfl := Option.some.inj ha
      exact ⟨y, rfl, hhead⟩
    | succ k => exact ih ha

/-- A condition of the same form as one with a fault has a fault of the same kind. -/
theorem SameForm.exists_fault {c c' : Condition} {e : Error} (h : SameForm allowed allowed' c c')
    (he : c.fault? allowed = some e) : ∃ e', c'.fault? allowed' = some e' ∧ SameFault e e' := by
  cases h with
  | empty => cases he
  | @compare field field' word v v' hcolumn htruth =>
    rcases fault?_compare_eq_some_iff.1 he with ⟨hunknown, rfl⟩ | ⟨hknown, hword, rfl⟩
    · rw [hcolumn] at hunknown
      exact ⟨_, fault?_compare_eq_some_iff.2 (Or.inl ⟨hunknown, rfl⟩), .field field field'⟩
    · rw [hcolumn] at hknown
      exact ⟨_, fault?_compare_eq_some_iff.2 (Or.inr ⟨hknown, hword, rfl⟩), .operator _⟩
  | group hchildren =>
    obtain ⟨hword, rfl⟩ := fault?_group_eq_some_iff.1 he
    exact ⟨_, fault?_group_eq_some_iff.2 ⟨hword, rfl⟩, .operator _⟩

/-- The first fault of a condition is where the first fault of another one of the same form is. -/
theorem SameForm.exists_firstFault {c c' n : Condition} {k : Nat} {e : Error}
    (h : SameForm allowed allowed' c c') (hfault : FirstFault allowed c k n e) :
    ∃ n' e', FirstFault allowed' c' k n' e' ∧ SameForm allowed allowed' n n' ∧ SameFault e e' := by
  obtain ⟨n', hn', hform⟩ := exists_getElem?_of_forall₂ h.preorder hfault.place
  obtain ⟨e', he', hsame⟩ := hform.exists_fault hfault.fault
  refine ⟨n', e', ⟨hn', he', ?_⟩, hform, hsame⟩
  intro j m' hj hm'
  cases hfault' : m'.fault? allowed' with
  | none => rfl
  | some e'' =>
    -- An earlier fault in the second condition would be one in the first condition.
    obtain ⟨m, hm, hforms⟩ := exists_getElem?_of_forall₂ h.symm.preorder hm'
    obtain ⟨d, hd, -⟩ := hforms.exists_fault hfault'
    rw [hfault.before j m hj hm] at hd
    cases hd

/-! ## Two compilations -/

/-- Conditions of the same form compile alike.  Either both compile, to one text, and the arguments of
each are the values of its comparisons that are no null tests, from left to right; or both fail, each with
the fault of its first condition that has one, and these conditions stand in the same place, have the same
form and have faults of the same kind. -/
theorem compile_noninterference {c c' : Condition} (h : SameForm allowed allowed' c c') :
    (∃ f f', (c.compile allowed).outcome = .ok f ∧ (c'.compile allowed').outcome = .ok f' ∧
      f.text = f'.text ∧ f.args = c.boundValues.map .value ∧ f'.args = c'.boundValues.map .value) ∨
    ∃ k n n' e e', (c.compile allowed).outcome = .error e ∧
      (c'.compile allowed').outcome = .error e' ∧
      FirstFault allowed c k n e ∧ FirstFault allowed' c' k n' e' ∧
      SameForm allowed allowed' n n' ∧ SameFault e e' := by
  rw [outcome_compile, outcome_compile, compiled_eq_rendered, compiled_eq_rendered]
  cases hf : c.rendered allowed with
  | error e =>
    obtain ⟨k, n, hfault⟩ := rendered_eq_error_iff.1 hf
    obtain ⟨n', e', hfault', hn, he⟩ := h.exists_firstFault hfault
    have hf' := rendered_eq_error_iff.2 ⟨k, n', hfault'⟩
    exact Or.inr ⟨k, n, n', e, e', rfl, hf', hfault, hfault', hn, he⟩
  | ok f =>
    cases hf' : c'.rendered allowed' with
    | error e' =>
      -- The first fault of the second condition would be one of the first condition.
      obtain ⟨k, n', hfault'⟩ := rendered_eq_error_iff.1 hf'
      obtain ⟨n, e, hfault, -⟩ := h.symm.exists_firstFault hfault'
      rw [rendered_eq_error_iff.2 ⟨k, n, hfault⟩] at hf
      cases hf
    | ok f' =>
      exact Or.inl ⟨f, f', rfl, rfl, h.text_rendered hf hf', args_of_rendered hf,
        args_of_rendered hf'⟩

/-- A caller who writes SQL where a value is wanted, under other names of the fields, changes an argument
and nothing else. -/
theorem compile_noninterference_of_injection :
    let allowed := (AllowList.empty.allow "a" "t.a").allow "b" "t.b"
    let allowed' := (AllowList.empty.allow "x" "t.a").allow "y" "t.b"
    let c := all [.compare "a" "=" (.int 1), any [.compare "b" "is" (.bool true), .empty]]
    let c' := all [.compare "x" "=" (.text "1) or (1 = 1"), any [.compare "y" "is" (.int 7), .empty]]
    SameForm allowed allowed' c c' ∧
      ∃ f f', (c.compile allowed).outcome = .ok f ∧ (c'.compile allowed').outcome = .ok f' ∧
        f.text = f'.text ∧ f.args = [.value (.int 1)] ∧
        f'.args = [.value (.text "1) or (1 = 1")] := by
  intro allowed allowed' c c'
  have hb : SameForm allowed allowed' (any [.compare "b" "is" (.bool true), .empty])
      (any [.compare "y" "is" (.int 7), .empty]) :=
    .group (.cons (.compare rfl fun _ => rfl) (.cons .empty .nil))
  have h : SameForm allowed allowed' c c' :=
    .group (.cons (.compare rfl (absurd · (by decide))) (.cons hb .nil))
  refine ⟨h, ?_⟩
  rcases compile_noninterference h with hok | ⟨k, n, n', e, e', he, -⟩
  · exact hok
  · rw [outcome_compile, compiled_eq_rendered] at he
    cases he

end Condition

end BoundSql
