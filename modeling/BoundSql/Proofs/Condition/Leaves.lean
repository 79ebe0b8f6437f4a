import BoundSql.Proofs.Condition.Meaning
import BoundSql.Proofs.Condition.Validation
import BoundSql.Proofs.Template.Staging
import BoundSql.Template.Commands

/-!
# The leaves of a condition

What a condition asks for is what its comparisons ask for; empty conditions and groups only arrange them.
`Condition.leaves` lists the comparisons of a tree from left to right.  A compiled condition has the values
of that list as its arguments, but for null tests, and it has a text if and only if the list is not empty.
The machine reverses operands and drops empty ones at every group, and still no leaf gets lost.

That matters most for statements that change rows: a condition with a leaf somewhere is at the end of every
delete and every update that it is given to (`Condition.leaves_accounted_for`).
-/

namespace BoundSql

namespace Condition

/-- A comparison as it stands in a tree. -/
structure Leaf where
  field : String
  word : String
  value : Value

/-- The condition that a leaf is. -/
def Leaf.condition (l : Leaf) : Condition := .compare l.field l.word l.value

mutual

/-- The comparisons of a tree from left to right. -/
def leaves : Condition → List Leaf
  | .empty => []
  | .compare field word value => [⟨field, word, value⟩]
  | .group _ children => leavesOfAll children

/-- The comparisons of some trees from left to right. -/
def leavesOfAll : List Condition → List Leaf
  | [] => []
  | c :: cs => c.leaves ++ leavesOfAll cs

end

/-- The values of the leaves that are no null tests, from left to right. -/
def leafValues (c : Condition) : List Value :=
  (c.leaves.filter fun l => l.word ≠ "is").map Leaf.value

/-! ## Leaves and what occurs in a tree -/

/-- The leaves of some trees are those of each. -/
theorem mem_leavesOfAll_iff {l : Leaf} {cs : List Condition} :
    l ∈ leavesOfAll cs ↔ ∃ d ∈ cs, l ∈ d.leaves := by
  induction cs with
  | nil => simp [leavesOfAll]
  | cons d cs ih => simp [leavesOfAll, ih]

/-- The leaves of a tree are the comparisons that occur in it. -/
theorem mem_leaves_iff {l : Leaf} {c : Condition} : l ∈ c.leaves ↔ Occurs l.condition c := by
  induction c using Condition.induction with
  | empty =>
    constructor
    · exact nofun
    · exact nofun
  | compare field word v =>
    constructor
    · intro h
      obtain rfl := List.mem_singleton.1 h
      exact .self
    · intro h
      cases h
      exact List.mem_singleton_self _
  | group word children ih =>
    rw [leaves, mem_leavesOfAll_iff]
    constructor
    · rintro ⟨d, hd, hl⟩
      exact .child hd ((ih d hd).1 hl)
    · intro h
      cases h with
      | child hd hl => exact ⟨_, hd, (ih _ hd).2 hl⟩

/-! ## Values -/

mutual

/-- The values that are bound in a tree are those of its leaves. -/
theorem boundValues_eq_leafValues (c : Condition) : c.boundValues = c.leafValues := by
  cases c with
  | empty => rfl
  | compare field word value =>
    rw [boundValues, preorder, leafValues, leaves]
    by_cases hword : word = "is"
    · have hnone : boundValue? (compare field word value) = none := if_pos hword
      rw [List.filterMap_cons_none hnone, List.filter_cons_of_neg (by simpa using hword)]
      rfl
    · have hsome : boundValue? (compare field word value) = some value := if_neg hword
      rw [List.filterMap_cons_some hsome, List.filter_cons_of_pos (by simpa using hword)]
      rfl
  | group word children =>
    have hnone : boundValue? (group word children) = none := rfl
    rw [boundValues, preorder, leafValues, leaves, List.filterMap_cons_none hnone]
    exact filterMap_boundValue?_eq children

/-- The same for a list of trees, one after the other. -/
theorem filterMap_boundValue?_eq (cs : List Condition) :
    (preorderOfAll cs).filterMap boundValue? =
      ((leavesOfAll cs).filter fun l => l.word ≠ "is").map Leaf.value := by
  cases cs with
  | nil => rfl
  | cons c cs =>
    have hfirst := boundValues_eq_leafValues c
    rw [boundValues, leafValues] at hfirst
    rw [preorderOfAll, leavesOfAll, List.filterMap_append, List.filter_append, List.map_append,
      hfirst, filterMap_boundValue?_eq cs]

end

/-- The arguments of a compiled condition are the values of its leaves. -/
theorem args_of_compile {c : Condition} {allowed : AllowList} {f : Fragment}
    (h : (c.compile allowed).outcome = .ok f) : f.args = c.leafValues.map .value := by
  rw [outcome_compile, compiled_eq_rendered] at h
  rw [args_of_rendered h, boundValues_eq_leafValues]

/-! ## Text -/

mutual

/-- A condition asks for nothing if it has no leaves. -/
theorem meaning_eq_none_iff {allowed : AllowList} {c : Condition} {m : Option Meaning}
    (h : c.meaning allowed = .ok m) : m = none ↔ c.leaves = [] := by
  cases c with
  | empty =>
    obtain rfl := Except.ok.inj h
    simp [leaves]
  | compare field word value =>
    obtain ⟨column, -, hrest⟩ := Outcome.bind_eq_ok_iff.1 h
    obtain ⟨c, -, hm⟩ := Outcome.bind_eq_ok_iff.1 hrest
    obtain rfl := Except.ok.inj hm
    simp [leaves]
  | group word children =>
    obtain ⟨c, -, hrest⟩ := Outcome.bind_eq_ok_iff.1 h
    obtain ⟨ms, hms, hm⟩ := Outcome.bind_eq_ok_iff.1 hrest
    obtain rfl := Except.ok.inj hm
    rw [Meaning.ofOperands_eq_none_iff, leaves]
    exact meanings_eq_nil_iff hms

/-- The same for a list of conditions. -/
theorem meanings_eq_nil_iff {allowed : AllowList} {cs : List Condition} {ms : List Meaning}
    (h : meanings allowed cs = .ok ms) : ms = [] ↔ leavesOfAll cs = [] := by
  cases cs with
  | nil =>
    obtain rfl := Except.ok.inj h
    simp [leavesOfAll]
  | cons c cs =>
    obtain ⟨m, hm, hrest⟩ := Outcome.bind_eq_ok_iff.1 h
    obtain ⟨ns, hns, hms⟩ := Outcome.bind_eq_ok_iff.1 hrest
    obtain rfl := Except.ok.inj hms
    rw [leavesOfAll, List.append_eq_nil_iff, List.append_eq_nil_iff, Option.toList_eq_nil_iff,
      meaning_eq_none_iff hm, meanings_eq_nil_iff hns]

end

/-- A compiled condition has no text if and only if the condition has no leaves. -/
theorem text_of_compile_eq_empty_iff {c : Condition} {allowed : AllowList} {f : Fragment}
    (h : (c.compile allowed).outcome = .ok f) : f.text = "" ↔ c.leaves = [] := by
  -- The rendering says nothing about leaves; the meaning behind it keeps them apart from what is empty.
  rw [outcome_compile, compiled_eq_rendered, rendered_eq_map_meaning] at h
  obtain ⟨m, hm, rfl⟩ := Outcome.map_eq_ok_iff.1 h
  rw [Meaning.text_fragmentOf_eq_empty_iff, meaning_eq_none_iff hm]

end Condition

/-! ## Statements that end with a condition -/

namespace Template

/-- The templates that change rows by a condition: deletes and updates. -/
inductive Changes (condition : Segment) : Template → Prop
  | delete (table : Segment) (single : Bool) : Changes condition (.delete table condition single)
  | update (table : Segment) (fields : List (String × Segment)) :
      Changes condition (.update table fields condition)

/-- The condition is the last segment of a template that changes rows. -/
theorem Changes.eq_ofSegments {condition : Segment} {t : Template} (h : Changes condition t) :
    ∃ segments, t = ofSegments (segments ++ [condition]) := by
  cases h with
  | delete table single =>
    exact ⟨[.text (if single then "delete top (1) from " else "delete from "), table, .text "\n"], rfl⟩
  | update table fields =>
    refine ⟨[.text "update ", table, .text "\n", .text "set "] ++ assignments "" fields ++
      [.text "\n"], ?_⟩
    rw [Template.update, List.append_assoc _ [Segment.text "\n"]]
    rfl

end Template

namespace Condition

/-- The arguments of a compiled condition are the values of its leaves that are no null tests, from left to
right, and the leaves are all comparisons that occur in the condition.  Its text and its `where` clause are
empty if and only if there is no leaf, and otherwise the clause is `where ` and the text, with the same
arguments.  So if there is a leaf, deletes and updates with the clause as their condition, given as it is
or in the place of a block, end with it and with the values of the leaves. -/
theorem leaves_accounted_for {c : Condition} {allowed : AllowList} {f : Fragment}
    (h : (c.compile allowed).outcome = .ok f) :
    f.args = ((c.leaves.filter fun l => l.word ≠ "is").map fun l => .value l.value) ∧
    (∀ l, l ∈ c.leaves ↔ Occurs (.compare l.field l.word l.value) c) ∧
    (f.text = "" ↔ c.leaves = []) ∧ (f.asWhere.text = "" ↔ c.leaves = []) ∧
    (f.text ≠ "" → f.asWhere = ⟨"where " ++ f.text, f.args⟩) ∧
    ∀ (t : Template) (condition : Segment) (b : Bindings) (s : Statement), c.leaves ≠ [] →
      t.Changes condition → condition.part? b.block? = some f.asWhere →
      (t.generate b).outcome = .ok s →
      ∃ front values, s.sql = front ++ ("where " ++ f.text) ∧
        s.values = values ++ (c.leaves.filter fun l => l.word ≠ "is").map Leaf.value := by
  have hargs : f.args = c.leafValues.map .value := args_of_compile h
  have htext : f.text = "" ↔ c.leaves = [] := text_of_compile_eq_empty_iff h
  refine ⟨?_, ?_, htext, ?_, Fragment.asWhere_of_text_ne_empty, ?_⟩
  · rw [hargs, leafValues, List.map_map]
    rfl
  · intro l
    exact mem_leaves_iff
  · rw [Fragment.text_asWhere_eq_empty_iff, htext]
  · intro t condition b s hleaves ht hcondition hs
    obtain ⟨segments, rfl⟩ := ht.eq_ofSegments
    rw [Fragment.asWhere_of_text_ne_empty (mt htext.1 hleaves)] at hcondition
    have hend := Template.ends_with_part hcondition hs
    rw [hargs, Template.valuesOf_map_value] at hend
    rw [hend]
    exact ⟨_, _, rfl, rfl⟩

/-- Three leaves among empty conditions and groups, one of them a null test, and an update that has the
clause in the place of a block. -/
theorem leaves_accounted_for_of_update :
    let c := all [.empty, any [], any [all [.empty, .compare "b" "is" (.int 0)],
      all [.compare "a" "=" (.int 1), .compare "a" "<" (.int 5)]]]
    let allowed := (AllowList.empty.allow "a" "t.a").allow "b" "t.b"
    let f : Fragment := ⟨"((((t.b) is null)) or (((t.a) = ?) and ((t.a) < ?)))",
      [.value (.int 1), .value (.int 5)]⟩
    let condition : Segment := .block (.ofKey (.name "where"))
    let t := Template.update (.text "t") [("a", .fragment (.mark (.value (.int 0))))] condition
    let b := Bindings.empty.bindBlock (.name "where") f.asWhere
    let s : Statement := ⟨"update t\nset a = ?\nwhere ((((t.b) is null)) or (((t.a) = ?) and ((t.a) < ?)))",
      [.int 0, .int 1, .int 5]⟩
    (c.compile allowed).outcome = .ok f ∧ c.leaves ≠ [] ∧ t.Changes condition ∧
      condition.part? b.block? = some f.asWhere ∧ (t.generate b).outcome = .ok s ∧
      f.args = ((c.leaves.filter fun l => l.word ≠ "is").map fun l => .value l.value) ∧
      ∃ front values, s.sql = front ++ ("where " ++ f.text) ∧
        s.values = values ++ (c.leaves.filter fun l => l.word ≠ "is").map Leaf.value := by
  intro c allowed f condition t b s
  have h : (c.compile allowed).outcome = .ok f := by
    rw [outcome_compile, compiled_eq_rendered]
    rfl
  have hleaves : c.leaves ≠ [] := List.cons_ne_nil _ _
  have ht : t.Changes condition := .update _ _
  have hcondition : condition.part? b.block? = some f.asWhere := rfl
  have hs : (t.generate b).outcome = .ok s := by
    simp only [t, b, s, f, condition]
    rfl
  obtain ⟨hargs, -, -, -, -, hend⟩ := leaves_accounted_for h
  exact ⟨h, hleaves, ht, hcondition, hs, hargs, hend t condition b s hleaves ht hcondition hs⟩

end Condition

end BoundSql
