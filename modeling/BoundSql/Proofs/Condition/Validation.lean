import BoundSql.Proofs.Condition.Traversal

/-!
# Conditions are checked as a whole

Which conditions compile, and what is said about the others, without a word about how they are compiled.
A condition is bad by itself, whatever stands around or below it: a group for its connective, a
comparison for its field or its operator (`Condition.IsBad`), and `Condition.Offends` says what it is
reproached with.  A tree compiles when none of the conditions that occur in it is bad, and otherwise the
error is what the first bad one in preorder offends with (`Condition.compile_reports_first_offender`).

Nothing hides a bad condition: it may stand in a group that is dropped from the text, behind an empty
condition or below any number of good groups, and still it is in the list.
-/

namespace BoundSql

/-! ## The words that are known -/

namespace Comparison

/-- The words that name comparisons. -/
def words : List String := ["=", ">", "<", "<>", ">=", "<=", "like", "is"]

/-- The words of comparisons are those of the list. -/
theorem mem_words_iff {word : String} : word ∈ words ↔ ∃ c : Comparison, word = c.word := by
  constructor
  · intro h
    simp only [words, List.mem_cons, List.not_mem_nil, or_false] at h
    rcases h with rfl | rfl | rfl | rfl | rfl | rfl | rfl | rfl
    exacts [⟨.equal, rfl⟩, ⟨.greater, rfl⟩, ⟨.less, rfl⟩, ⟨.different, rfl⟩, ⟨.atLeast, rfl⟩,
      ⟨.atMost, rfl⟩, ⟨.like, rfl⟩, ⟨.is, rfl⟩]
  · rintro ⟨c, rfl⟩
    cases c <;> decide

/-- The words of the list, and no others, name a comparison. -/
theorem isSome_ofWord?_iff {word : String} : (ofWord? word).isSome ↔ word ∈ words := by
  rw [mem_words_iff, Option.isSome_iff_exists]
  exact exists_congr fun c => ofWord?_eq_some_iff

/-- A word outside the list names no comparison. -/
theorem ofWord?_eq_none_iff {word : String} : ofWord? word = none ↔ word ∉ words := by
  rw [← isSome_ofWord?_iff, Option.not_isSome_iff_eq_none]

end Comparison

namespace Connective

/-- The words that name connectives. -/
def words : List String := ["and", "or"]

/-- The words of connectives are those of the list. -/
theorem mem_words_iff {word : String} : word ∈ words ↔ ∃ c : Connective, word = c.word := by
  constructor
  · intro h
    simp only [words, List.mem_cons, List.not_mem_nil, or_false] at h
    rcases h with rfl | rfl
    exacts [⟨.and, rfl⟩, ⟨.or, rfl⟩]
  · rintro ⟨c, rfl⟩
    cases c <;> decide

/-- The words of the list, and no others, name a connective. -/
theorem isSome_ofWord?_iff {word : String} : (ofWord? word).isSome ↔ word ∈ words := by
  rw [mem_words_iff, Option.isSome_iff_exists]
  exact exists_congr fun c => ofWord?_eq_some_iff

/-- A word outside the list names no connective. -/
theorem ofWord?_eq_none_iff {word : String} : ofWord? word = none ↔ word ∉ words := by
  rw [← isSome_ofWord?_iff, Option.not_isSome_iff_eq_none]

end Connective

namespace Condition

variable {allowed : AllowList} {n c : Condition} {e : Error}

/-! ## Bad conditions -/

/-- Whether a condition is bad by itself: a group whose connective is unknown, or a comparison whose field
is not allowed or whose operator is unknown. -/
def IsBad (allowed : AllowList) : Condition → Prop
  | .empty => False
  | .compare field word _ => allowed.column? field = none ∨ word ∉ Comparison.words
  | .group word _ => word ∉ Connective.words

/-- What a bad condition is reproached with.  A comparison with both faults is reproached with its
field. -/
inductive Offends (allowed : AllowList) : Condition → Error → Prop
  | connective {word : String} {children : List Condition} (hword : word ∉ Connective.words) :
      Offends allowed (.group word children) (.unknownOperator (.connective word))
  | field {field word : String} {v : Value} (hfield : allowed.column? field = none) :
      Offends allowed (.compare field word v) (.unknownField field)
  | comparison {field word : String} {v : Value} (hfield : allowed.column? field ≠ none)
      (hword : word ∉ Comparison.words) :
      Offends allowed (.compare field word v) (.unknownOperator (.comparison word))

/-- The bad conditions are those that offend with something. -/
theorem isBad_iff_exists_offends : n.IsBad allowed ↔ ∃ e, Offends allowed n e := by
  constructor
  · intro h
    cases n with
    | empty => exact h.elim
    | compare field word v =>
      by_cases hfield : allowed.column? field = none
      · exact ⟨_, .field hfield⟩
      · exact ⟨_, .comparison hfield (h.resolve_left hfield)⟩
    | group word children => exact ⟨_, .connective h⟩
  · rintro ⟨e, he⟩
    cases he with
    | connective hword => exact hword
    | field hfield => exact Or.inl hfield
    | comparison hfield hword => exact Or.inr hword

/-- What the compiler finds wrong with a condition is what it offends with. -/
theorem fault?_eq_some_iff : n.fault? allowed = some e ↔ Offends allowed n e := by
  constructor
  · intro h
    cases n with
    | empty => cases h
    | compare field word v =>
      rcases fault?_compare_eq_some_iff.1 h with ⟨hfield, rfl⟩ | ⟨hfield, hword, rfl⟩
      · exact .field hfield
      · exact .comparison hfield (Comparison.ofWord?_eq_none_iff.1 hword)
    | group word children =>
      obtain ⟨hword, rfl⟩ := fault?_group_eq_some_iff.1 h
      exact .connective (Connective.ofWord?_eq_none_iff.1 hword)
  · intro h
    cases h with
    | connective hword =>
      exact fault?_group_eq_some_iff.2 ⟨Connective.ofWord?_eq_none_iff.2 hword, rfl⟩
    | field hfield => exact fault?_compare_eq_some_iff.2 (Or.inl ⟨hfield, rfl⟩)
    | comparison hfield hword =>
      have hnone := Comparison.ofWord?_eq_none_iff.2 hword
      exact fault?_compare_eq_some_iff.2 (Or.inr ⟨hfield, hnone, rfl⟩)

/-- The compiler finds nothing wrong with the conditions that are not bad. -/
theorem fault?_eq_none_iff : n.fault? allowed = none ↔ ¬ n.IsBad allowed := by
  rw [isBad_iff_exists_offends, Option.eq_none_iff_forall_ne_some, not_exists]
  exact forall_congr' fun e => not_congr fault?_eq_some_iff

/-! ## The conditions of a tree -/

/-- A condition occurs in a tree if it is the tree or occurs in a child of it. -/
inductive Occurs (n : Condition) : Condition → Prop
  | self : Occurs n n
  | child {d : Condition} {word : String} {children : List Condition} (hd : d ∈ children)
      (h : Occurs n d) : Occurs n (.group word children)

/-- A property of all conditions follows from what it is for a group by its children. -/
theorem induction {motive : Condition → Prop} (empty : motive .empty)
    (compare : ∀ field word v, motive (.compare field word v))
    (group : ∀ word children, (∀ d ∈ children, motive d) → motive (.group word children)) :
    ∀ c, motive c
  | .empty => empty
  | .compare field word v => compare field word v
  | .group word children => group word children fun d _ => induction empty compare group d
termination_by c => sizeOf c
decreasing_by
  rename_i hd
  have hsize := List.sizeOf_lt_of_mem hd
  simp only [Condition.group.sizeOf_spec]
  omega

/-- The list of some trees is made of the lists of each. -/
theorem mem_preorderOfAll_iff {cs : List Condition} :
    n ∈ preorderOfAll cs ↔ ∃ d ∈ cs, n ∈ d.preorder := by
  induction cs with
  | nil => simp [preorderOfAll]
  | cons d cs ih => simp [preorderOfAll, ih]

/-- A tree is in its own list. -/
theorem mem_preorder_self (c : Condition) : c ∈ c.preorder := by
  cases c with
  | empty => exact List.mem_singleton_self _
  | compare field word v => exact List.mem_singleton_self _
  | group word children => exact List.mem_cons_self

/-- What is in the list of a tree occurs in the tree. -/
theorem occurs_of_mem_preorder (h : n ∈ c.preorder) : Occurs n c := by
  induction c using Condition.induction with
  | empty =>
    obtain rfl := List.mem_singleton.1 h
    exact .self
  | compare field word v =>
    obtain rfl := List.mem_singleton.1 h
    exact .self
  | group word children ih =>
    rcases List.mem_cons.1 h with rfl | hchildren
    · exact .self
    · obtain ⟨d, hd, hn⟩ := mem_preorderOfAll_iff.1 hchildren
      exact .child hd (ih d hd hn)

/-- The list of a tree holds what occurs in the tree and nothing else. -/
theorem mem_preorder_iff : n ∈ c.preorder ↔ Occurs n c := by
  constructor
  · exact occurs_of_mem_preorder
  · intro h
    induction h with
    | self => exact mem_preorder_self n
    | child hd h ih => exact List.mem_cons_of_mem _ (mem_preorderOfAll_iff.2 ⟨_, hd, ih⟩)

/-! ## The first offender -/

/-- A tree is compiled in vain for what the first bad condition of its list offends with. -/
theorem outcome_compile_eq_error_iff :
    (c.compile allowed).outcome = .error e ↔
      ∃ before n after, c.preorder = before ++ n :: after ∧ (∀ m ∈ before, ¬ m.IsBad allowed) ∧
        Offends allowed n e := by
  rw [outcome_compile, compiled_eq_rendered, ← Outcome.failure?_eq_some_iff, failure?_rendered,
    List.findSome?_eq_some_iff]
  simp only [fault?_eq_some_iff, fault?_eq_none_iff]
  constructor
  · rintro ⟨before, n, after, hlist, hn, hbefore⟩
    exact ⟨before, n, after, hlist, hbefore, hn⟩
  · rintro ⟨before, n, after, hlist, hbefore, hn⟩
    exact ⟨before, n, after, hlist, hn, hbefore⟩

/-- A tree compiles when nothing in its list is bad. -/
theorem exists_outcome_compile_iff :
    (∃ f, (c.compile allowed).outcome = .ok f) ↔ ∀ n ∈ c.preorder, ¬ n.IsBad allowed := by
  rw [outcome_compile, compiled_eq_rendered, ← Outcome.failure?_eq_none_iff, failure?_rendered,
    List.findSome?_eq_none_iff]
  exact forall₂_congr fun n _ => fault?_eq_none_iff

/-- A condition compiles when no condition that occurs in it is bad, and otherwise the error is what the
first bad one in preorder offends with.  The list in preorder leaves out nothing that occurs in the
tree. -/
theorem compile_reports_first_offender (c : Condition) (allowed : AllowList) :
    ((∃ f, (c.compile allowed).outcome = .ok f) ↔ ∀ n ∈ c.preorder, ¬ n.IsBad allowed) ∧
    (∀ e, (c.compile allowed).outcome = .error e ↔
      ∃ before n after, c.preorder = before ++ n :: after ∧ (∀ m ∈ before, ¬ m.IsBad allowed) ∧
        Offends allowed n e) ∧
    (∀ n, n.IsBad allowed ↔ ∃ e, Offends allowed n e) ∧
    ∀ n, n ∈ c.preorder ↔ Occurs n c := by
  refine ⟨exists_outcome_compile_iff, ?_, ?_, ?_⟩
  · intro e
    exact outcome_compile_eq_error_iff
  · intro n
    exact isBad_iff_exists_offends
  · intro n
    exact mem_preorder_iff

end Condition

end BoundSql
