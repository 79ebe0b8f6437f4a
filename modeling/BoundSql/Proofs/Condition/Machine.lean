import BoundSql.Condition.Rendering
import BoundSql.Proofs.Outcome

/-!
# The compiling machine and recursion on the tree

The machine that compiles conditions is a loop over three stacks.  `Machine.stepTimes` is that loop
cut off after a number of rounds, so it asks for no argument that the loop ends;
`Machine.run_eq_stepTimes` says that the rounds counted by `Machine.work` are enough for it.

What the machine arrives at is what recursion on the tree gives (`Condition.rendered`), and that
recursion fails only for a field or an operator that is unknown
(`Condition.namesUnknown_of_rendered`).  So none of the checks that the machine makes of its own
stacks ever fails.
-/

namespace BoundSql

namespace Condition

/-! ## The loop cut off after some rounds -/

namespace Job

/-- Every job takes at least one step. -/
theorem work_pos (j : Job) : 0 < j.work := by
  cases j with
  | close => exact Nat.one_pos
  | visit c =>
    have hnodes : 0 < c.nodes := by
      cases c with
      | empty => exact Nat.one_pos
      | compare field word value => exact Nat.one_pos
      | group word children =>
        rw [nodes]
        omega
    exact Nat.add_pos_left hnodes _

end Job

namespace Machine

variable {allowed : AllowList}

/-- The machine after `n` rounds of its loop; a round without pending jobs changes nothing. -/
def stepTimes (allowed : AllowList) : Nat → Machine → Except Error Machine
  | 0, m => .ok m
  | n + 1, m => (m.step allowed).bind (stepTimes allowed n)

/-- A machine without work has no pending jobs. -/
theorem jobs_eq_nil_of_work_eq_zero {m : Machine} (h : m.work = 0) : m.jobs = [] := by
  cases hj : m.jobs with
  | nil => rfl
  | cons j jobs =>
    have hpos := j.work_pos
    rw [work, hj, Job.workOfAll] at h
    omega

/-- Without pending jobs further rounds change nothing. -/
theorem stepTimes_of_jobs_eq_nil {m : Machine} (h : m.jobs = []) (n : Nat) :
    m.stepTimes allowed n = .ok m := by
  induction n with
  | zero => rfl
  | succ n ih =>
    have hstep : m.step allowed = .ok m := by
      unfold step
      rw [h]
    rw [stepTimes, hstep]
    exact ih

/-- The loop is over after as many rounds as there is work. -/
theorem run_eq_stepTimes {n : Nat} {m : Machine} (h : m.work ≤ n) :
    m.run allowed = m.stepTimes allowed n := by
  induction n generalizing m with
  | zero =>
    exact run_of_jobs_eq_nil (jobs_eq_nil_of_work_eq_zero (Nat.le_zero.1 h))
  | succ n ih =>
    by_cases hj : m.jobs = []
    · rw [run_of_jobs_eq_nil hj, stepTimes_of_jobs_eq_nil hj]
    · rw [run_of_jobs_ne_nil hj, stepTimes]
      cases hs : m.step allowed with
      | error e => rfl
      | ok m' =>
        -- A round that succeeds leaves one step less, so the rounds that remain are enough.
        have hwork := work_step hs hj
        exact ih (by omega)

/-- No job is pending when the loop is over. -/
theorem jobs_eq_nil_of_run_eq_ok {m m' : Machine} (h : m.run allowed = .ok m') : m'.jobs = [] := by
  fun_induction run allowed m with
  | case1 m hj =>
    obtain rfl := Except.ok.inj h
    exact hj
  | case2 m hj e hs => cases h
  | case3 m hj m'' hs ih => exact ih h

/-- The work of a machine that is about to compile a condition is the steps of that condition. -/
theorem work_start (c : Condition) : (start c).work = c.steps := by
  simp [start, work, Job.workOfAll, Job.work]

end Machine

end Condition

/-! ## What recursion on the tree can fail with -/

namespace AllowList

variable {l : AllowList} {field : String}

/-- A column is found for a field that is allowed. -/
theorem columnOf_eq_ok_iff {column : String} :
    l.columnOf field = .ok column ↔ l.column? field = some column := by
  unfold columnOf
  cases l.column? field <;> simp

/-- A column is missing only for the field that was asked for. -/
theorem columnOf_eq_error_iff {e : Error} :
    l.columnOf field = .error e ↔ l.column? field = none ∧ .unknownField field = e := by
  unfold columnOf
  cases l.column? field <;> simp

end AllowList

namespace Condition

/-- An error that names a field or an operator that is unknown. -/
def NamesUnknown (e : Error) : Prop :=
  (∃ field, e = .unknownField field) ∨ ∃ cause, e = .unknownOperator cause

/-- A field is looked up in vain only if it is unknown. -/
theorem namesUnknown_of_columnOf {allowed : AllowList} {field : String} {e : Error}
    (h : allowed.columnOf field = .error e) : NamesUnknown e :=
  Or.inl ⟨field, (AllowList.columnOf_eq_error_iff.1 h).2.symm⟩

/-- A word is read as a comparison in vain only if it is unknown. -/
theorem namesUnknown_of_comparison {word : String} {e : Error}
    (h : Comparison.ofWord word = .error e) : NamesUnknown e := by
  unfold Comparison.ofWord at h
  split at h
  · cases h
  · exact Or.inr ⟨_, (Except.error.inj h).symm⟩

/-- A word is read as a connective in vain only if it is unknown. -/
theorem namesUnknown_of_connective {word : String} {e : Error}
    (h : Connective.ofWord word = .error e) : NamesUnknown e := by
  unfold Connective.ofWord at h
  split at h
  · cases h
  · exact Or.inr ⟨_, (Except.error.inj h).symm⟩

mutual

/-- Recursion on the tree fails only for a field or an operator that is unknown. -/
theorem namesUnknown_of_rendered {allowed : AllowList} {c : Condition} {e : Error}
    (h : c.rendered allowed = .error e) : NamesUnknown e := by
  cases c with
  | empty => cases h
  | compare field word value =>
    rcases Outcome.bind_eq_error_iff.1 h with hcolumn | ⟨column, -, hrest⟩
    · exact namesUnknown_of_columnOf hcolumn
    · rcases Outcome.bind_eq_error_iff.1 hrest with hword | ⟨c, -, hc⟩
      · exact namesUnknown_of_comparison hword
      · cases hc
  | group word children =>
    rcases Outcome.bind_eq_error_iff.1 h with hword | ⟨c, -, hrest⟩
    · exact namesUnknown_of_connective hword
    · rcases Outcome.bind_eq_error_iff.1 hrest with hchildren | ⟨fs, -, hfs⟩
      · exact namesUnknown_of_renderedAll hchildren
      · cases hfs

/-- The same for a list of conditions, which fails with the error of one of them. -/
theorem namesUnknown_of_renderedAll {allowed : AllowList} {cs : List Condition} {e : Error}
    (h : renderedAll allowed cs = .error e) : NamesUnknown e := by
  cases cs with
  | nil => cases h
  | cons c cs =>
    rcases Outcome.bind_eq_error_iff.1 h with hc | ⟨f, -, hrest⟩
    · exact namesUnknown_of_rendered hc
    · rcases Outcome.bind_eq_error_iff.1 hrest with hcs | ⟨fs, -, hfs⟩
      · exact namesUnknown_of_renderedAll hcs
      · cases hfs

end

/-! ## The machine and the recursion agree -/

/-- Compiling reports, but its outcome is that of the machine. -/
theorem outcome_compile (c : Condition) (allowed : AllowList) :
    (c.compile allowed).outcome = c.compiled allowed := by
  unfold compile
  simp only [Traced.outcome_bind, Traced.outcome_pure,
    Traced.ofExcept, Traced.emit]
  cases c.compiled allowed <;> rfl

/-- The loop of the machine ends within as many rounds as the condition has steps, with no job left if
no round fails; compiling gives what recursion on the tree gives, the same fragment or the same error;
and no condition makes a check of the stacks fail. -/
theorem compile_agrees_with_recursion (c : Condition) (allowed : AllowList) :
    (∀ m, (Machine.start c).stepTimes allowed c.steps = .ok m → m.jobs = []) ∧
    (c.compile allowed).outcome =
      ((Machine.start c).stepTimes allowed c.steps).bind Machine.result ∧
    (c.compile allowed).outcome = c.rendered allowed ∧
    ∀ cause, (c.compile allowed).outcome ≠ .error (.badShape cause) := by
  have hrun : (Machine.start c).run allowed = (Machine.start c).stepTimes allowed c.steps :=
    Machine.run_eq_stepTimes (Nat.le_of_eq (Machine.work_start c))
  refine ⟨?_, ?_, ?_, ?_⟩
  · intro m hm
    exact Machine.jobs_eq_nil_of_run_eq_ok (hrun.trans hm)
  · rw [outcome_compile, compiled, hrun]
    rfl
  · rw [outcome_compile, compiled_eq_rendered]
  · intro cause h
    rw [outcome_compile, compiled_eq_rendered] at h
    rcases namesUnknown_of_rendered h with ⟨field, hf⟩ | ⟨cause', ho⟩
    · cases hf
    · cases ho

end Condition

end BoundSql
