import BoundSql.Condition.Compile

/-!
# Conditions rendered by recursion

`Condition.rendered` gives the fragment of a condition by recursion on the tree: a comparison by its
column and its operator, a group by its operator and then by its children from left to right.  The
machine that compiles conditions arrives at the same fragment or the same error
(`Condition.compiled_eq_rendered`), because it treats a pending condition as if its rendering were
already among the results (`Condition.Machine.run_visit`).
-/

namespace BoundSql

namespace Condition

mutual

/-- The fragment of a condition. -/
def rendered (allowed : AllowList) : Condition → Except Error Fragment
  | .empty => .ok .empty
  | .compare field word value => do
    let column ← allowed.columnOf field
    Fragment.comparison column word value
  | .group word children => do
    let c ← Connective.ofWord word
    let operands ← renderedAll allowed children
    return c.join operands

/-- The fragments of some conditions, up to the first that has none. -/
def renderedAll (allowed : AllowList) : List Condition → Except Error (List Fragment)
  | [] => .ok []
  | c :: cs => do
    let f ← c.rendered allowed
    let fs ← renderedAll allowed cs
    return f :: fs

end

namespace Entry

/-- The fragments of the innermost group are found again in their order. -/
theorem takeGroup_fragments (fs later : List Fragment) (below : List Entry) :
    takeGroup later (fs.map .fragment ++ .marker :: below) = some (fs.reverse ++ later, below) := by
  induction fs generalizing later with
  | nil => rfl
  | cons f fs ih => simp [takeGroup, ih]

end Entry

namespace Machine

variable {allowed : AllowList}

/-- A group is closed by joining its fragments, which lie above its marker in reverse. -/
theorem run_close (jobs : List Job) (c : Connective) (cs : List Connective) (fs : List Fragment)
    (below : List Entry) :
    run allowed ⟨.close :: jobs, c :: cs, fs.reverse.map .fragment ++ .marker :: below⟩ =
      run allowed ⟨jobs, cs, .fragment (c.join fs) :: below⟩ := by
  rw [run_of_jobs_ne_nil (by simp)]
  simp only [step, perform, close]
  rw [Entry.takeGroup_fragments]
  simp [Except.bind]

mutual

/-- A pending condition is as good as its rendering among the results. -/
theorem run_visit (c : Condition) (jobs : List Job) (cs : List Connective) (es : List Entry) :
    run allowed ⟨.visit c :: jobs, cs, es⟩ =
      (c.rendered allowed).bind fun f => run allowed ⟨jobs, cs, .fragment f :: es⟩ := by
  rw [run_of_jobs_ne_nil (by simp)]
  cases c with
  | empty => rfl
  | compare field word value =>
    simp only [step, perform, visit, rendered, bind]
    cases allowed.columnOf field with
    | error e => rfl
    | ok column =>
      simp only [Except.bind]
      cases Fragment.comparison column word value with
      | error e => rfl
      | ok f => rfl
  | group word children =>
    simp only [step, perform, visit, rendered, bind]
    cases Connective.ofWord word with
    | error e => rfl
    | ok c =>
      have h := run_visitAll children [] (.close :: jobs) (c :: cs) (.marker :: es)
      simp only [Except.bind, pure, Except.pure] at h ⊢
      simp only [List.reverse_nil, List.map_nil, List.nil_append] at h
      rw [h]
      cases renderedAll allowed children with
      | error e => rfl
      | ok fs => exact run_close jobs c cs fs es

/-- Pending conditions are as good as their renderings above those that are already there. -/
theorem run_visitAll (children : List Condition) (sofar : List Fragment) (jobs : List Job)
    (cs : List Connective) (es : List Entry) :
    run allowed ⟨children.map .visit ++ jobs, cs, sofar.reverse.map .fragment ++ es⟩ =
      (renderedAll allowed children).bind fun fs =>
        run allowed ⟨jobs, cs, (sofar ++ fs).reverse.map .fragment ++ es⟩ := by
  cases children with
  | nil => simp [renderedAll, Except.bind]
  | cons c rest =>
    have hc := run_visit c (rest.map .visit ++ jobs) cs (sofar.reverse.map .fragment ++ es)
    simp only [List.map_cons, List.cons_append, renderedAll, bind] at hc ⊢
    rw [hc]
    cases c.rendered allowed with
    | error e => rfl
    | ok f =>
      have hr := run_visitAll rest (sofar ++ [f]) jobs cs es
      simp only [List.reverse_append, List.reverse_singleton, List.cons_append, List.nil_append,
        List.map_cons] at hr
      simp only [Except.bind] at hr ⊢
      rw [hr]
      cases renderedAll allowed rest with
      | error e => rfl
      | ok fs => simp [pure, Except.pure]

end

end Machine

/-- The machine gives what recursion on the tree gives, the errors included. -/
theorem compiled_eq_rendered (c : Condition) (allowed : AllowList) :
    c.compiled allowed = c.rendered allowed := by
  simp only [compiled, Machine.start, Machine.run_visit, bind]
  cases c.rendered allowed with
  | error e => rfl
  | ok f => simp [Except.bind, Machine.run_of_jobs_eq_nil, Machine.result]

end Condition

end BoundSql
