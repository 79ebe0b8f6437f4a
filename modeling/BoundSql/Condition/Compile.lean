import BoundSql.AllowList
import BoundSql.Condition.Basic

/-!
# Compiling conditions

A condition is compiled to a fragment in which every operand of a group stands in parentheses, so no
precedence of SQL matters.  The tree is walked by a machine with three stacks and no recursion on the
tree: pending jobs, connectives of open groups, and results, where a marker separates the results of
an open group from those before it.

Each job takes one step (`Machine.step`), and the work that is left (`Machine.work`) goes down by one
in each step that succeeds, so the machine stops.
-/

namespace BoundSql

namespace Condition

/-- The number of steps that a condition takes: one for each of its nodes and one more for each group. -/
def steps (c : Condition) : Nat := c.nodes + c.groups

/-- A step that is still to be taken. -/
inductive Job
  | visit (c : Condition)
  /-- Close the innermost open group. -/
  | close

/-- An entry of the results. -/
inductive Entry
  | fragment (f : Fragment)
  /-- The results above it belong to one open group. -/
  | marker

/-- The state of a compilation; the top of each stack is the head of its list. -/
structure Machine where
  jobs : List Job
  connectives : List Connective
  results : List Entry

namespace Job

/-- The number of steps that a job takes, those of the jobs that it adds included. -/
def work : Job → Nat
  | .visit c => c.steps
  | .close => 1

/-- The number of steps that some jobs take. -/
def workOfAll : List Job → Nat
  | [] => 0
  | j :: js => j.work + workOfAll js

end Job

namespace Entry

/-- The fragments above the topmost marker, in the order in which they came, before `later`; and the
results below that marker. -/
def takeGroup (later : List Fragment) : List Entry → Option (List Fragment × List Entry)
  | [] => none
  | .marker :: below => some (later, below)
  | .fragment f :: below => takeGroup (f :: later) below

end Entry

namespace Machine

/-- The machine before its first step. -/
def start (c : Condition) : Machine := ⟨[.visit c], [], []⟩

/-- The number of steps that are left. -/
def work (m : Machine) : Nat := Job.workOfAll m.jobs

/-- Takes up a condition. -/
def visit (allowed : AllowList) (m : Machine) : Condition → Except Error Machine
  | .empty => .ok { m with results := .fragment .empty :: m.results }
  | .compare field word value => do
    let column ← allowed.columnOf field
    let f ← Fragment.comparison column word value
    return { m with results := .fragment f :: m.results }
  | .group word children => do
    let c ← Connective.ofWord word
    return ⟨children.map .visit ++ .close :: m.jobs, c :: m.connectives, .marker :: m.results⟩

/-- Closes the innermost group: its results become one. -/
def close (m : Machine) : Except Error Machine :=
  match m.connectives with
  | [] => .error (.badShape .foldWithoutGroup)
  | c :: connectives =>
    match Entry.takeGroup [] m.results with
    | none => .error (.badShape .groupWithoutMarker)
    | some (operands, below) => .ok ⟨m.jobs, connectives, .fragment (c.join operands) :: below⟩

/-- Does a job, which is no longer pending in `m`. -/
def perform (allowed : AllowList) (m : Machine) : Job → Except Error Machine
  | .visit c => m.visit allowed c
  | .close => m.close

/-- Does the topmost job; nothing happens without one. -/
def step (allowed : AllowList) (m : Machine) : Except Error Machine :=
  match m.jobs with
  | [] => .ok m
  | j :: jobs => perform allowed { m with jobs := jobs } j

/-- The result of a machine without pending jobs. -/
def result (m : Machine) : Except Error Fragment :=
  match m.connectives, m.results with
  | [], [.fragment f] => .ok f
  | [], [.marker] => .error (.badShape .markerAsResult)
  | _, results => .error (.badShape (.results results.length))

theorem work_visitAll (children : List Condition) (jobs : List Job) :
    Job.workOfAll (children.map Job.visit ++ jobs) =
      nodesOfAll children + groupsOfAll children + Job.workOfAll jobs := by
  induction children with
  | nil => simp [nodesOfAll, groupsOfAll]
  | cons c cs ih =>
    simp only [List.map_cons, List.cons_append, Job.workOfAll, nodesOfAll, groupsOfAll, Job.work,
      steps, ih]
    omega

theorem work_visit {allowed : AllowList} {m n : Machine} {c : Condition}
    (h : m.visit allowed c = .ok n) : n.work + 1 = m.work + c.steps := by
  cases c with
  | empty =>
    cases h
    simp [work, steps, nodes, groups]
  | compare field word value =>
    simp only [visit, bind, Except.bind] at h
    split at h
    · cases h
    · split at h
      · cases h
      · cases h
        simp [work, steps, nodes, groups]
  | group word children =>
    simp only [visit, bind, Except.bind] at h
    split at h
    · cases h
    · cases h
      simp only [work, work_visitAll, Job.workOfAll, Job.work, steps, nodes, groups]
      omega

theorem work_close {m n : Machine} (h : m.close = .ok n) : n.work = m.work := by
  unfold close at h
  split at h
  · cases h
  · split at h
    · cases h
    · cases h
      rfl

/-- A step that succeeds leaves one step less to do. -/
theorem work_step {allowed : AllowList} {m n : Machine} (h : m.step allowed = .ok n)
    (ht : m.jobs ≠ []) : n.work + 1 = m.work := by
  unfold step at h
  split at h
  · contradiction
  · rename_i j jobs hm
    cases j with
    | visit c =>
      have := work_visit h
      simp only [work, hm, Job.workOfAll, Job.work] at *
      omega
    | close =>
      have := work_close h
      simp only [work, hm, Job.workOfAll, Job.work] at *
      omega

/-- Takes steps until no job is pending. -/
def run (allowed : AllowList) (m : Machine) : Except Error Machine :=
  if _ht : m.jobs = [] then .ok m
  else
    match _h : m.step allowed with
    | .error e => .error e
    | .ok n => run allowed n
termination_by m.work
decreasing_by
  have := work_step _h _ht
  omega

theorem run_of_jobs_eq_nil {allowed : AllowList} {m : Machine} (h : m.jobs = []) :
    m.run allowed = .ok m := by
  rw [run]
  simp [h]

/-- A run takes the first step and goes on from there. -/
theorem run_of_jobs_ne_nil {allowed : AllowList} {m : Machine} (h : m.jobs ≠ []) :
    m.run allowed = (m.step allowed).bind (run allowed) := by
  rw [run]
  simp only [h, dite_false]
  split <;> rename_i hs <;> simp [hs, Except.bind]

end Machine

/-- The fragment that a condition compiles to, without reports. -/
def compiled (c : Condition) (allowed : AllowList) : Except Error Fragment := do
  let m ← (Machine.start c).run allowed
  m.result

/-- Compiles a condition; success is reported. -/
def compile (c : Condition) (allowed : AllowList) : Traced Fragment := do
  let f ← Traced.ofExcept (c.compiled allowed)
  Traced.emit (.compiled f.text f.args.length)
  return f

end Condition

end BoundSql
