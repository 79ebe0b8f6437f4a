import BoundSql.Proofs.Condition.Machine

/-!
# The layers of the stacks

While a condition is compiled, the groups that have been taken up and not yet closed are open, each a
child of the one around it.  Every open group has a layer of each stack to itself: its connective, the
results above its marker, and the jobs above its `close`.  Between them its children are accounted for:
the first of them are results, then comes the open group inside it, if there is one, and the others are
pending (`Machine.Layered`).

The layers are there at the head of the loop in every round (`Machine.Reached.layered`).  So a group that
is to be closed always finds its connective and its marker, and what is left at the end is a single
fragment.  A round takes one step of the work that the tree makes, which is why the rounds of a
compilation can be counted by its nodes and its groups (`Condition.compile_keeps_layers`).
-/

namespace BoundSql

namespace Condition

/-- A group, as it stands in a tree. -/
structure Group where
  word : String
  children : List Condition

/-- The condition that a group is. -/
def Group.condition (g : Group) : Condition := .group g.word g.children

namespace Entry

/-- Whether an entry of the results is a marker. -/
def isMarker : Entry → Bool
  | .fragment _ => false
  | .marker => true

/-- No fragment is a marker. -/
theorem isMarker_of_mem_fragments {fs : List Fragment} : ∀ e ∈ fs.map fragment, e.isMarker = false := by
  simp [isMarker]

end Entry

namespace Job

/-- Whether a job closes a group. -/
def isClose : Job → Bool
  | .visit _ => false
  | .close => true

/-- No pending condition closes a group. -/
theorem isClose_of_mem_visits {cs : List Condition} : ∀ j ∈ cs.map visit, j.isClose = false := by
  simp [isClose]

/-- The groups that are open after a job, given those that were open before it.  The innermost one comes
first. -/
def openAfter : Job → List Group → List Group
  | .visit (.group word children), gs => ⟨word, children⟩ :: gs
  | .visit _, gs => gs
  | .close, gs => gs.tail

/-- The groups that are open after some jobs, of which the last one done comes first. -/
def openGroups (past : List Job) : List Group := past.foldr openAfter []

end Job

/-- A separator below what holds none is one more. -/
theorem countP_append_separator {α : Type} {p : α → Bool} {above : List α} {x : α}
    (habove : ∀ y ∈ above, p y = false) (hx : p x = true) (below : List α) :
    (above ++ x :: below).countP p = below.countP p + 1 := by
  have hzero : above.countP p = 0 := List.countP_eq_zero.2 fun y hy => by simp [habove y hy]
  rw [List.countP_append, hzero, List.countP_cons_of_pos hx, Nat.zero_add]

namespace Machine

/-- The machine at the head of the loop, when `c` is compiled, after the rounds that did the jobs `past`.
The last of these comes first. -/
inductive Reached (allowed : AllowList) (c : Condition) : List Job → Machine → Prop
  | start : Reached allowed c [] (start c)
  | round {past jobs : List Job} {j : Job} {m n : Machine} (h : Reached allowed c past m)
      (hjobs : m.jobs = j :: jobs) (hstep : m.step allowed = .ok n) : Reached allowed c (j :: past) n

/-- The stacks lie in layers, one for each of the groups `gs`, the innermost first, upon the ground, whose
only child is the tree `c`.  Of the children of a layer the first are `done`, with a fragment for each of
them among its results, the one that is worked on in the layer above it comes next, and the others are
`pending`; `inner` is the child that is worked on above the topmost layer. -/
inductive Layered (c : Condition) : Option Condition → List Group → Machine → Prop
  | ground {inner : Option Condition} (done pending : List Condition) (fs : List Fragment)
      (hchildren : [c] = done ++ (inner.toList ++ pending)) (hfs : fs.length = done.length) :
      Layered c inner [] ⟨pending.map .visit, [], fs.map .fragment⟩
  | group {inner : Option Condition} {g : Group} {gs : List Group} {m : Machine} {op : Connective}
      (done pending : List Condition) (fs : List Fragment) (hword : Connective.ofWord g.word = .ok op)
      (hchildren : g.children = done ++ (inner.toList ++ pending)) (hfs : fs.length = done.length)
      (below : Layered c (some g.condition) gs m) :
      Layered c inner (g :: gs) ⟨pending.map .visit ++ .close :: m.jobs, op :: m.connectives,
        fs.map .fragment ++ .marker :: m.results⟩

/-- The stacks account for the children of the open groups `gs`, of which the innermost comes first and each
is a child of the next.  The results are cut at the markers and the jobs at those that close a group, so
place `i` of either cut belongs to the group at place `i`.  Its children are as many as the fragments and
the pending conditions there and, unless it is the innermost, the open one. -/
structure Accounted (gs : List Group) (m : Machine) : Prop where
  words : gs.map (fun g => Connective.ofWord g.word) = m.connectives.map .ok
  connectives : m.connectives.length = gs.length
  markers : m.results.countP Entry.isMarker = gs.length
  closes : m.jobs.countP Job.isClose = gs.length
  nested : gs.IsChain fun inner outer => inner.condition ∈ outer.children
  children : ∀ (i : Nat) (g : Group), gs[i]? = some g →
    ∃ (filled : List Fragment) (pending : List Condition),
      (m.results.splitOnP Entry.isMarker)[i]? = some (filled.map .fragment) ∧
      (m.jobs.splitOnP Job.isClose)[i]? = some (pending.map .visit) ∧
      pending <:+ g.children ∧
      filled.length + pending.length + (if i = 0 then 0 else 1) = g.children.length

variable {allowed : AllowList} {c d : Condition} {inner : Option Condition} {gs : List Group}
  {m n : Machine} {jobs past : List Job}

/-- A round does the topmost job. -/
theorem step_of_jobs_eq_cons {j : Job} (hjobs : m.jobs = j :: jobs) :
    m.step allowed = perform allowed { m with jobs := jobs } j := by
  unfold step
  rw [hjobs]

/-! ## What keeps the layers -/

namespace Layered

/-- The topmost pending condition is the next child of the topmost layer. -/
theorem take (h : Layered c none gs m) (hjobs : m.jobs = .visit d :: jobs) :
    Layered c (some d) gs { m with jobs := jobs } := by
  cases h with
  | ground done pending fs hchildren hfs =>
    obtain ⟨d', rest, rfl, hd, rfl⟩ := List.map_eq_cons_iff.1 hjobs
    obtain rfl := Job.visit.inj hd
    exact .ground done rest fs hchildren hfs
  | group done pending fs hword hchildren hfs below =>
    cases pending with
    | nil => cases hjobs
    | cons d' rest =>
      obtain ⟨hd, rfl⟩ := List.cons.inj hjobs
      obtain rfl := Job.visit.inj hd
      exact .group done rest fs hword hchildren hfs below

/-- The child that is worked on above the topmost layer is done when there is a fragment for it. -/
theorem fill (h : Layered c (some d) gs m) (f : Fragment) :
    Layered c none gs { m with results := .fragment f :: m.results } := by
  cases h with
  | ground done pending fs hchildren hfs =>
    exact .ground (done ++ [d]) pending (f :: fs) (by simpa using hchildren) (by simpa using hfs)
  | group done pending fs hword hchildren hfs below =>
    exact .group (done ++ [d]) pending (f :: fs) hword (by simpa using hchildren) (by simpa using hfs)
      below

/-- A group that is taken up gets a layer of its own, with all of its children pending. -/
theorem enter {g : Group} {op : Connective} (h : Layered c (some g.condition) gs m)
    (hword : Connective.ofWord g.word = .ok op) :
    Layered c none (g :: gs) ⟨g.children.map .visit ++ .close :: m.jobs, op :: m.connectives,
      .marker :: m.results⟩ :=
  .group [] g.children [] hword rfl rfl h

/-- A group that is to be closed is closed, and its layer makes way for a fragment. -/
theorem leave (h : Layered c none gs m) (hjobs : m.jobs = .close :: jobs) :
    ∃ n, { m with jobs := jobs }.close = .ok n ∧ Layered c none gs.tail n := by
  cases h with
  | ground done pending fs hchildren hfs =>
    obtain ⟨d, rest, -, hd, -⟩ := List.map_eq_cons_iff.1 hjobs
    cases hd
  | @group _ g gs below op done pending fs hword hchildren hfs hbelow =>
    cases pending with
    | cons d rest => cases hjobs
    | nil =>
      obtain rfl := (List.cons.inj hjobs).2
      refine ⟨_, ?_, hbelow.fill (op.join fs.reverse)⟩
      simp only [close, Entry.takeGroup_fragments, List.append_nil]

/-- Doing a job keeps the layers, those of the groups that are open then. -/
theorem step {j : Job} (h : Layered c none gs m) (hjobs : m.jobs = j :: jobs)
    (hstep : m.step allowed = .ok n) : Layered c none (j.openAfter gs) n := by
  rw [step_of_jobs_eq_cons hjobs] at hstep
  cases j with
  | close =>
    obtain ⟨n', hn, hlayers⟩ := h.leave hjobs
    obtain rfl := Except.ok.inj (hn.symm.trans hstep)
    exact hlayers
  | visit d =>
    have hinner := h.take hjobs
    cases d with
    | empty =>
      obtain rfl := Except.ok.inj hstep
      exact hinner.fill .empty
    | compare field word value =>
      obtain ⟨column, -, hrest⟩ := Outcome.bind_eq_ok_iff.1 hstep
      obtain ⟨f, -, hn⟩ := Outcome.bind_eq_ok_iff.1 hrest
      obtain rfl := Except.ok.inj hn
      exact hinner.fill f
    | group word children =>
      obtain ⟨op, hword, hn⟩ := Outcome.bind_eq_ok_iff.1 hstep
      obtain rfl := Except.ok.inj hn
      exact hinner.enter (g := ⟨word, children⟩) hword

/-! ## What layers say of the stacks -/

/-- The connectives are those that the groups are named by. -/
theorem map_ofWord (h : Layered c inner gs m) :
    gs.map (fun g => Connective.ofWord g.word) = m.connectives.map .ok := by
  induction h with
  | ground => rfl
  | group _ _ _ hword _ _ _ ih => rw [List.map_cons, List.map_cons, hword, ih]

/-- There is a connective for each layer. -/
theorem length_connectives (h : Layered c inner gs m) : m.connectives.length = gs.length := by
  simpa using (congrArg List.length h.map_ofWord).symm

/-- There is a marker for each layer. -/
theorem countP_isMarker (h : Layered c inner gs m) : m.results.countP Entry.isMarker = gs.length := by
  induction h with
  | ground => exact List.countP_eq_zero.2 (by simp [Entry.isMarker])
  | group _ _ _ _ _ _ _ ih =>
    rw [countP_append_separator Entry.isMarker_of_mem_fragments rfl, ih, List.length_cons]

/-- There is a job that closes a group for each layer. -/
theorem countP_isClose (h : Layered c inner gs m) : m.jobs.countP Job.isClose = gs.length := by
  induction h with
  | ground => exact List.countP_eq_zero.2 (by simp [Job.isClose])
  | group _ _ _ _ _ _ _ ih =>
    rw [countP_append_separator Job.isClose_of_mem_visits rfl, ih, List.length_cons]

/-- What is worked on above a layer is a child of its group. -/
theorem mem_children {g : Group} (h : Layered c (some d) (g :: gs) m) : d ∈ g.children := by
  cases h with
  | group done pending fs hword hchildren hfs below =>
    rw [hchildren]
    simp

/-- Each of the groups but the outermost is a child of the next. -/
theorem isChain (h : Layered c inner gs m) :
    gs.IsChain fun inner outer => inner.condition ∈ outer.children := by
  induction h with
  | ground => exact .nil
  | @group _ g gs below op _ _ _ _ _ _ hbelow ih =>
    cases gs with
    | nil => exact .singleton g
    | cons g' gs => exact .cons_cons hbelow.mem_children ih

/-- The layer of a group holds the fragments of its first children and, but for the one that is worked on
above the layer, its other children. -/
theorem exists_layer (h : Layered c inner gs m) {i : Nat} {g : Group} (hg : gs[i]? = some g) :
    ∃ (filled : List Fragment) (pending : List Condition),
      (m.results.splitOnP Entry.isMarker)[i]? = some (filled.map .fragment) ∧
      (m.jobs.splitOnP Job.isClose)[i]? = some (pending.map .visit) ∧
      pending <:+ g.children ∧
      filled.length + pending.length + (if i = 0 then inner.toList.length else 1) =
        g.children.length := by
  induction h generalizing i with
  | ground => cases hg
  | @group inner g' gs below op done pending fs hword hchildren hfs hbelow ih =>
    rw [List.splitOnP_append_cons_of_forall_mem Entry.isMarker_of_mem_fragments .marker rfl,
      List.splitOnP_append_cons_of_forall_mem Job.isClose_of_mem_visits .close rfl]
    cases i with
    | zero =>
      obtain rfl := Option.some.inj hg
      refine ⟨fs, pending, rfl, rfl, ?_, ?_⟩
      · rw [hchildren, ← List.append_assoc]
        exact List.suffix_append _ _
      · rw [hchildren, hfs]
        simp only [List.length_append, if_pos]
        omega
    | succ i =>
      -- Above a layer that is not the topmost one of its children is always worked on: the next group.
      obtain ⟨filled, rest, hfilled, hrest, hsuffix, hlength⟩ := ih hg
      refine ⟨filled, rest, hfilled, hrest, hsuffix, ?_⟩
      rw [← hlength]
      simp

/-- In layers with nothing worked on above them the children of the open groups are accounted for. -/
theorem accounted (h : Layered c none gs m) : Accounted gs m where
  words := h.map_ofWord
  connectives := h.length_connectives
  markers := h.countP_isMarker
  closes := h.countP_isClose
  nested := h.isChain
  children _ _ hg := h.exists_layer hg

/-- Without pending jobs only the ground is left, with one fragment on it. -/
theorem exists_result (h : Layered c none gs m) (hjobs : m.jobs = []) : ∃ f, m.result = .ok f := by
  cases h with
  | ground done pending fs hchildren hfs =>
    obtain rfl := List.map_eq_nil_iff.1 hjobs
    have hlength : fs.length = 1 := by
      rw [hfs]
      simpa using (congrArg List.length hchildren).symm
    obtain ⟨f, rfl⟩ := List.length_eq_one_iff.1 hlength
    exact ⟨f, rfl⟩
  | group done pending => simp at hjobs

end Layered

/-! ## The rounds of a compilation -/

/-- A round that fails does a job. -/
theorem jobs_ne_nil_of_step_eq_error {e : Error} (h : m.step allowed = .error e) : m.jobs ≠ [] := by
  intro hjobs
  unfold step at h
  rw [hjobs] at h
  cases h

namespace Reached

/-- The stacks lie in layers at the head of the loop in every round. -/
theorem layered (h : Reached allowed c past m) : Layered c none (Job.openGroups past) m := by
  induction h with
  | start => exact .ground [] [c] [] rfl rfl
  | round _ hjobs hstep ih => exact ih.step hjobs hstep

/-- Every round takes one step of the work that there is to begin with. -/
theorem length_add_work (h : Reached allowed c past m) : past.length + m.work = c.steps := by
  induction h with
  | start => rw [work_start, List.length_nil, Nat.zero_add]
  | @round past jobs j m n _ hjobs hstep ih =>
    have hwork := work_step hstep (hjobs ▸ List.cons_ne_nil j jobs)
    rw [List.length_cons]
    omega

/-- There are no more rounds than nodes and groups. -/
theorem length_le (h : Reached allowed c past m) : past.length ≤ c.nodes + c.groups := by
  have hwork := h.length_add_work
  rw [steps] at hwork
  omega

/-- At the end there have been as many rounds as there are nodes and groups. -/
theorem length_eq (h : Reached allowed c past m) (hjobs : m.jobs = []) :
    past.length = c.nodes + c.groups := by
  have hwork := h.length_add_work
  rwa [work, hjobs, Job.workOfAll, Nat.add_zero] at hwork

/-- With the round that fails there are still no more rounds than nodes and groups. -/
theorem length_lt {e : Error} (h : Reached allowed c past m) (hstep : m.step allowed = .error e) :
    past.length + 1 ≤ c.nodes + c.groups := by
  have hwork := h.length_add_work
  have hleft : 0 < m.work := by
    rw [Nat.pos_iff_ne_zero]
    exact fun h0 => jobs_ne_nil_of_step_eq_error hstep (jobs_eq_nil_of_work_eq_zero h0)
  rw [steps] at hwork
  omega

/-- The loop goes on from every machine that it reaches. -/
theorem run_start (h : Reached allowed c past m) : (Machine.start c).run allowed = m.run allowed := by
  induction h with
  | start => rfl
  | @round past jobs j m n _ hjobs hstep ih =>
    rw [ih, run_of_jobs_ne_nil (hjobs ▸ List.cons_ne_nil j jobs), hstep]
    rfl

/-- The loop comes to its end or to a round that fails. -/
theorem exists_last (h : Reached allowed c past m) :
    ∃ past' n, Reached allowed c past' n ∧ (n.jobs = [] ∨ ∃ e, n.step allowed = .error e) := by
  fun_induction run allowed m generalizing past with
  | case1 m hjobs => exact ⟨past, m, h, Or.inl hjobs⟩
  | case2 m hjobs e hstep => exact ⟨past, m, h, Or.inr ⟨e, hstep⟩⟩
  | case3 m hjobs n hstep ih =>
    obtain ⟨j, jobs, hj⟩ := List.exists_cons_of_ne_nil hjobs
    exact ih (h.round hj hstep)

/-- At the end of the loop the outcome is the result of the machine. -/
theorem outcome_eq_result (h : Reached allowed c past m) (hjobs : m.jobs = []) :
    (c.compile allowed).outcome = m.result := by
  rw [outcome_compile, compiled, h.run_start, run_of_jobs_eq_nil hjobs]
  rfl

/-- The error of a round that fails is the outcome. -/
theorem outcome_eq_error {e : Error} (h : Reached allowed c past m)
    (hstep : m.step allowed = .error e) : (c.compile allowed).outcome = .error e := by
  rw [outcome_compile, compiled, h.run_start,
    run_of_jobs_ne_nil (jobs_ne_nil_of_step_eq_error hstep), hstep]
  rfl

end Reached

end Machine

/-- A condition compiles to what the machine at the end of the loop has as its result. -/
theorem outcome_compile_eq_ok_iff_reached {c : Condition} {allowed : AllowList} {f : Fragment} :
    (c.compile allowed).outcome = .ok f ↔
      ∃ past m, Machine.Reached allowed c past m ∧ m.jobs = [] ∧ m.result = .ok f := by
  constructor
  · intro hf
    obtain ⟨past, m, h, hjobs | ⟨e, hstep⟩⟩ := Machine.Reached.start.exists_last
    · exact ⟨past, m, h, hjobs, (h.outcome_eq_result hjobs).symm.trans hf⟩
    · cases (h.outcome_eq_error hstep).symm.trans hf
  · rintro ⟨past, m, h, hjobs, hf⟩
    rw [h.outcome_eq_result hjobs, hf]

/-- A condition fails to compile with the error of the round of the loop that fails. -/
theorem outcome_compile_eq_error_iff_reached {c : Condition} {allowed : AllowList} {e : Error} :
    (c.compile allowed).outcome = .error e ↔
      ∃ past m, Machine.Reached allowed c past m ∧ m.step allowed = .error e := by
  constructor
  · intro he
    obtain ⟨past, m, h, hjobs | ⟨e', hstep⟩⟩ := Machine.Reached.start.exists_last
    · obtain ⟨f, hf⟩ := h.layered.exists_result hjobs
      cases hf.symm.trans ((h.outcome_eq_result hjobs).symm.trans he)
    · obtain rfl := Except.error.inj ((h.outcome_eq_error hstep).symm.trans he)
      exact ⟨past, m, h, hstep⟩
  · rintro ⟨past, m, h, hstep⟩
    exact h.outcome_eq_error hstep

/-- At the head of the loop, in every round of a compilation, the stacks account for the children of all
open groups.  A group that is to be closed is closed, at the end there is a fragment, and a round fails
only for a field or an operator that is unknown.  There are as many rounds as the condition has nodes and
groups if it compiles, and at most so many if it does not, the failing one included; whether it compiles,
and to what, is read off the last of these rounds. -/
theorem compile_keeps_layers (c : Condition) (allowed : AllowList) :
    (∀ past m, Machine.Reached allowed c past m →
      Machine.Accounted (Job.openGroups past) m ∧
      past.length ≤ c.nodes + c.groups ∧
      (∀ jobs, m.jobs = .close :: jobs → ∃ n, m.step allowed = .ok n) ∧
      (m.jobs = [] → (∃ f, m.result = .ok f) ∧ past.length = c.nodes + c.groups) ∧
      ∀ e, m.step allowed = .error e → NamesUnknown e ∧ past.length + 1 ≤ c.nodes + c.groups) ∧
    (∀ f, (c.compile allowed).outcome = .ok f ↔
      ∃ past m, Machine.Reached allowed c past m ∧ m.jobs = [] ∧ m.result = .ok f) ∧
    ∀ e, (c.compile allowed).outcome = .error e ↔
      ∃ past m, Machine.Reached allowed c past m ∧ m.step allowed = .error e := by
  refine ⟨?_, fun f => outcome_compile_eq_ok_iff_reached, fun e => outcome_compile_eq_error_iff_reached⟩
  intro past m h
  refine ⟨h.layered.accounted, h.length_le, ?_, ?_, ?_⟩
  · intro jobs hjobs
    obtain ⟨n, hn, -⟩ := h.layered.leave hjobs
    exact ⟨n, (Machine.step_of_jobs_eq_cons hjobs).trans hn⟩
  · intro hjobs
    exact ⟨h.layered.exists_result hjobs, h.length_eq hjobs⟩
  · intro e hstep
    have he := h.outcome_eq_error hstep
    rw [outcome_compile, compiled_eq_rendered] at he
    exact ⟨namesUnknown_of_rendered he, h.length_lt hstep⟩

/-- A group in a group, with both of them open and a child of the inner one done; the same tree compiled
as a whole, and without any field that is allowed. -/
theorem compile_keeps_layers_of_nested :
    let a : Condition := .compare "a" "=" (.int 1)
    let b : Condition := .compare "b" "<" (.int 2)
    let c := all [a, any [b, .empty], .empty]
    let allowed := (AllowList.empty.allow "a" "t.a").allow "b" "t.b"
    let past : List Job := [.visit b, .visit (any [b, .empty]), .visit a, .visit c]
    let m : Machine := ⟨[.visit .empty, .close, .visit .empty, .close], [.or, .and],
      [.fragment ⟨"(t.b) < ?", [.value (.int 2)]⟩, .marker,
        .fragment ⟨"(t.a) = ?", [.value (.int 1)]⟩, .marker]⟩
    let f : Fragment := ⟨"((t.a) = ?) and (((t.b) < ?))", [.value (.int 1), .value (.int 2)]⟩
    Machine.Reached allowed c past m ∧
      Job.openGroups past = [⟨"or", [b, .empty]⟩, ⟨"and", [a, any [b, .empty], .empty]⟩] ∧
      Machine.Accounted (Job.openGroups past) m ∧
      (c.compile allowed).outcome = .ok f ∧
      (∃ past m, Machine.Reached allowed c past m ∧ m.jobs = [] ∧ m.result = .ok f ∧ past.length = 8) ∧
      ∃ past m, Machine.Reached .empty c past m ∧ m.step .empty = .error (.unknownField "a") ∧
        past.length + 1 ≤ 8 := by
  intro a b c allowed past m f
  have h : Machine.Reached allowed c past m :=
    (((Machine.Reached.start.round rfl rfl).round rfl rfl).round rfl rfl).round rfl rfl
  have hf : (c.compile allowed).outcome = .ok f := by
    rw [outcome_compile, compiled_eq_rendered]
    rfl
  have he : (c.compile .empty).outcome = .error (.unknownField "a") := by
    rw [outcome_compile, compiled_eq_rendered]
    rfl
  obtain ⟨hreached, hok, -⟩ := compile_keeps_layers c allowed
  obtain ⟨hreached', -, herror⟩ := compile_keeps_layers c .empty
  obtain ⟨past', m', h', hjobs, hresult⟩ := (hok f).1 hf
  obtain ⟨past'', m'', h'', hstep⟩ := (herror _).1 he
  refine ⟨h, rfl, (hreached past m h).1, hf, ⟨past', m', h', hjobs, hresult, ?_⟩,
    past'', m'', h'', hstep, ?_⟩
  · exact ((hreached past' m' h').2.2.2.1 hjobs).2
  · exact ((hreached' past'' m'' h'').2.2.2.2 _ hstep).2

end Condition

end BoundSql
