import BoundSql.Proofs.Fragment.Join
import BoundSql.Proofs.Outcome
import BoundSql.Template.Basic

/-!
# The phases of a generation in closed form

`Template.statementOf` says what the statement of some segments is, given what is found under the keys
of blocks and of values.  It looks for the first block that nothing stands for, then for the first
value that nothing stands for among the arguments of all parts, and only then at the number of marks;
where a placeholder stands in the text plays no role across these phases.

Generation comes to that statement (`Template.outcome_generate`), where a key is looked up in the
bindings of the call first and in the overrides of the template next.
-/

namespace BoundSql

namespace Placeholder

variable {α : Type}

/-- What stands for a placeholder: what is found under its key, else its own default. -/
def filled? (lookup : Key → Option α) (p : Placeholder α) : Option α := (lookup p.key).or p.default?

/-- The key of a placeholder that nothing stands for. -/
def openKey? (lookup : Key → Option α) (p : Placeholder α) : Option Key :=
  if (p.filled? lookup).isNone then some p.key else none

/-- A placeholder has an open key when nothing stands for it. -/
theorem openKey?_eq_some_iff {lookup : Key → Option α} {p : Placeholder α} {key : Key} :
    p.openKey? lookup = some key ↔ p.filled? lookup = none ∧ key = p.key := by
  unfold openKey?
  cases p.filled? lookup <;> simp [eq_comm]

/-- A placeholder without an open key is filled. -/
theorem openKey?_eq_none_iff {lookup : Key → Option α} {p : Placeholder α} :
    p.openKey? lookup = none ↔ ∃ a, p.filled? lookup = some a := by
  unfold openKey?
  cases p.filled? lookup <;> simp

/-- Filling a placeholder gives what stands for it; otherwise its key is missing. -/
theorem outcome_fill (level : Level) (lookup : Key → Option α) (p : Placeholder α) :
    (p.fill level (lookup p.key)).outcome =
      match p.filled? lookup with
      | some a => .ok a
      | none => .error (.missing level p.key) := by
  unfold fill
  rw [Traced.outcome_bind, get?_supply]
  change (match (lookup p.key).or p.default? with
    | some a => (pure a : Traced α)
    | none => Traced.ofExcept (.error (.missing level p.key))).outcome = _
  unfold filled?
  cases (lookup p.key).or p.default? <;> rfl

/-- Filling a placeholder reports one look-up, on its own level. -/
theorem eq_resolving_of_mem_log_fill {level : Level} {p : Placeholder α} {binding : Option α}
    {d : Diagnostic} (h : d ∈ (p.fill level binding).log) :
    d = .resolving level p.key binding.isSome := by
  unfold fill at h
  rcases Outcome.mem_log_bind h with hd | ⟨u, -, hd⟩
  · rw [isGiven_supply] at hd
    exact List.mem_singleton.1 hd
  · rw [get?_supply] at hd
    cases hb : binding.or p.default? with
    | none =>
      rw [hb] at hd
      cases hd
    | some a =>
      rw [hb] at hd
      cases hd

end Placeholder

/-! ## The parts of a statement -/

namespace Segment

/-- The fragment that a segment brings, given what is found under the keys of blocks. -/
def part? (blocks : Key → Option Fragment) : Segment → Option Fragment
  | .text sql => some (.raw sql)
  | .fragment f => some f
  | .block p => p.filled? blocks

/-- The key of a segment whose block nothing stands for. -/
def openKey? (blocks : Key → Option Fragment) : Segment → Option Key
  | .block p => p.openKey? blocks
  | _ => none

/-- A segment with an open key makes generation fail on the level of blocks. -/
theorem outcome_expand_of_openKey? {blocks : Key → Option Fragment} {s : Segment} {key : Key}
    (h : s.openKey? blocks = some key) :
    (s.expand blocks).outcome = .error (.missing .block key) := by
  cases s with
  | text sql => cases h
  | fragment f => cases h
  | block p =>
    obtain ⟨hp, rfl⟩ := Placeholder.openKey?_eq_some_iff.1 h
    rw [expand, Placeholder.outcome_fill, hp]

/-- A segment without an open key brings its part. -/
theorem outcome_expand_of_openKey?_eq_none {blocks : Key → Option Fragment} {s : Segment}
    (h : s.openKey? blocks = none) :
    ∃ f, s.part? blocks = some f ∧ (s.expand blocks).outcome = .ok f := by
  cases s with
  | text sql => exact ⟨.raw sql, rfl, rfl⟩
  | fragment f => exact ⟨f, rfl, rfl⟩
  | block p =>
    obtain ⟨f, hf⟩ := Placeholder.openKey?_eq_none_iff.1 h
    refine ⟨f, hf, ?_⟩
    rw [expand, Placeholder.outcome_fill, hf]

end Segment

namespace Argument

/-- The value of an argument, given what is found under the keys of values. -/
def filled? (values : Key → Option Value) : Argument → Option Value
  | .value v => some v
  | .placeholder p => p.filled? values

/-- The key of an argument that nothing stands for. -/
def openKey? (values : Key → Option Value) : Argument → Option Key
  | .value _ => none
  | .placeholder p => p.openKey? values

/-- An argument with an open key makes generation fail on the level of values. -/
theorem outcome_fill_of_openKey? {values : Key → Option Value} {a : Argument} {key : Key}
    (h : a.openKey? values = some key) : (a.fill values).outcome = .error (.missing .value key) := by
  cases a with
  | value v => cases h
  | placeholder p =>
    obtain ⟨hp, rfl⟩ := Placeholder.openKey?_eq_some_iff.1 h
    rw [fill, Placeholder.outcome_fill, hp]

/-- An argument without an open key has a value. -/
theorem outcome_fill_of_openKey?_eq_none {values : Key → Option Value} {a : Argument}
    (h : a.openKey? values = none) :
    ∃ v, a.filled? values = some v ∧ (a.fill values).outcome = .ok v := by
  cases a with
  | value v => exact ⟨v, rfl, rfl⟩
  | placeholder p =>
    obtain ⟨v, hv⟩ := Placeholder.openKey?_eq_none_iff.1 h
    refine ⟨v, hv, ?_⟩
    rw [fill, Placeholder.outcome_fill, hv]

end Argument

namespace Template

/-- The fragments that some segments bring, in order. -/
def partsOf (blocks : Key → Option Fragment) (segments : List Segment) : List Fragment :=
  segments.filterMap (Segment.part? blocks)

/-- The parts of a template are its plain texts, its fragments, and for its blocks what is bound, what is
stored, or their defaults.  What holds of all of these holds of every part. -/
theorem forall_mem_partsOf {t : Template} {b : Bindings} {P : Fragment → Prop}
    (htext : ∀ sql, .text sql ∈ t.segments → P (.raw sql))
    (hfragment : ∀ f, .fragment f ∈ t.segments → P f)
    (hbound : ∀ key f, b.block? key = some f → P f)
    (hstored : ∀ key f, t.storedBlock? key = some f → P f)
    (hdefault : ∀ (p : Placeholder Fragment) (f : Fragment),
      .block p ∈ t.segments → p.default? = some f → P f) :
    ∀ f ∈ partsOf (t.block? b) t.segments, P f := by
  intro f hf
  obtain ⟨s, hs, hpart⟩ := List.mem_filterMap.1 hf
  cases s with
  | text sql =>
    obtain rfl := Option.some.inj hpart
    exact htext sql hs
  | fragment g =>
    obtain rfl := Option.some.inj hpart
    exact hfragment g hs
  | block p =>
    simp only [Segment.part?, Placeholder.filled?, block?, Option.or_eq_some_iff] at hpart
    rcases hpart with (h | ⟨-, h⟩) | ⟨-, h⟩
    · exact hbound p.key f h
    · exact hstored p.key f h
    · exact hdefault p f hs h

/-- The texts of the parts one after the other. -/
def textOf (blocks : Key → Option Fragment) (segments : List Segment) : String :=
  String.join ((partsOf blocks segments).map Fragment.text)

/-- The arguments of the parts one after the other. -/
def argsOf (blocks : Key → Option Fragment) (segments : List Segment) : List Argument :=
  (partsOf blocks segments).flatMap Fragment.args

/-- The marks of the text are those of all parts. -/
theorem markCount_textOf (blocks : Key → Option Fragment) (segments : List Segment) :
    markCount (textOf blocks segments) =
      ((partsOf blocks segments).map fun f => markCount f.text).sum := by
  rw [textOf, ← Fragment.joinTexts_empty, ← Fragment.text_join, Fragment.markCount_join_empty]

/-- The arguments are those of all parts. -/
theorem length_argsOf (blocks : Key → Option Fragment) (segments : List Segment) :
    (argsOf blocks segments).length = ((partsOf blocks segments).map fun f => f.args.length).sum :=
  Fragment.length_args_join "" _

/-- The key of the first block that nothing stands for. -/
def openBlock? (blocks : Key → Option Fragment) (segments : List Segment) : Option Key :=
  segments.findSome? (Segment.openKey? blocks)

/-- The key of the first argument that nothing stands for. -/
def openValue? (values : Key → Option Value) (args : List Argument) : Option Key :=
  args.findSome? (Argument.openKey? values)

/-- The values of the arguments that something stands for. -/
def valuesOf (values : Key → Option Value) (args : List Argument) : List Value :=
  args.filterMap (Argument.filled? values)

/-- The statement of some segments, given what is found under the keys of blocks and of values. -/
def statementOf (blocks : Key → Option Fragment) (values : Key → Option Value)
    (segments : List Segment) : Except Error Statement :=
  match openBlock? blocks segments, openValue? values (argsOf blocks segments) with
  | some key, _ => .error (.missing .block key)
  | none, some key => .error (.missing .value key)
  | none, none =>
    let sql := textOf blocks segments
    let vs := valuesOf values (argsOf blocks segments)
    if markCount sql = vs.length then .ok ⟨sql, vs⟩ else .error (.countMismatch (markCount sql) vs.length)

/-! ## The phases -/

/-- The phase of blocks: the first block that nothing stands for, else the parts of all segments. -/
theorem outcome_mapM_expand (blocks : Key → Option Fragment) (segments : List Segment) :
    (segments.mapM (Segment.expand blocks)).outcome =
      match openBlock? blocks segments with
      | some key => .error (.missing .block key)
      | none => .ok (partsOf blocks segments) := by
  have hfault : ∀ s key, Segment.openKey? blocks s = some key →
      (Segment.expand blocks s).outcome = .error (.missing .block key) :=
    fun _ _ h => Segment.outcome_expand_of_openKey? h
  have hresult : ∀ s, Segment.openKey? blocks s = none →
      ∃ f, Segment.part? blocks s = some f ∧ (Segment.expand blocks s).outcome = .ok f :=
    fun _ h => Segment.outcome_expand_of_openKey?_eq_none h
  rw [Outcome.outcome_mapM, Outcome.mapM_eq hfault hresult, openBlock?]
  cases segments.findSome? (Segment.openKey? blocks) <;> rfl

/-- The phase of values: the first value that nothing stands for, else all values. -/
theorem outcome_mapM_fill (values : Key → Option Value) (args : List Argument) :
    (args.mapM (Argument.fill values)).outcome =
      match openValue? values args with
      | some key => .error (.missing .value key)
      | none => .ok (valuesOf values args) := by
  have hfault : ∀ a key, Argument.openKey? values a = some key →
      (Argument.fill values a).outcome = .error (.missing .value key) :=
    fun _ _ h => Argument.outcome_fill_of_openKey? h
  have hresult : ∀ a, Argument.openKey? values a = none →
      ∃ v, Argument.filled? values a = some v ∧ (Argument.fill values a).outcome = .ok v :=
    fun _ h => Argument.outcome_fill_of_openKey?_eq_none h
  rw [Outcome.outcome_mapM, Outcome.mapM_eq hfault hresult, openValue?]
  cases args.findSome? (Argument.openKey? values) <;> rfl

/-- Arguments that leave nothing open all have a value. -/
theorem map_filled?_of_openValue? {values : Key → Option Value} {args : List Argument}
    (h : openValue? values args = none) :
    args.map (Argument.filled? values) = (valuesOf values args).map some := by
  induction args with
  | nil => rfl
  | cons a args ih =>
    have hopen := List.findSome?_eq_none_iff.1 h
    have hrest : openValue? values args = none :=
      List.findSome?_eq_none_iff.2 fun x hx => hopen x (List.mem_cons_of_mem a hx)
    obtain ⟨v, hv, -⟩ := Argument.outcome_fill_of_openKey?_eq_none (hopen a List.mem_cons_self)
    rw [List.map_cons, ih hrest, hv, valuesOf, valuesOf, List.filterMap_cons_some hv, List.map_cons]

/-- Arguments that leave nothing open have one value each. -/
theorem length_valuesOf {values : Key → Option Value} {args : List Argument}
    (h : openValue? values args = none) : (valuesOf values args).length = args.length := by
  have hlength := congrArg List.length (map_filled?_of_openValue? h)
  rw [List.length_map, List.length_map] at hlength
  exact hlength.symm

/-- What assembling comes to: the phase of blocks, and the parts joined without a joiner. -/
theorem outcome_assemble (t : Template) (b : Bindings) :
    (t.assemble b).outcome =
      match openBlock? (t.block? b) t.segments with
      | some key => .error (.missing .block key)
      | none => .ok (.join "" (partsOf (t.block? b) t.segments)) := by
  rw [assemble, Traced.outcome_bind, outcome_mapM_expand]
  cases openBlock? (t.block? b) t.segments <;> rfl

/-- What filling a fragment comes to: the phase of values, and then the count of the marks. -/
theorem outcome_fillWith (f : Fragment) (values : Key → Option Value) :
    (f.fillWith values).outcome =
      match openValue? values f.args with
      | some key => .error (.missing .value key)
      | none => Statement.checked f.text (valuesOf values f.args) := by
  rw [Fragment.fillWith, Traced.outcome_bind, outcome_mapM_fill]
  cases openValue? values f.args <;> rfl

/-- A fragment has a statement when none of its values is missing and its marks are as many as its
arguments. -/
theorem outcome_fillWith_eq_ok_iff {f : Fragment} {values : Key → Option Value} {s : Statement} :
    (f.fillWith values).outcome = .ok s ↔
      openValue? values f.args = none ∧ markCount f.text = f.args.length ∧
      s = ⟨f.text, valuesOf values f.args⟩ := by
  rw [outcome_fillWith]
  cases hopen : openValue? values f.args with
  | some key => simp
  | none => simp [Statement.checked_eq_ok_iff, length_valuesOf hopen]

/-- Generating assembles, fills and reports; the report is no part of the outcome. -/
theorem outcome_generate_eq_bind (t : Template) (b : Bindings) :
    (t.generate b).outcome =
      (t.assemble b).outcome >>= fun f => (f.fillWith (t.value? b)).outcome := by
  rw [generate, Traced.outcome_bind]
  refine congrArg (Except.bind (t.assemble b).outcome) (funext fun f => ?_)
  rw [Traced.outcome_bind]
  cases (f.fillWith (t.value? b)).outcome <;> rfl

/-- Generation comes to the statement of its segments. -/
theorem outcome_generate (t : Template) (b : Bindings) :
    (t.generate b).outcome = statementOf (t.block? b) (t.value? b) t.segments := by
  rw [outcome_generate_eq_bind, outcome_assemble, statementOf]
  cases openBlock? (t.block? b) t.segments with
  | some key => rfl
  | none =>
    rw [Outcome.ok_bind, outcome_fillWith, Fragment.args_join, Fragment.text_join,
      Fragment.joinTexts_empty, argsOf]
    cases openValue? (t.value? b) ((partsOf (t.block? b) t.segments).flatMap Fragment.args) <;> rfl

/-- Segments have a statement when nothing is open on either level and the marks are as many as the
values. -/
theorem statementOf_eq_ok_iff {blocks : Key → Option Fragment} {values : Key → Option Value}
    {segments : List Segment} {s : Statement} :
    statementOf blocks values segments = .ok s ↔
      openBlock? blocks segments = none ∧ openValue? values (argsOf blocks segments) = none ∧
      markCount s.sql = s.values.length ∧
      s = ⟨textOf blocks segments, valuesOf values (argsOf blocks segments)⟩ := by
  cases hblock : openBlock? blocks segments with
  | some key => simp [statementOf, hblock]
  | none =>
    cases hvalue : openValue? values (argsOf blocks segments) with
    | some key => simp [statementOf, hblock, hvalue]
    | none =>
      simp only [statementOf, hblock, hvalue, true_and]
      constructor
      · intro h
        split at h
        · rename_i hcount
          obtain rfl := Except.ok.inj h
          exact ⟨hcount, rfl⟩
        · cases h
      · rintro ⟨hcount, rfl⟩
        rw [if_pos hcount]

/-- The statement of some segments depends on no more than what each phase makes of them. -/
theorem statementOf_congr {blocks blocks' : Key → Option Fragment} {values values' : Key → Option Value}
    {xs ys : List Segment} (hblock : openBlock? blocks xs = openBlock? blocks' ys)
    (hvalue : openValue? values (argsOf blocks xs) = openValue? values' (argsOf blocks' ys))
    (htext : textOf blocks xs = textOf blocks' ys)
    (hvalues : valuesOf values (argsOf blocks xs) = valuesOf values' (argsOf blocks' ys)) :
    statementOf blocks values xs = statementOf blocks' values' ys := by
  rw [statementOf, statementOf, hblock, hvalue, htext, hvalues]

/-- While blocks are replaced, only blocks are looked up. -/
theorem level_eq_block_of_mem_log_expand {blocks : Key → Option Fragment} {segments : List Segment}
    {level : Level} {key : Key} {bound : Bool}
    (h : .resolving level key bound ∈ (segments.mapM (Segment.expand blocks)).log) :
    level = .block := by
  obtain ⟨s, -, hs⟩ := Outcome.exists_mem_of_mem_log_mapM h
  cases s with
  | text sql => cases hs
  | fragment f => cases hs
  | block p =>
    have hd := Placeholder.eq_resolving_of_mem_log_fill hs
    exact (Diagnostic.resolving.inj hd).1

/-- Generation goes through its phases in order.  A key is looked up in the bindings of the call and
then in the overrides of the template, and a block that nothing stands for ends generation before any
value is looked up. -/
theorem generate_in_phases (t : Template) (b : Bindings) :
    (t.generate b).outcome =
      statementOf (fun key => (b.block? key).or (t.storedBlock? key))
        (fun key => (b.value? key).or (t.storedValue? key)) t.segments ∧
    ∀ missing,
      openBlock? (fun key => (b.block? key).or (t.storedBlock? key)) t.segments = some missing →
      ∀ key bound, .resolving .value key bound ∉ (t.generate b).log := by
  refine ⟨outcome_generate t b, ?_⟩
  intro missing hmissing key bound hlog
  change openBlock? (t.block? b) t.segments = some missing at hmissing
  have hexpand : (t.segments.mapM (Segment.expand (t.block? b))).outcome =
      .error (.missing .block missing) := by
    rw [outcome_mapM_expand, hmissing]
  have hassemble : (t.assemble b).outcome = .error (.missing .block missing) := by
    rw [outcome_assemble, hmissing]
  rw [generate, Traced.log_bind_of_error hassemble, assemble,
    Traced.log_bind_of_error hexpand] at hlog
  exact Level.noConfusion (level_eq_block_of_mem_log_expand hlog)

end Template

end BoundSql
