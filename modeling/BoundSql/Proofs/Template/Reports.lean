import BoundSql.Condition.Compile
import BoundSql.Proofs.Template.Phases

/-!
# What generation and compilation report

Placeholders are looked up from left to right until one of them has nothing to stand for it, and each
look-up is reported: `Placeholder.lookUps` is the list of these reports.  The log of a generation consists
of the look-ups of blocks, those of values if no block is missing, and a closing report if there is a
statement (`Template.log_generate`).

A look-up says whether something is bound to its key, never what; so bindings in which the same keys have
values, whichever these are, leave the same log (`Template.log_generate_congr`).
-/

namespace BoundSql

/-! ## Look-ups -/

namespace Placeholder

variable {α : Type}

/-- The reports on some placeholders, up to and including the first that nothing stands for.  Each has the
key and says whether something is found under it; a default does not count as found. -/
def lookUps (level : Level) (lookup : Key → Option α) (ps : List (Placeholder α)) : List Diagnostic :=
  (Outcome.upToFirst (fun p => (p.openKey? lookup).isSome) ps).map fun p =>
    .resolving level p.key (lookup p.key).isSome

/-- Filling a placeholder is reported once, whether it succeeds or not. -/
theorem log_fill (level : Level) (p : Placeholder α) (binding : Option α) :
    (p.fill level binding).log = [.resolving level p.key binding.isSome] := by
  unfold fill
  rw [isGiven_supply, get?_supply]
  cases binding.or p.default? <;> rfl

/-- Filling fails for a placeholder that nothing stands for. -/
theorem isSome_failure?_fill (level : Level) (lookup : Key → Option α) (p : Placeholder α) :
    (Outcome.failure? (p.fill level (lookup p.key)).outcome).isSome = (p.openKey? lookup).isSome := by
  rw [outcome_fill, openKey?]
  cases p.filled? lookup <;> rfl

/-- Whether nothing stands for a placeholder depends on whether something is found under its key. -/
theorem openKey?_congr_isSome {lookup lookup' : Key → Option α} {p : Placeholder α}
    (h : (lookup p.key).isSome = (lookup' p.key).isSome) : p.openKey? lookup = p.openKey? lookup' := by
  have hfilled : (p.filled? lookup).isNone = (p.filled? lookup').isNone := by
    simp only [filled?, ← Option.not_isSome, Option.isSome_or, h]
  rw [openKey?, openKey?, hfilled]

/-- The reports depend on the keys under which something is found. -/
theorem lookUps_congr {lookup lookup' : Key → Option α} (level : Level) {ps : List (Placeholder α)}
    (h : ∀ key, (lookup key).isSome = (lookup' key).isSome) :
    lookUps level lookup ps = lookUps level lookup' ps := by
  have htest : ∀ p ∈ ps, (p.openKey? lookup).isSome = (p.openKey? lookup').isSome :=
    fun p _ => congrArg Option.isSome (openKey?_congr_isSome (h p.key))
  rw [lookUps, lookUps, Outcome.upToFirst_congr htest]
  simp only [h]

end Placeholder

namespace Segment

/-- The placeholder of a segment that stands for a block. -/
def block? : Segment → Option (Placeholder Fragment)
  | .block p => some p
  | _ => none

end Segment

namespace Argument

/-- The placeholder of an argument that stands for a value. -/
def placeholder? : Argument → Option (Placeholder Value)
  | .value _ => none
  | .placeholder p => some p

/-- Whether an argument is open depends on whether something is found under its key. -/
theorem openKey?_congr_isSome {values values' : Key → Option Value}
    (h : ∀ key, (values key).isSome = (values' key).isSome) (a : Argument) :
    a.openKey? values = a.openKey? values' := by
  cases a with
  | value v => rfl
  | placeholder p => exact Placeholder.openKey?_congr_isSome (h p.key)

end Argument

namespace Template

/-! ## The log of a generation -/

/-- The phase of blocks reports the blocks among the segments. -/
theorem log_mapM_expand (blocks : Key → Option Fragment) (segments : List Segment) :
    (segments.mapM (Segment.expand blocks)).log =
      Placeholder.lookUps .block blocks (segments.filterMap Segment.block?) := by
  refine Outcome.log_mapM_eq ?_ ?_ segments
  · intro s hs
    cases s with
    | text sql => exact ⟨rfl, _, rfl⟩
    | fragment f => exact ⟨rfl, _, rfl⟩
    | block p => cases hs
  · intro s p hs
    cases s with
    | text sql => cases hs
    | fragment f => cases hs
    | block q =>
      obtain rfl := Option.some.inj hs
      exact ⟨q.log_fill .block _, q.isSome_failure?_fill .block blocks⟩

/-- The phase of values reports the placeholders among the arguments. -/
theorem log_mapM_fill (values : Key → Option Value) (args : List Argument) :
    (args.mapM (Argument.fill values)).log =
      Placeholder.lookUps .value values (args.filterMap Argument.placeholder?) := by
  refine Outcome.log_mapM_eq ?_ ?_ args
  · intro a ha
    cases a with
    | value v => exact ⟨rfl, _, rfl⟩
    | placeholder p => cases ha
  · intro a p ha
    cases a with
    | value v => cases ha
    | placeholder q =>
      obtain rfl := Option.some.inj ha
      exact ⟨q.log_fill .value _, q.isSome_failure?_fill .value values⟩

/-- Assembling reports the phase of blocks and nothing more. -/
theorem log_assemble (t : Template) (b : Bindings) :
    (t.assemble b).log =
      Placeholder.lookUps .block (t.block? b) (t.segments.filterMap Segment.block?) := by
  rw [assemble, Outcome.log_bind_pure, log_mapM_expand]

/-- Filling a fragment reports the phase of values; the count of the marks is not reported. -/
theorem log_fillWith (f : Fragment) (values : Key → Option Value) :
    (f.fillWith values).log =
      Placeholder.lookUps .value values (f.args.filterMap Argument.placeholder?) := by
  rw [Fragment.fillWith]
  cases h : (f.args.mapM (Argument.fill values)).outcome with
  | error e => rw [Traced.log_bind_of_error h, log_mapM_fill]
  | ok vs =>
    rw [Traced.log_bind_of_ok h, log_mapM_fill]
    exact List.append_nil _

/-- What is reported when a generation has come to an end: its statement, if there is one. -/
def closing : Except Error Statement → List Diagnostic
  | .ok s => [.generated s.sql s.values.length]
  | .error _ => []

/-- Filling and closing, as the last steps of a generation, report the phase of values and the statement. -/
theorem log_close (f : Fragment) (values : Key → Option Value) :
    (do let s ← f.fillWith values
        Traced.emit (.generated s.sql s.values.length)
        return s : Traced Statement).log =
      Placeholder.lookUps .value values (f.args.filterMap Argument.placeholder?) ++
        closing (f.fillWith values).outcome := by
  cases h : (f.fillWith values).outcome with
  | error e => rw [Traced.log_bind_of_error h, log_fillWith, closing, List.append_nil]
  | ok s =>
    rw [Traced.log_bind_of_ok h, log_fillWith]
    rfl

/-- The log of a generation: the look-ups of blocks; if none of these fails, those of the values in all
parts; and the statement, if there is one. -/
theorem log_generate (t : Template) (b : Bindings) :
    (t.generate b).log =
      Placeholder.lookUps .block (t.block? b) (t.segments.filterMap Segment.block?) ++
      (if (openBlock? (t.block? b) t.segments).isSome then []
        else Placeholder.lookUps .value (t.value? b)
          ((argsOf (t.block? b) t.segments).filterMap Argument.placeholder?)) ++
      closing (t.generate b).outcome := by
  have hassemble := outcome_assemble t b
  rw [outcome_generate_eq_bind, generate]
  cases hopen : openBlock? (t.block? b) t.segments with
  | some key =>
    rw [hopen] at hassemble
    rw [Traced.log_bind_of_error hassemble, log_assemble, hassemble]
    simp [closing]
  | none =>
    rw [hopen] at hassemble
    rw [Traced.log_bind_of_ok hassemble, log_assemble, log_close, hassemble]
    simp [argsOf]

/-! ## Two generations -/

/-- What is reported at the end depends on the values only by the keys under which one is found. -/
theorem closing_statementOf_congr {blocks : Key → Option Fragment} {values values' : Key → Option Value}
    (h : ∀ key, (values key).isSome = (values' key).isSome) (segments : List Segment) :
    closing (statementOf blocks values segments) = closing (statementOf blocks values' segments) := by
  have hvalue : openValue? values (argsOf blocks segments) =
      openValue? values' (argsOf blocks segments) :=
    Outcome.findSome?_congr fun a _ => Argument.openKey?_congr_isSome h a
  unfold statementOf
  cases openBlock? blocks segments with
  | some key => rfl
  | none =>
    rw [← hvalue]
    cases hopen : openValue? values (argsOf blocks segments) with
    | some key => rfl
    | none =>
      -- Both lists of values are as long as that of the arguments, so both counts come to the same.
      have hlength := length_valuesOf hopen
      have hlength' := length_valuesOf (hvalue ▸ hopen)
      simp only [hlength, hlength']
      split
      · simp only [closing, hlength, hlength']
      · rfl

/-- Bindings with the same blocks, in which the same keys have values, leave the same log. -/
theorem log_generate_congr {t : Template} {b b' : Bindings}
    (hblocks : ∀ key, b.block? key = b'.block? key)
    (hvalues : ∀ key, (b.value? key).isSome = (b'.value? key).isSome) :
    (t.generate b').log = (t.generate b).log := by
  have hblock : t.block? b' = t.block? b := by
    funext key
    rw [block?, block?, hblocks key]
  have hvalue : ∀ key, (t.value? b' key).isSome = (t.value? b key).isSome := by
    intro key
    simp only [value?, Option.isSome_or, hvalues key]
  have hlook : ∀ ps, Placeholder.lookUps .value (t.value? b') ps =
      Placeholder.lookUps .value (t.value? b) ps :=
    fun ps => Placeholder.lookUps_congr .value hvalue
  rw [log_generate, log_generate, outcome_generate, outcome_generate, hblock, hlook,
    closing_statementOf_congr hvalue]

end Template

namespace Condition

/-- Compiling reports the fragment that it results in, and nothing if it fails. -/
theorem log_compile (c : Condition) (allowed : AllowList) :
    (c.compile allowed).log =
      match (c.compile allowed).outcome with
      | .ok f => [.compiled f.text f.args.length]
      | .error _ => [] := by
  unfold compile
  cases h : c.compiled allowed <;> rfl

end Condition

namespace Template

/-- The log of a generation has one look-up for each block in the order of the segments, up to the first
that is missing; if none is, one for each placeholder among the arguments from left to right, up to the
first that is missing; and at the end the statement, exactly if there is one.  A look-up says whether the
call or the template binds its key.  The log of a compilation is its fragment, exactly if there is one.  So
bindings that differ only in what the values are leave the same log, also where generation fails. -/
theorem reports_in_order (t : Template) (b : Bindings) :
    (t.generate b).log =
      Placeholder.lookUps .block (fun key => (b.block? key).or (t.storedBlock? key))
        (t.segments.filterMap Segment.block?) ++
      (if (openBlock? (fun key => (b.block? key).or (t.storedBlock? key)) t.segments).isSome then []
        else Placeholder.lookUps .value (fun key => (b.value? key).or (t.storedValue? key))
          ((argsOf (fun key => (b.block? key).or (t.storedBlock? key)) t.segments).filterMap
            Argument.placeholder?)) ++
      (match (t.generate b).outcome with
        | .ok s => [.generated s.sql s.values.length]
        | .error _ => []) ∧
    (∀ (c : Condition) (allowed : AllowList), (c.compile allowed).log =
      match (c.compile allowed).outcome with
      | .ok f => [.compiled f.text f.args.length]
      | .error _ => []) ∧
    ∀ b' : Bindings, (∀ key, b.block? key = b'.block? key) →
      (∀ key, (b.value? key).isSome = (b'.value? key).isSome) →
      (t.generate b').log = (t.generate b).log := by
  refine ⟨?_, Condition.log_compile, ?_⟩
  · exact log_generate t b
  · intro b' hblocks hvalues
    exact log_generate_congr hblocks hvalues

/-- A query that ends at a missing value, behind a block that stands on its default, a value that is bound
and one that stands on its default: the log is the same for a number and for a text as the bound value. -/
theorem reports_in_order_of_query :
    let t := ofSegments [.text "select * from t where ",
      .block ((Placeholder.ofKey (.name "w")).withDefault ⟨"a = ?", [.placeholder (.ofKey (.name "a"))]⟩),
      .fragment ⟨" limit ?", [.placeholder ((Placeholder.ofKey (.name "n")).withDefault (.int 10))]⟩,
      .fragment ⟨" offset ?", [.placeholder (.ofKey (.index 0))]⟩,
      .fragment ⟨" -- ?", [.placeholder (.ofKey (.name "a"))]⟩]
    let b := Bindings.empty.bindValue (.name "a") (.int 1)
    let b' := Bindings.empty.bindValue (.name "a") (.text "secret")
    (∀ key, b.block? key = b'.block? key) ∧
      (∀ key, (b.value? key).isSome = (b'.value? key).isSome) ∧
      (t.generate b).log = [.resolving .block (.name "w") false, .resolving .value (.name "a") true,
        .resolving .value (.name "n") false, .resolving .value (.index 0) false] ∧
      (t.generate b').log = (t.generate b).log := by
  intro t b b'
  have hblocks : ∀ key, b.block? key = b'.block? key := fun _ => rfl
  have hvalues : ∀ key, (b.value? key).isSome = (b'.value? key).isSome := by
    intro key
    simp only [b, b', Bindings.value?_bindValue]
    split <;> rfl
  exact ⟨hblocks, hvalues, by decide, (reports_in_order t b).2.2 b' hblocks hvalues⟩

end Template

end BoundSql
