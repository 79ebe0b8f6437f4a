import BoundSql.Proofs.Template.Grammar
import BoundSql.Proofs.Template.Overrides

/-!
# Balance of loaded templates

A fragment is balanced if it has as many marks as arguments.  A statement is checked once, by all its
marks and all its values, and the elements of a template are checked one by one when it is loaded.  The
second check makes the first one superfluous as long as only balanced fragments are supplied for blocks:
the parts of a statement are balanced then, whatever they are taken from, and so is the statement.

So a loaded template is balanced (`Template.isBalanced_of_ofJson`), calls with balanced overrides keep it
so (`Template.IsBalanced.override`, `Template.IsBalanced.overrideAll`), and a generation can only miss what
nothing stands for (`Template.loaded_never_mismatched`).
-/

namespace BoundSql

/-! ## Balanced fragments and what holds them -/

/-- Whether a fragment has as many marks as arguments. -/
def Fragment.IsBalanced (f : Fragment) : Prop := markCount f.text = f.args.length

/-- Whether the fragments that bindings give for blocks are balanced. -/
def Bindings.IsBalanced (b : Bindings) : Prop := ∀ key f, b.block? key = some f → f.IsBalanced

/-- Whether the fragments that a call stores are balanced. -/
def OverrideCall.IsBalanced (c : OverrideCall) : Prop := ∀ p ∈ c.blockPairs, p.2.IsBalanced

/-- Whether a segment has as many marks as arguments: a plain text has none, and of a block it is the
default that counts. -/
def Segment.IsBalanced : Segment → Prop
  | .text sql => markCount sql = 0
  | .fragment f => f.IsBalanced
  | .block p => ∀ f, p.default? = some f → f.IsBalanced

/-- Whether the segments of a template and the overrides stored for its blocks are balanced. -/
structure Template.IsBalanced (t : Template) : Prop where
  segments : ∀ s ∈ t.segments, s.IsBalanced
  overrides : ∀ key f, t.storedBlock? key = some f → f.IsBalanced

/-- The last pair of a key is one of the pairs. -/
theorem Table.mem_of_last? {κ α : Type} [DecidableEq κ] {pairs : List (κ × α)} {key : κ} {a : α}
    (h : last? pairs key = some a) : (key, a) ∈ pairs := by
  obtain ⟨before, after, hpairs, -⟩ := List.lookup_eq_some_iff.1 h
  have hmem : (key, a) ∈ pairs.reverse := by
    rw [hpairs]
    exact List.mem_append_right before List.mem_cons_self
  exact List.mem_reverse.1 hmem

/-! ## Loading -/

/-- The segments that elements denote are balanced. -/
theorem Segment.isBalanced_of_denotes {j : Json} {s : Segment} (h : Denotes j s) : s.IsBalanced := by
  cases h with
  | literal hmarks => exact markCount_eq_zero_iff.2 hmarks
  | block => exact nofun
  | blockWithDefault _ _ _ hmarks =>
    intro f hf
    obtain rfl := Option.some.inj hf
    exact markCount_eq_zero_iff.2 hmarks
  | fragment _ _ _ hmarks => exact hmarks

namespace Template

/-- A loaded template is balanced. -/
theorem isBalanced_of_ofJson {j : Json} {t : Template} (h : ofJson j = .ok t) : t.IsBalanced := by
  obtain ⟨elements, -, hdenotes, ht⟩ := ofJson_eq_ok_iff.1 h
  refine ⟨?_, ?_⟩
  -- Each segment stands beside the element that denotes it, so that it is balanced.
  · have hboth : List.Forall₂ (fun s x => s.IsBalanced ∧ Segment.Denotes x s) t.segments elements :=
      hdenotes.flip.imp fun s x hs => ⟨Segment.isBalanced_of_denotes hs, hs⟩
    exact ((List.forall₂_and_left _ _).1 hboth).1
  · intro key f hf
    rw [ht, storedBlock?_ofSegments] at hf
    cases hf

/-! ## Overriding -/

/-- A call with balanced overrides keeps a template balanced. -/
theorem IsBalanced.override {t : Template} {c : OverrideCall} (ht : t.IsBalanced)
    (hc : c.IsBalanced) : (t.override c).IsBalanced := by
  refine ⟨?_, ?_⟩
  · rw [segments_override]
    exact ht.segments
  · intro key f hf
    rw [storedBlock?_override, Option.or_eq_some_iff] at hf
    rcases hf with hcall | ⟨-, hstored⟩
    · exact hc (key, f) (Table.mem_of_last? hcall)
    · exact ht.overrides key f hstored

/-- Calls with balanced overrides keep a template balanced. -/
theorem IsBalanced.overrideAll {t : Template} {calls : List OverrideCall} (ht : t.IsBalanced)
    (hcalls : ∀ c ∈ calls, c.IsBalanced) : (t.overrideAll calls).IsBalanced := by
  induction calls generalizing t with
  | nil => exact ht
  | cons c calls ih =>
    have hstep : (t.override c).IsBalanced := ht.override (hcalls c List.mem_cons_self)
    exact ih hstep fun d hd => hcalls d (List.mem_cons_of_mem c hd)

/-! ## Generating -/

/-- All parts of a balanced template are balanced. -/
theorem IsBalanced.parts {t : Template} {b : Bindings} (ht : t.IsBalanced) (hb : b.IsBalanced) :
    ∀ f ∈ partsOf (t.block? b) t.segments, f.IsBalanced := by
  refine forall_mem_partsOf ?_ ?_ hb ht.overrides ?_
  · intro sql hs
    exact ht.segments (.text sql) hs
  · intro f hs
    exact ht.segments (.fragment f) hs
  · intro p f hs hf
    exact ht.segments (.block p) hs f hf

/-- Balanced parts have together as many marks as arguments. -/
theorem markCount_textOf_of_balanced {blocks : Key → Option Fragment} {segments : List Segment}
    (h : ∀ f ∈ partsOf blocks segments, f.IsBalanced) :
    markCount (textOf blocks segments) = (argsOf blocks segments).length := by
  have hcounts : (partsOf blocks segments).map (fun f => markCount f.text) =
      (partsOf blocks segments).map fun f => f.args.length := List.map_congr_left h
  rw [markCount_textOf, length_argsOf, hcounts]

/-- Where the parts are balanced, the statement is what the two phases of look-up make of it. -/
theorem statementOf_of_balanced {blocks : Key → Option Fragment} {values : Key → Option Value}
    {segments : List Segment} (h : ∀ f ∈ partsOf blocks segments, f.IsBalanced) :
    statementOf blocks values segments =
      match openBlock? blocks segments, openValue? values (argsOf blocks segments) with
      | some key, _ => .error (.missing .block key)
      | none, some key => .error (.missing .value key)
      | none, none => .ok ⟨textOf blocks segments, valuesOf values (argsOf blocks segments)⟩ := by
  rw [statementOf]
  cases openBlock? blocks segments with
  | some key => rfl
  | none =>
    cases hvalue : openValue? values (argsOf blocks segments) with
    | some key => rfl
    | none =>
      have hcount : markCount (textOf blocks segments) =
          (valuesOf values (argsOf blocks segments)).length := by
        rw [length_valuesOf hvalue, markCount_textOf_of_balanced h]
      exact if_pos hcount

/-- A balanced template generates a statement, or something that nothing stands for is missing. -/
theorem IsBalanced.ok_or_missing {t : Template} {b : Bindings} (ht : t.IsBalanced)
    (hb : b.IsBalanced) :
    (∃ s, (t.generate b).outcome = .ok s) ∨
      ∃ level key, (t.generate b).outcome = .error (.missing level key) := by
  rw [outcome_generate, statementOf_of_balanced (ht.parts hb)]
  cases openBlock? (t.block? b) t.segments with
  | some key => exact Or.inr ⟨.block, key, rfl⟩
  | none =>
    cases openValue? (t.value? b) (argsOf (t.block? b) t.segments) with
    | some key => exact Or.inr ⟨.value, key, rfl⟩
    | none => exact Or.inl ⟨_, rfl⟩

/-- The segments of a loaded template are balanced.  If the fragments that are stored for its blocks
afterwards and those that are bound to them are balanced as well, a generation gives a statement or misses
something, and the numbers of its marks and its values never differ. -/
theorem loaded_never_mismatched {j : Json} {t : Template} {calls : List OverrideCall} {b : Bindings}
    (ht : ofJson j = .ok t) (hcalls : ∀ c ∈ calls, c.IsBalanced) (hb : b.IsBalanced) :
    (∀ s ∈ t.segments, s.IsBalanced) ∧
    ((∃ s, ((t.overrideAll calls).generate b).outcome = .ok s) ∨
      ∃ level key, ((t.overrideAll calls).generate b).outcome = .error (.missing level key)) ∧
    ∀ marks values, ((t.overrideAll calls).generate b).outcome ≠ .error (.countMismatch marks values) := by
  have hloaded : t.IsBalanced := isBalanced_of_ofJson ht
  have hcases := (hloaded.overrideAll hcalls).ok_or_missing hb
  refine ⟨hloaded.segments, hcases, ?_⟩
  intro marks values hmismatch
  rcases hcases with ⟨s, hs⟩ | ⟨level, key, hmissing⟩
  · rw [hs] at hmismatch
    cases hmismatch
  · rw [hmissing] at hmismatch
    cases hmismatch

/-- A loaded query with a stored override and a bound condition, both with marks of their own. -/
theorem loaded_never_mismatched_of_query :
    let j : Json := .array [.string "select * from t ",
      .object [("default", .string "where a = 1"), ("param", .string "w")],
      .object [("default", .string ""), ("param", .string "o")],
      .object [("sql", .string " limit ? offset ?"),
        ("values", .array [.object [("param", .string "limit")], .null])]]
    let t := ofSegments [.fragment (.raw "select * from t "),
      .block ⟨.name "w", some (.raw "where a = 1")⟩, .block ⟨.name "o", some (.raw "")⟩,
      .fragment ⟨" limit ? offset ?", [.placeholder ⟨.name "limit", none⟩, .value .null]⟩]
    let calls : List OverrideCall := [.blocks [(.name "o", ⟨" order by ?", [.value (.int 2)]⟩)],
      .values [(.name "limit", .int 10)]]
    let b := Bindings.empty.bindBlock (.name "w") ⟨"where a = ?", [.value (.int 1)]⟩
    let s : Statement := ⟨"select * from t where a = ? order by ? limit ? offset ?",
      [.int 1, .int 2, .int 10, .null]⟩
    ofJson j = .ok t ∧ (∀ c ∈ calls, c.IsBalanced) ∧ b.IsBalanced ∧
      ((t.overrideAll calls).generate b).outcome = .ok s ∧
      (∀ s ∈ t.segments, s.IsBalanced) ∧
      ((∃ s, ((t.overrideAll calls).generate b).outcome = .ok s) ∨
        ∃ level key, ((t.overrideAll calls).generate b).outcome = .error (.missing level key)) ∧
      ∀ marks values,
        ((t.overrideAll calls).generate b).outcome ≠ .error (.countMismatch marks values) := by
  intro j t calls b s
  have ht : ofJson j = .ok t := rfl
  have hcalls : ∀ c ∈ calls, c.IsBalanced := by
    intro c hc p hp
    have hpair : p = (.name "o", ⟨" order by ?", [.value (.int 2)]⟩) := by
      rcases List.mem_cons.1 hc with rfl | hc
      · exact List.mem_singleton.1 hp
      · obtain rfl := List.mem_singleton.1 hc
        cases hp
    rw [hpair]
    rfl
  have hb : b.IsBalanced := by
    intro key f hf
    rw [Bindings.block?_bindBlock] at hf
    split at hf
    · obtain rfl := Option.some.inj hf
      rfl
    · cases hf
  exact ⟨ht, hcalls, hb, rfl, loaded_never_mismatched ht hcalls hb⟩

end Template

end BoundSql
