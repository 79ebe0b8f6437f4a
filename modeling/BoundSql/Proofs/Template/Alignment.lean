import BoundSql.Proofs.Fragment.Composition
import BoundSql.Proofs.Template.Phases
import BoundSql.Proofs.Template.Stored
import Mathlib.Algebra.Order.BigOperators.Group.List
import Mathlib.Algebra.Order.Group.Nat

/-!
# Marks and values in the same part

A statement is checked once, by the number of all its marks and of all its values.  That check alone
would pass if one part had a mark too many and another a mark too few.  It does not happen: a composed
fragment never has more arguments than marks, so equal totals force equal numbers in every part
(`Template.markCount_eq_of_sum_eq`), and the marks and the values of a statement run through its parts
in step.
-/

namespace BoundSql

/-! ## Composed templates and bindings -/

namespace Fragment

/-- Whether the operations of the library compose a fragment. -/
def IsComposed (f : Fragment) : Prop := ∃ n, Composed f n

/-- A composed fragment never has more arguments than marks. -/
theorem IsComposed.length_args_le {f : Fragment} (h : f.IsComposed) :
    f.args.length ≤ markCount f.text := by
  obtain ⟨n, hn⟩ := h
  rw [hn.markCount_eq]
  exact Nat.le_add_right _ _

/-- The members of all parts in order, each with the place of its part. -/
def byPart {α : Type} (members : Fragment → List α) (parts : List Fragment) : List (Nat × α) :=
  parts.zipIdx.flatMap fun p => (members p.1).map fun a => (p.2, a)

/-- The characters of all parts, each with the place of its part. -/
def charsByPart (parts : List Fragment) : List (Nat × Char) := byPart (fun p => p.text.toList) parts

/-- The marks of all parts, each with the place of its part. -/
def marksByPart (parts : List Fragment) : List (Nat × Char) :=
  (charsByPart parts).filter fun c => c.2 == '?'

/-- The arguments of all parts, each with the place of its part. -/
def argsByPart (parts : List Fragment) : List (Nat × Argument) := byPart Fragment.args parts

/-- Without their places the members are those of the parts in order. -/
theorem map_snd_byPart {α : Type} (members : Fragment → List α) (parts : List Fragment) :
    (byPart members parts).map Prod.snd = parts.flatMap members := by
  have hpart : ∀ p : Fragment × Nat,
      ((members p.1).map fun a => (p.2, a)).map Prod.snd = members p.1 := by
    intro p
    rw [List.map_map]
    exact List.map_id _
  unfold byPart
  rw [List.map_flatMap]
  simp only [hpart]
  rw [← List.flatMap_map, List.zipIdx_map_fst]

/-- If every part has as many marks as arguments, marks and arguments stand in the same parts. -/
theorem map_fst_marksByPart {parts : List Fragment}
    (h : ∀ p ∈ parts, markCount p.text = p.args.length) :
    (marksByPart parts).map Prod.fst = (argsByPart parts).map Prod.fst := by
  unfold marksByPart charsByPart argsByPart byPart
  rw [List.filter_flatMap, List.map_flatMap, List.map_flatMap]
  refine List.flatMap_congr fun p hp => ?_
  have hmem : p.1 ∈ parts := List.fst_mem_of_mem_zipIdx hp
  have hmarks : (p.1.text.toList.filter (· == '?')).length = p.1.args.length := by
    rw [← h p.1 hmem]
    exact (List.countP_eq_length_filter ..).symm
  rw [List.filter_map, List.map_map, List.map_map]
  change (p.1.text.toList.filter (· == '?')).map (fun _ => p.2) = p.1.args.map fun _ => p.2
  rw [List.map_const', List.map_const', hmarks]

end Fragment

/-- Whether the fragments that bindings give for blocks are composed. -/
def Bindings.IsComposed (b : Bindings) : Prop := ∀ key f, b.block? key = some f → f.IsComposed

namespace Template

/-- Whether the fragments that a template may bring into a statement are composed: those of its
segments, the defaults of its blocks, and the overrides stored for blocks.  Its plain texts may be
anything. -/
structure IsComposed (t : Template) : Prop where
  fragments : ∀ f, .fragment f ∈ t.segments → f.IsComposed
  defaults : ∀ (p : Placeholder Fragment) (f : Fragment),
    .block p ∈ t.segments → p.default? = some f → f.IsComposed
  overrides : ∀ key f, t.storedBlock? key = some f → f.IsComposed

/-- No part of a composed template has more arguments than marks. -/
theorem IsComposed.length_args_le {t : Template} {b : Bindings} (ht : t.IsComposed)
    (hb : b.IsComposed) {f : Fragment} (hf : f ∈ partsOf (t.block? b) t.segments) :
    f.args.length ≤ markCount f.text := by
  refine forall_mem_partsOf (P := fun f => f.args.length ≤ markCount f.text) ?_ ?_ ?_ ?_ ?_ f hf
  · intro sql _
    exact Nat.zero_le _
  · intro f hf
    exact (ht.fragments f hf).length_args_le
  · intro key f hf
    exact (hb key f hf).length_args_le
  · intro key f hf
    exact (ht.overrides key f hf).length_args_le
  · intro p f hp hf
    exact (ht.defaults p f hp hf).length_args_le

/-- If no part has more arguments than marks, equal totals leave no part with more marks. -/
theorem markCount_eq_of_sum_eq {parts : List Fragment}
    (hle : ∀ p ∈ parts, p.args.length ≤ markCount p.text)
    (hsum : (parts.map fun p => markCount p.text).sum = (parts.map fun p => p.args.length).sum) :
    ∀ p ∈ parts, markCount p.text = p.args.length := by
  induction parts with
  | nil =>
    intro p hp
    exact absurd hp List.not_mem_nil
  | cons q parts ih =>
    have hq := hle q List.mem_cons_self
    have hrest : ∀ p ∈ parts, p.args.length ≤ markCount p.text :=
      fun p hp => hle p (List.mem_cons_of_mem q hp)
    have htotal : (parts.map fun p => p.args.length).sum ≤ (parts.map fun p => markCount p.text).sum :=
      List.sum_le_sum hrest
    rw [List.map_cons, List.map_cons, List.sum_cons, List.sum_cons] at hsum
    intro p hp
    rcases List.mem_cons.1 hp with rfl | hp
    · omega
    · exact ih hrest (by omega) p hp

/-- If a template and bindings are composed and generation succeeds, each part of the statement has as
many marks as arguments.  The characters of the statement and its values are those of the parts in
order, and a mark and the value with the same number come from the same part. -/
theorem marks_aligned_with_values {t : Template} {b : Bindings} {s : Statement}
    (ht : t.IsComposed) (hb : b.IsComposed) (hs : (t.generate b).outcome = .ok s) :
    ∃ parts : List Fragment,
      (t.segments.mapM (Segment.expand (t.block? b))).outcome = .ok parts ∧
      (∀ p ∈ parts, markCount p.text = p.args.length) ∧
      (Fragment.charsByPart parts).map Prod.snd = s.sql.toList ∧
      (Fragment.argsByPart parts).map (fun a => a.2.filled? (t.value? b)) = s.values.map some ∧
      ∀ k : Nat, (Fragment.marksByPart parts)[k]?.map Prod.fst =
        (Fragment.argsByPart parts)[k]?.map Prod.fst := by
  rw [outcome_generate] at hs
  obtain ⟨hblock, hvalue, hcount, rfl⟩ := statementOf_eq_ok_iff.1 hs
  have hparts : ∀ p ∈ partsOf (t.block? b) t.segments, markCount p.text = p.args.length := by
    refine markCount_eq_of_sum_eq (fun p hp => ht.length_args_le hb hp) ?_
    rw [← markCount_textOf, ← length_argsOf, ← length_valuesOf hvalue]
    exact hcount
  refine ⟨partsOf (t.block? b) t.segments, ?_, hparts, ?_, ?_, ?_⟩
  · rw [outcome_mapM_expand, hblock]
  · rw [Fragment.charsByPart, Fragment.map_snd_byPart, textOf, String.toList_join,
      List.flatMap_map]
  · rw [← map_filled?_of_openValue? hvalue, argsOf, Fragment.argsByPart,
      ← Fragment.map_snd_byPart Fragment.args, List.map_map]
    rfl
  · intro k
    rw [← List.getElem?_map, ← List.getElem?_map, Fragment.map_fst_marksByPart hparts]

/-- The alignment in a query whose condition is bound as a block and has a mark of its own. -/
theorem marks_aligned_with_values_of_query :
    let t := ofSegments [.text "select * from t ", .block (.ofKey (.name "w")), .text " and k = ",
      .fragment (.mark (.placeholder (.ofKey (.name "k"))))]
    let b := (Bindings.empty.bindBlock (.name "w")
      (Comparison.equal.render "a" (.int 1)).asWhere).bindValue (.name "k") (.int 7)
    let s : Statement := ⟨"select * from t where (a) = ? and k = ?", [.int 1, .int 7]⟩
    t.IsComposed ∧ b.IsComposed ∧ (t.generate b).outcome = .ok s ∧
      ∃ parts : List Fragment,
        (t.segments.mapM (Segment.expand (t.block? b))).outcome = .ok parts ∧
        (∀ p ∈ parts, markCount p.text = p.args.length) ∧
        (Fragment.charsByPart parts).map Prod.snd = s.sql.toList ∧
        (Fragment.argsByPart parts).map (fun a => a.2.filled? (t.value? b)) = s.values.map some ∧
        ∀ k : Nat, (Fragment.marksByPart parts)[k]?.map Prod.fst =
          (Fragment.argsByPart parts)[k]?.map Prod.fst := by
  intro t b s
  have ht : t.IsComposed := by
    refine ⟨?_, ?_, ?_⟩
    · intro f hf
      have hmark : f = .mark (.placeholder (.ofKey (.name "k"))) := by
        simpa [t, ofSegments] using hf
      exact ⟨0, hmark ▸ .mark _⟩
    · intro p f hp hf
      have hkey : p = .ofKey (.name "w") := by
        simpa [t, ofSegments] using hp
      rw [hkey] at hf
      cases hf
    · intro key f hf
      rw [storedBlock?_ofSegments] at hf
      cases hf
  have hb : b.IsComposed := by
    intro key f hf
    have hblock : (if Key.name "w" = key then
        some (Comparison.equal.render "a" (.int 1)).asWhere else none) = some f := by
      simpa [b] using hf
    split at hblock
    · obtain rfl := Option.some.inj hblock
      exact ⟨_, .asWhere (.render _ _ _)⟩
    · cases hblock
  have hs : (t.generate b).outcome = .ok s := rfl
  exact ⟨ht, hb, hs, marks_aligned_with_values ht hb hs⟩

end Template

end BoundSql
