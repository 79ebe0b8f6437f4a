import BoundSql.Proofs.Template.Staging

/-!
# Ways of supplying a fragment

A fragment gets into a statement as a segment of its own, or in the place of a block: bound by the call,
stored on the template, or as the default of the placeholder.  A generation looks at the parts that the
segments bring and not at where they come from (`Template.statementOf_congr_parts`), so all four ways
have the same outcome, as long as the key of the block is used for nothing else on the level of blocks
(`Template.supplied_alike`).  Placeholders of values inside the fragment are no exception: their keys
are of another level, and they are looked up when the parts have been joined.
-/

namespace BoundSql

namespace Placeholder

variable {α : Type} {lookup lookup' : Key → Option α} {p : Placeholder α}

/-- What stands for a placeholder depends on what is found under its own key only. -/
theorem filled?_congr (h : lookup p.key = lookup' p.key) : p.filled? lookup = p.filled? lookup' := by
  rw [filled?, filled?, h]

/-- Whether nothing stands for a placeholder depends on what is found under its own key only. -/
theorem openKey?_congr (h : lookup p.key = lookup' p.key) : p.openKey? lookup = p.openKey? lookup' := by
  rw [openKey?, openKey?, filled?_congr h]

end Placeholder

namespace Segment

variable {blocks blocks' : Key → Option Fragment} {s : Segment}

/-- The part of a segment depends on what is found under its own key only. -/
theorem part?_congr (h : ∀ key ∈ s.blockKeys, blocks key = blocks' key) :
    s.part? blocks = s.part? blocks' := by
  cases s with
  | text sql => rfl
  | fragment f => rfl
  | block p => exact Placeholder.filled?_congr (h p.key List.mem_cons_self)

/-- Whether a segment is open depends on what is found under its own key only. -/
theorem openKey?_congr (h : ∀ key ∈ s.blockKeys, blocks key = blocks' key) :
    s.openKey? blocks = s.openKey? blocks' := by
  cases s with
  | text sql => rfl
  | fragment f => rfl
  | block p => exact Placeholder.openKey?_congr (h p.key List.mem_cons_self)

end Segment

namespace Template

variable {blocks blocks' : Key → Option Fragment} {values : Key → Option Value}

/-! ## Look-ups that agree on the keys of some segments -/

/-- Look-ups that agree on the keys of some segments find the same parts for them. -/
theorem partsOf_congr {segments : List Segment}
    (h : ∀ key ∈ segments.flatMap Segment.blockKeys, blocks key = blocks' key) :
    partsOf blocks segments = partsOf blocks' segments := by
  refine List.filterMap_congr fun s hs => Segment.part?_congr fun key hkey => ?_
  exact h key (List.mem_flatMap.2 ⟨s, hs, hkey⟩)

/-- Look-ups that agree on the keys of some segments miss the same block of them. -/
theorem openBlock?_congr {segments : List Segment}
    (h : ∀ key ∈ segments.flatMap Segment.blockKeys, blocks key = blocks' key) :
    openBlock? blocks segments = openBlock? blocks' segments := by
  refine Outcome.findSome?_congr fun s hs => Segment.openKey?_congr fun key hkey => ?_
  exact h key (List.mem_flatMap.2 ⟨s, hs, hkey⟩)

/-- Segments that bring the same parts and miss the same block have the same statement. -/
theorem statementOf_congr_parts {xs ys : List Segment}
    (hblock : openBlock? blocks xs = openBlock? blocks' ys)
    (hparts : partsOf blocks xs = partsOf blocks' ys) :
    statementOf blocks values xs = statementOf blocks' values ys := by
  have hargs : argsOf blocks xs = argsOf blocks' ys := by rw [argsOf, argsOf, hparts]
  have htext : textOf blocks xs = textOf blocks' ys := by rw [textOf, textOf, hparts]
  exact statementOf_congr hblock (by rw [hargs]) htext (by rw [hargs])

/-! ## A fragment in the place of a block -/

/-- A block that a fragment stands for may be replaced by the fragment, if its key stands for nothing
else. -/
theorem statementOf_supplied {xs zs : List Segment} {p : Placeholder Fragment} {f : Fragment}
    (hf : p.filled? blocks' = some f) (hsame : ∀ key, key ≠ p.key → blocks' key = blocks key)
    (hxs : p.key ∉ xs.flatMap Segment.blockKeys) (hzs : p.key ∉ zs.flatMap Segment.blockKeys) :
    statementOf blocks' values (xs ++ [.block p] ++ zs) =
      statementOf blocks values (xs ++ [.fragment f] ++ zs) := by
  have hagree : ∀ {segments : List Segment}, p.key ∉ segments.flatMap Segment.blockKeys →
      ∀ key ∈ segments.flatMap Segment.blockKeys, blocks' key = blocks key := by
    intro segments hsegments key hkey
    refine hsame key ?_
    rintro rfl
    exact hsegments hkey
  refine statementOf_congr_parts ?_ ?_
  · have hclosed : p.openKey? blocks' = none := Placeholder.openKey?_eq_none_iff.2 ⟨f, hf⟩
    have hopen : openBlock? blocks' [.block p] = openBlock? blocks [.fragment f] := by
      rw [openBlock?, openBlock?, List.findSome?_singleton, List.findSome?_singleton]
      exact hclosed
    rw [openBlock?_append, openBlock?_append, openBlock?_append, openBlock?_append, hopen,
      openBlock?_congr (hagree hxs), openBlock?_congr (hagree hzs)]
  · have hpart : partsOf blocks' [.block p] = partsOf blocks [.fragment f] :=
      List.filterMap_cons_some hf
    rw [partsOf_append, partsOf_append, partsOf_append, partsOf_append, hpart,
      partsOf_congr (hagree hxs), partsOf_congr (hagree hzs)]

/-- A fragment alone has the statement that comes of filling it. -/
theorem statementOf_fragment (f : Fragment) :
    statementOf blocks values [.fragment f] = (f.fillWith values).outcome := by
  have hopen : openBlock? blocks [.fragment f] = none := rfl
  rw [outcome_fillWith, statementOf, hopen, argsOf_fragment, textOf_fragment]
  cases openValue? values f.args <;> rfl

/-! ## The ways -/

/-- A template that stores one block finds it under its key, if the call binds nothing there. -/
theorem outcome_generate_overrideBlocks (segments : List Segment) (key : Key) (f : Fragment)
    (b : Bindings) :
    (((ofSegments segments).overrideBlocks [(key, f)]).generate b).outcome =
      statementOf (fun k => (b.block? k).or (if key = k then some f else none)) b.value? segments := by
  have hblocks : ((ofSegments segments).overrideBlocks [(key, f)]).block? b =
      fun k => (b.block? k).or (if key = k then some f else none) := by
    funext k
    rw [block?, storedBlock?_overrideBlocks, storedBlock?_ofSegments, Table.last?_singleton,
      Option.or_none]
  have hvalues : ((ofSegments segments).overrideBlocks [(key, f)]).value? b = b.value? := by
    funext k
    rw [value?, storedValue?_overrideBlocks, storedValue?_ofSegments, Option.or_none]
  rw [outcome_generate, hblocks, hvalues]
  rfl

/-- A fragment among some segments comes to the same outcome as a block in its place whose key is bound to
the fragment, by the call or by the template, or whose default is the fragment; the key has to be bound to
nothing else and to be the key of no other block, and it may be the key of any value.  Without other
segments this is the outcome of filling the fragment. -/
theorem supplied_alike {xs zs : List Segment} {b : Bindings} {key : Key} (hb : b.block? key = none)
    (hxs : key ∉ xs.flatMap Segment.blockKeys) (hzs : key ∉ zs.flatMap Segment.blockKeys)
    (f : Fragment) (default? : Option Fragment) :
    ((ofSegments (xs ++ [.block ⟨key, default?⟩] ++ zs)).generate (b.bindBlock key f)).outcome =
      ((ofSegments (xs ++ [.fragment f] ++ zs)).generate b).outcome ∧
    (((ofSegments (xs ++ [.block ⟨key, default?⟩] ++ zs)).overrideBlocks [(key, f)]).generate
        b).outcome =
      ((ofSegments (xs ++ [.fragment f] ++ zs)).generate b).outcome ∧
    ((ofSegments (xs ++ [.block ((Placeholder.ofKey key).withDefault f)] ++ zs)).generate
        b).outcome =
      ((ofSegments (xs ++ [.fragment f] ++ zs)).generate b).outcome ∧
    (xs = [] → zs = [] →
      ((ofSegments (xs ++ [.fragment f] ++ zs)).generate b).outcome = (f.fill b).outcome) := by
  rw [outcome_generate_ofSegments, outcome_generate_ofSegments, outcome_generate_ofSegments,
    outcome_generate_overrideBlocks]
  refine ⟨?_, ?_, ?_, ?_⟩
  · have hf : Placeholder.filled? (b.bindBlock key f).block? ⟨key, default?⟩ = some f := by
      rw [Placeholder.filled?, Bindings.block?_bindBlock, if_pos rfl, Option.some_or]
    refine statementOf_supplied hf (fun k hk => ?_) hxs hzs
    rw [Bindings.block?_bindBlock, if_neg (Ne.symm hk)]
  · have hf : Placeholder.filled? (fun k => (b.block? k).or (if key = k then some f else none))
        ⟨key, default?⟩ = some f := by
      rw [Placeholder.filled?, hb, if_pos rfl, Option.none_or, Option.some_or]
    refine statementOf_supplied hf (fun k hk => ?_) hxs hzs
    rw [if_neg (Ne.symm hk), Option.or_none]
  · have hf : ((Placeholder.ofKey key).withDefault f).filled? b.block? = some f := by
      have hkey : b.block? ((Placeholder.ofKey key).withDefault f).key = none := hb
      rw [Placeholder.filled?, hkey, Option.none_or]
      rfl
    exact statementOf_supplied hf (fun _ _ => rfl) hxs hzs
  · rintro rfl rfl
    exact statementOf_fragment f

/-- A condition on one value, under a key that is also the key of that value, in a query with a block of its
own: supplied in any way, it comes to the statement that it comes to as a segment. -/
theorem supplied_alike_of_query :
    let key : Key := .name "k"
    let xs : List Segment := [.text "select * from t where "]
    let zs : List Segment := [.block ((Placeholder.ofKey (.name "order")).withDefault (.raw " order by a"))]
    let b := Bindings.empty.bindValue key (.int 7)
    let f : Fragment := ⟨"a = ?", [.placeholder (.ofKey key)]⟩
    let s : Statement := ⟨"select * from t where a = ? order by a", [.int 7]⟩
    (b.block? key = none ∧ key ∉ xs.flatMap Segment.blockKeys ∧ key ∉ zs.flatMap Segment.blockKeys) ∧
      ((ofSegments (xs ++ [.block (.ofKey key)] ++ zs)).generate (b.bindBlock key f)).outcome = .ok s ∧
      (((ofSegments (xs ++ [.block (.ofKey key)] ++ zs)).overrideBlocks [(key, f)]).generate
        b).outcome = .ok s ∧
      ((ofSegments (xs ++ [.block ((Placeholder.ofKey key).withDefault f)] ++ zs)).generate
        b).outcome = .ok s ∧
      ((ofSegments ([] ++ [.fragment f] ++ [])).generate b).outcome = (f.fill b).outcome := by
  intro key xs zs b f s
  have hb : b.block? key = none := rfl
  have hxs : key ∉ xs.flatMap Segment.blockKeys := by decide
  have hzs : key ∉ zs.flatMap Segment.blockKeys := by decide
  have hnone : key ∉ ([] : List Segment).flatMap Segment.blockKeys := List.not_mem_nil
  have hdirect : ((ofSegments (xs ++ [.fragment f] ++ zs)).generate b).outcome = .ok s := by
    have hmarks : markCount "select * from t where a = ? order by a" = 1 := by decide
    rw [outcome_generate_ofSegments]
    exact statementOf_eq_ok_iff.2 ⟨rfl, rfl, hmarks, rfl⟩
  obtain ⟨hbound, hstored, hdefault, -⟩ := supplied_alike hb hxs hzs f none
  obtain ⟨-, -, -, halone⟩ := supplied_alike hb hnone hnone f none
  exact ⟨⟨hb, hxs, hzs⟩, hbound.trans hdirect, hstored.trans hdirect, hdefault.trans hdirect,
    halone rfl rfl⟩

end Template

end BoundSql
