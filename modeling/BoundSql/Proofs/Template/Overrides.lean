import BoundSql.Proofs.Template.Supply

/-!
# Overrides are bindings to fall back on

Calls store overrides on a template one after the other, fragments on the level of blocks and values on
the other level.  What a sequence of calls leaves behind for a key is its last override
(`Template.storedBlock?_overrideAll`), and a generation finds it where the bindings of the call have
nothing.  So it would find it as well among bindings that have the last overrides to fall back on
(`Bindings.withFallback`), and the template could do without them (`Template.overrides_as_fallback`).

Of a sequence of calls nothing else matters: neither how the overrides are distributed over the calls,
nor the order of overrides that concern different keys or levels, nor overrides of keys that no part of
the statement carries (`Template.statementOf_congr_keys`).
-/

namespace BoundSql

namespace Table

variable {κ α : Type} [DecidableEq κ]

/-- Among the pairs of some keys those keys have the same last pairs, and the others none. -/
theorem last?_filter (keep : κ → Bool) (pairs : List (κ × α)) (key : κ) :
    last? (pairs.filter fun p => keep p.1) key = if keep key then last? pairs key else none := by
  induction pairs with
  | nil => simp
  | cons p pairs ih =>
    by_cases hp : keep p.1 = true
    · rw [List.filter_cons, if_pos hp, last?_cons, ih, last?_cons]
      by_cases hkey : keep key = true
      · rw [if_pos hkey, if_pos hkey]
      · have hne : p.1 ≠ key := by
          rintro rfl
          exact hkey hp
        rw [if_neg hkey, if_neg hkey, if_neg hne, Option.or_none]
    · rw [List.filter_cons, if_neg hp, ih, last?_cons]
      by_cases hkey : keep key = true
      · have hne : p.1 ≠ key := by
          rintro rfl
          exact hp hkey
        rw [if_pos hkey, if_pos hkey, if_neg hne, Option.or_none]
      · rw [if_neg hkey, if_neg hkey]

/-- Lists of pairs without common keys may change places. -/
theorem last?_append_comm {ps qs : List (κ × α)}
    (h : (ps.map Prod.fst).Disjoint (qs.map Prod.fst)) (key : κ) :
    last? (ps ++ qs) key = last? (qs ++ ps) key := by
  rw [last?_append, last?_append]
  by_cases hkey : key ∈ ps.map Prod.fst
  · have hnone : last? qs key = none := last?_eq_none_iff.2 (h hkey)
    rw [hnone, Option.none_or, Option.or_none]
  · have hnone : last? ps key = none := last?_eq_none_iff.2 hkey
    rw [hnone, Option.none_or, Option.or_none]

/-- Neighbouring lists of pairs without common keys may change places among others. -/
theorem last?_flatMap_swap {β : Type} {g : β → List (κ × α)} {c d : β}
    (h : ((g c).map Prod.fst).Disjoint ((g d).map Prod.fst)) (before after : List β) (key : κ) :
    last? ((before ++ c :: d :: after).flatMap g) key =
      last? ((before ++ d :: c :: after).flatMap g) key := by
  have hswap : last? (g c ++ g d) key = last? (g d ++ g c) key := last?_append_comm h key
  have hflat : ∀ x y : β, (before ++ x :: y :: after).flatMap g =
      before.flatMap g ++ ((g x ++ g y) ++ after.flatMap g) := by
    intro x y
    rw [List.flatMap_append, List.flatMap_cons, List.flatMap_cons, List.append_assoc]
  rw [hflat, hflat, last?_append, last?_append (g c ++ g d), hswap, last?_append (before.flatMap g),
    last?_append (g d ++ g c)]

/-- Lists of pairs that do not have a key may be left out among others. -/
theorem last?_flatMap_omit {β : Type} {g : β → List (κ × α)} {xs : List β} {key : κ}
    (h : key ∉ (xs.flatMap g).map Prod.fst) (before after : List β) :
    last? ((before ++ xs ++ after).flatMap g) key = last? ((before ++ after).flatMap g) key := by
  have hnone : last? (xs.flatMap g) key = none := last?_eq_none_iff.2 h
  rw [List.flatMap_append, List.flatMap_append, List.flatMap_append, last?_append, last?_append,
    last?_append, hnone, Option.none_or]

variable [Ord κ] [Std.LawfulEqOrd κ]

/-- The table with the last pairs of the keys that it does not have. -/
def withFallback (t : Table κ α) (pairs : List (κ × α)) : Table κ α :=
  t.insertAll (pairs.filter fun p => (t.get? p.1).isNone)

/-- A key that is not in the table has its last pair to fall back on. -/
theorem get?_withFallback (t : Table κ α) (pairs : List (κ × α)) (key : κ) :
    (t.withFallback pairs).get? key = (t.get? key).or (last? pairs key) := by
  rw [withFallback, get?_insertAll, last?_filter fun k => (t.get? k).isNone]
  cases hkey : t.get? key with
  | none => simp
  | some a => simp

end Table

/-! ## Look-ups that agree on the keys of values -/

namespace Argument

variable {values values' : Key → Option Value} {a : Argument}

/-- The value of an argument depends on what is found under its own key only. -/
theorem filled?_congr (h : ∀ p, a = .placeholder p → values p.key = values' p.key) :
    a.filled? values = a.filled? values' := by
  cases a with
  | value v => rfl
  | placeholder p => exact Placeholder.filled?_congr (h p rfl)

/-- Whether an argument is open depends on what is found under its own key only. -/
theorem openKey?_congr (h : ∀ p, a = .placeholder p → values p.key = values' p.key) :
    a.openKey? values = a.openKey? values' := by
  cases a with
  | value v => rfl
  | placeholder p => exact Placeholder.openKey?_congr (h p rfl)

end Argument

namespace Fragment

/-- The keys of the values that a fragment leaves open. -/
def valueKeys (f : Fragment) : List Key := f.placeholders.map Placeholder.key

/-- A placeholder among the arguments has its key among those of the fragment. -/
theorem key_mem_valueKeys {f : Fragment} {p : Placeholder Value} (h : .placeholder p ∈ f.args) :
    p.key ∈ f.valueKeys :=
  List.mem_map_of_mem (List.mem_filterMap.2 ⟨.placeholder p, h, rfl⟩)

/-- The keys of the values that a fragment leaves open are those of its placeholders. -/
theorem mem_valueKeys_iff {f : Fragment} {key : Key} :
    key ∈ f.valueKeys ↔ ∃ p, .placeholder p ∈ f.args ∧ p.key = key := by
  constructor
  · intro h
    obtain ⟨p, hp, rfl⟩ := List.mem_map.1 h
    obtain ⟨a, ha, hap⟩ := List.mem_filterMap.1 hp
    cases a with
    | value v => cases hap
    | placeholder q =>
      obtain rfl := Option.some.inj hap
      exact ⟨q, ha, rfl⟩
  · rintro ⟨p, hp, rfl⟩
    exact key_mem_valueKeys hp

end Fragment

namespace Template

variable {blocks blocks' : Key → Option Fragment} {values values' : Key → Option Value}

/-- Look-ups that agree on the keys that the segments and their parts carry, each on its level, have the
same statement. -/
theorem statementOf_congr_keys {segments : List Segment}
    (hblocks : ∀ key ∈ segments.flatMap Segment.blockKeys, blocks key = blocks' key)
    (hvalues : ∀ key ∈ (partsOf blocks segments).flatMap Fragment.valueKeys,
      values key = values' key) :
    statementOf blocks values segments = statementOf blocks' values' segments := by
  have hparts := partsOf_congr hblocks
  have hargs : argsOf blocks segments = argsOf blocks' segments := by rw [argsOf, argsOf, hparts]
  have hkeys : ∀ p : Placeholder Value, .placeholder p ∈ argsOf blocks segments →
      values p.key = values' p.key := by
    intro p hp
    obtain ⟨f, hf, hpf⟩ := List.mem_flatMap.1 hp
    exact hvalues p.key (List.mem_flatMap.2 ⟨f, hf, Fragment.key_mem_valueKeys hpf⟩)
  refine statementOf_congr (openBlock?_congr hblocks) ?_ ?_ ?_
  · rw [← hargs]
    refine Outcome.findSome?_congr fun a ha => Argument.openKey?_congr ?_
    rintro p rfl
    exact hkeys p ha
  · rw [textOf, textOf, hparts]
  · rw [← hargs]
    refine List.filterMap_congr fun a ha => Argument.filled?_congr ?_
    rintro p rfl
    exact hkeys p ha

end Template

/-! ## Calls that store overrides -/

/-- A call that stores overrides on a template, on one of the two levels. -/
inductive OverrideCall
  | blocks (overrides : List (Key × Fragment))
  | values (overrides : List (Key × Value))

namespace OverrideCall

/-- The overrides of blocks in a call. -/
def blockPairs : OverrideCall → List (Key × Fragment)
  | .blocks overrides => overrides
  | .values _ => []

/-- The overrides of values in a call. -/
def valuePairs : OverrideCall → List (Key × Value)
  | .blocks _ => []
  | .values overrides => overrides

/-- The last override of a block in some calls. -/
def lastBlock? (calls : List OverrideCall) (key : Key) : Option Fragment :=
  Table.last? (calls.flatMap blockPairs) key

/-- The last override of a value in some calls. -/
def lastValue? (calls : List OverrideCall) (key : Key) : Option Value :=
  Table.last? (calls.flatMap valuePairs) key

/-- Of the first call and the others the others decide. -/
theorem lastBlock?_cons (c : OverrideCall) (calls : List OverrideCall) (key : Key) :
    lastBlock? (c :: calls) key = (lastBlock? calls key).or (Table.last? c.blockPairs key) :=
  Table.last?_append c.blockPairs (calls.flatMap blockPairs) key

/-- Of the first call and the others the others decide. -/
theorem lastValue?_cons (c : OverrideCall) (calls : List OverrideCall) (key : Key) :
    lastValue? (c :: calls) key = (lastValue? calls key).or (Table.last? c.valuePairs key) :=
  Table.last?_append c.valuePairs (calls.flatMap valuePairs) key

end OverrideCall

/-- The bindings with the last overrides of some calls for the keys that they do not bind. -/
def Bindings.withFallback (b : Bindings) (calls : List OverrideCall) : Bindings where
  blocks := b.blocks.withFallback (calls.flatMap OverrideCall.blockPairs)
  values := b.values.withFallback (calls.flatMap OverrideCall.valuePairs)

namespace Bindings

/-- What is bound to the key of a block wins over its last override. -/
theorem block?_withFallback (b : Bindings) (calls : List OverrideCall) (key : Key) :
    (b.withFallback calls).block? key = (b.block? key).or (OverrideCall.lastBlock? calls key) :=
  Table.get?_withFallback b.blocks _ key

/-- What is bound to the key of a value wins over its last override. -/
theorem value?_withFallback (b : Bindings) (calls : List OverrideCall) (key : Key) :
    (b.withFallback calls).value? key = (b.value? key).or (OverrideCall.lastValue? calls key) :=
  Table.get?_withFallback b.values _ key

end Bindings

namespace Template

variable {t : Template} {b : Bindings} {calls calls' : List OverrideCall}

/-- The template after a call that stores overrides. -/
def override (t : Template) : OverrideCall → Template
  | .blocks overrides => t.overrideBlocks overrides
  | .values overrides => t.overrideValues overrides

/-- The template after some calls that store overrides, one after the other. -/
def overrideAll (t : Template) (calls : List OverrideCall) : Template := calls.foldl override t

/-- What a generation comes to after some calls that store overrides. -/
def outcomeAfter (t : Template) (calls : List OverrideCall) (b : Bindings) :
    Except Error Statement := ((t.overrideAll calls).generate b).outcome

/-! ## What calls leave behind -/

/-- A call changes no segment. -/
theorem segments_override (t : Template) (c : OverrideCall) :
    (t.override c).segments = t.segments := by
  cases c <;> rfl

/-- A call stores its last override of a block. -/
theorem storedBlock?_override (t : Template) (c : OverrideCall) (key : Key) :
    (t.override c).storedBlock? key = (Table.last? c.blockPairs key).or (t.storedBlock? key) := by
  cases c with
  | blocks overrides => exact storedBlock?_overrideBlocks t overrides key
  | values overrides =>
    rw [override, OverrideCall.blockPairs, Table.last?_nil, storedBlock?_overrideValues, Option.none_or]

/-- A call stores its last override of a value. -/
theorem storedValue?_override (t : Template) (c : OverrideCall) (key : Key) :
    (t.override c).storedValue? key = (Table.last? c.valuePairs key).or (t.storedValue? key) := by
  cases c with
  | blocks overrides =>
    rw [override, OverrideCall.valuePairs, Table.last?_nil, storedValue?_overrideBlocks, Option.none_or]
  | values overrides => exact storedValue?_overrideValues t overrides key

/-- Calls change no segment. -/
theorem segments_overrideAll (t : Template) (calls : List OverrideCall) :
    (t.overrideAll calls).segments = t.segments := by
  induction calls generalizing t with
  | nil => rfl
  | cons c calls ih => exact (ih (t.override c)).trans (segments_override t c)

/-- Calls store their last override of a block. -/
theorem storedBlock?_overrideAll (t : Template) (calls : List OverrideCall) (key : Key) :
    (t.overrideAll calls).storedBlock? key =
      (OverrideCall.lastBlock? calls key).or (t.storedBlock? key) := by
  induction calls generalizing t with
  | nil => rfl
  | cons c calls ih =>
    have hrest : ((t.override c).overrideAll calls).storedBlock? key =
        (OverrideCall.lastBlock? calls key).or ((t.override c).storedBlock? key) := ih (t.override c)
    rw [storedBlock?_override, ← Option.or_assoc, ← OverrideCall.lastBlock?_cons] at hrest
    exact hrest

/-- Calls store their last override of a value. -/
theorem storedValue?_overrideAll (t : Template) (calls : List OverrideCall) (key : Key) :
    (t.overrideAll calls).storedValue? key =
      (OverrideCall.lastValue? calls key).or (t.storedValue? key) := by
  induction calls generalizing t with
  | nil => rfl
  | cons c calls ih =>
    have hrest : ((t.override c).overrideAll calls).storedValue? key =
        (OverrideCall.lastValue? calls key).or ((t.override c).storedValue? key) := ih (t.override c)
    rw [storedValue?_override, ← Option.or_assoc, ← OverrideCall.lastValue?_cons] at hrest
    exact hrest

/-- Stored overrides are found where bindings with them to fall back on have them. -/
theorem block?_overrideAll (t : Template) (calls : List OverrideCall) (b : Bindings) :
    (t.overrideAll calls).block? b = t.block? (b.withFallback calls) := by
  funext key
  rw [block?, block?, storedBlock?_overrideAll, Bindings.block?_withFallback, Option.or_assoc]

/-- The same on the level of values. -/
theorem value?_overrideAll (t : Template) (calls : List OverrideCall) (b : Bindings) :
    (t.overrideAll calls).value? b = t.value? (b.withFallback calls) := by
  funext key
  rw [value?, value?, storedValue?_overrideAll, Bindings.value?_withFallback, Option.or_assoc]

/-- A generation after some calls is one with their last overrides to fall back on. -/
theorem outcomeAfter_eq_outcome_generate (t : Template) (calls : List OverrideCall) (b : Bindings) :
    t.outcomeAfter calls b = (t.generate (b.withFallback calls)).outcome := by
  rw [outcomeAfter, outcome_generate, outcome_generate, block?_overrideAll, value?_overrideAll,
    segments_overrideAll]

/-! ## What of the calls matters -/

/-- Calls make no difference that have the same last overrides of the keys that the segments and their
parts carry, each on its level. -/
theorem outcomeAfter_congr
    (hblocks : ∀ key ∈ t.segments.flatMap Segment.blockKeys,
      OverrideCall.lastBlock? calls key = OverrideCall.lastBlock? calls' key)
    (hvalues : ∀ key ∈ (partsOf ((t.overrideAll calls).block? b) t.segments).flatMap Fragment.valueKeys,
      OverrideCall.lastValue? calls key = OverrideCall.lastValue? calls' key) :
    t.outcomeAfter calls b = t.outcomeAfter calls' b := by
  rw [outcomeAfter, outcomeAfter, outcome_generate, outcome_generate, segments_overrideAll,
    segments_overrideAll]
  refine statementOf_congr_keys ?_ ?_
  · intro key hkey
    rw [block?, block?, storedBlock?_overrideAll, storedBlock?_overrideAll, hblocks key hkey]
  · intro key hkey
    rw [value?, value?, storedValue?_overrideAll, storedValue?_overrideAll, hvalues key hkey]

/-- Neighbouring calls without common keys on either level may change places. -/
theorem outcomeAfter_swap {c d : OverrideCall}
    (hblocks : (c.blockPairs.map Prod.fst).Disjoint (d.blockPairs.map Prod.fst))
    (hvalues : (c.valuePairs.map Prod.fst).Disjoint (d.valuePairs.map Prod.fst))
    (before after : List OverrideCall) :
    t.outcomeAfter (before ++ c :: d :: after) b = t.outcomeAfter (before ++ d :: c :: after) b := by
  refine outcomeAfter_congr ?_ ?_
  · intro key _
    exact Table.last?_flatMap_swap hblocks before after key
  · intro key _
    exact Table.last?_flatMap_swap hvalues before after key

/-- Calls may be left out that override no key which the segments carry, on the level of blocks, or their
parts, on the level of values. -/
theorem outcomeAfter_omit {before after : List OverrideCall}
    (hblocks : ∀ key ∈ (calls.flatMap OverrideCall.blockPairs).map Prod.fst,
      key ∉ t.segments.flatMap Segment.blockKeys)
    (hvalues : ∀ key ∈ (calls.flatMap OverrideCall.valuePairs).map Prod.fst,
      key ∉ (partsOf ((t.overrideAll (before ++ after)).block? b) t.segments).flatMap
        Fragment.valueKeys) :
    t.outcomeAfter (before ++ calls ++ after) b = t.outcomeAfter (before ++ after) b := by
  refine (outcomeAfter_congr ?_ ?_).symm
  · intro key hkey
    have hforeign : key ∉ (calls.flatMap OverrideCall.blockPairs).map Prod.fst :=
      fun hcall => hblocks key hcall hkey
    exact (Table.last?_flatMap_omit hforeign before after).symm
  · intro key hkey
    have hforeign : key ∉ (calls.flatMap OverrideCall.valuePairs).map Prod.fst :=
      fun hcall => hvalues key hcall hkey
    exact (Table.last?_flatMap_omit hforeign before after).symm

/-- The keys of values in the parts are those of the segments and those of the fragments that stand for
blocks. -/
theorem mem_valueKeys_partsOf {blocks : Key → Option Fragment} {segments : List Segment} {key : Key}
    (h : key ∈ (partsOf blocks segments).flatMap Fragment.valueKeys) :
    key ∈ segments.flatMap Segment.valueKeys ∨
      ∃ p f, .block p ∈ segments ∧ p.filled? blocks = some f ∧ key ∈ f.valueKeys := by
  obtain ⟨f, hf, hkey⟩ := List.mem_flatMap.1 h
  obtain ⟨s, hs, hpart⟩ := List.mem_filterMap.1 hf
  cases s with
  | text sql =>
    obtain rfl := Option.some.inj hpart
    cases hkey
  | fragment g =>
    obtain rfl := Option.some.inj hpart
    exact Or.inl (List.mem_flatMap.2 ⟨.fragment g, hs, hkey⟩)
  | block p => exact Or.inr ⟨p, f, hs, hpart, hkey⟩

/-- Overrides that calls store on a template, which may have others, are found as bindings would be that
stand behind those of the call: of each key, on each level, the last override.  So calls with the same last
overrides have the same outcome; two calls that override no key in common on one level may change places;
the same overrides may be distributed over other calls; and calls that override only keys which the
template does not carry may be left out among others, unless a fragment that stands for a block carries a
placeholder with such a key. -/
theorem overrides_as_fallback (t : Template) (calls : List OverrideCall) (b : Bindings) :
    ((∀ key, (b.withFallback calls).block? key =
        (b.block? key).or (OverrideCall.lastBlock? calls key)) ∧
      ∀ key, (b.withFallback calls).value? key =
        (b.value? key).or (OverrideCall.lastValue? calls key)) ∧
    ((t.overrideAll calls).generate b).outcome = (t.generate (b.withFallback calls)).outcome ∧
    (∀ calls', (∀ key, OverrideCall.lastBlock? calls key = OverrideCall.lastBlock? calls' key) →
      (∀ key, OverrideCall.lastValue? calls key = OverrideCall.lastValue? calls' key) →
      t.outcomeAfter calls b = t.outcomeAfter calls' b) ∧
    (∀ (before after : List OverrideCall) (c d : OverrideCall),
      (c.blockPairs.map Prod.fst).Disjoint (d.blockPairs.map Prod.fst) →
      (c.valuePairs.map Prod.fst).Disjoint (d.valuePairs.map Prod.fst) →
      t.outcomeAfter (before ++ c :: d :: after) b =
        t.outcomeAfter (before ++ d :: c :: after) b) ∧
    (∀ calls', calls.flatMap OverrideCall.blockPairs = calls'.flatMap OverrideCall.blockPairs →
      calls.flatMap OverrideCall.valuePairs = calls'.flatMap OverrideCall.valuePairs →
      t.outcomeAfter calls b = t.outcomeAfter calls' b) ∧
    (∀ before after : List OverrideCall,
      (∀ key ∈ (calls.flatMap OverrideCall.blockPairs).map Prod.fst,
        key ∉ t.segments.flatMap Segment.blockKeys) →
      (∀ key ∈ (calls.flatMap OverrideCall.valuePairs).map Prod.fst,
        key ∉ t.segments.flatMap Segment.valueKeys ∧
        ∀ p f, .block p ∈ t.segments →
          p.filled? ((t.overrideAll (before ++ after)).block? b) = some f → key ∉ f.valueKeys) →
      t.outcomeAfter (before ++ calls ++ after) b = t.outcomeAfter (before ++ after) b) := by
  refine ⟨⟨b.block?_withFallback calls, b.value?_withFallback calls⟩,
    outcomeAfter_eq_outcome_generate t calls b, ?_, ?_, ?_, ?_⟩
  · intro calls' hblocks hvalues
    exact outcomeAfter_congr (fun key _ => hblocks key) (fun key _ => hvalues key)
  · intro before after c d hblocks hvalues
    exact outcomeAfter_swap hblocks hvalues before after
  · intro calls' hblocks hvalues
    refine outcomeAfter_congr ?_ ?_
    · intro key _
      rw [OverrideCall.lastBlock?, OverrideCall.lastBlock?, hblocks]
    · intro key _
      rw [OverrideCall.lastValue?, OverrideCall.lastValue?, hvalues]
  · intro before after hblocks hvalues
    refine outcomeAfter_omit hblocks ?_
    intro key hcall hkey
    obtain ⟨hsegments, hfilled⟩ := hvalues key hcall
    rcases mem_valueKeys_partsOf hkey with hkey | ⟨p, f, hp, hf, hkey⟩
    · exact hsegments hkey
    · exact hfilled p f hp hf hkey

/-- The key of a value that only a stored block carries is no key of the template, and its override has an
effect even so. -/
example :
    let t := ofSegments [.text "select * from t where ", .block (.ofKey (.name "condition"))]
    let f : Fragment := ⟨"a = ?", [.placeholder (.ofKey (.name "a"))]⟩
    let calls : List OverrideCall := [.values [(.name "a", .int 1)], .blocks [(.name "condition", f)]]
    t.outcomeAfter calls .empty = .ok ⟨"select * from t where a = ?", [.int 1]⟩ := by
  rfl

end Template

end BoundSql
