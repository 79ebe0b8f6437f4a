import BoundSql.Proofs.Template.Overrides
import BoundSql.Proofs.Text.Bytes
import BoundSql.Template.Commands
import BoundSql.Template.Reading

/-!
# Registered keys

A template that was built has in its tables the keys that its segments carry, and each call that stores
overrides adds the keys that it overrides (`Template.Registered`).  The tables stay ascending on the way, and
the entry of a key is its last override, or nothing where the key comes from a segment alone.

So the keys that a template reports are enough to bind: with all of them bound, and with the values that the
bound blocks ask for themselves, nothing is missing (`Template.registered_after`).  They are not all that a
generation may ask for when a block is left to its default.  The values that a default asks for are not
reported (`Template.unreported_in_default`), and they are the only ones (`Template.missing_reported_or_default`).
-/

namespace BoundSql

namespace Key

/-- The order of keys: all numbers in ascending order, then all names in the order of their bytes. -/
def Before : Key → Key → Prop
  | .index m, .index n => m < n
  | .index _, .name _ => True
  | .name _, .index _ => False
  | .name s, .name t => Wire.utf8 s < Wire.utf8 t

/-- Keys are compared as they are ordered. -/
theorem compare_eq_lt_iff {k l : Key} : compare k l = .lt ↔ k.Before l := by
  cases k with
  | index m =>
    cases l with
    | index n =>
      rw [compare_index, Before]
      exact Std.compare_eq_lt
    | name t => exact iff_of_true rfl trivial
  | name s =>
    cases l with
    | index n => exact iff_of_false Ordering.noConfusion id
    | name t =>
      rw [compare_name, Before, Wire.utf8_lt_utf8_iff]
      exact compareOfLessAndEq_eq_lt

end Key

/-! ## Tables of keys with and without a value -/

namespace Table

variable {κ α : Type} [Ord κ] [Std.LawfulEqOrd κ]

/-- The keys of a table after insertions. -/
theorem mem_keys_insertAll (t : Table κ α) (pairs : List (κ × α)) (key : κ) :
    key ∈ (t.insertAll pairs).keys ↔ key ∈ pairs.map Prod.fst ∨ key ∈ t.keys := by
  induction pairs generalizing t with
  | nil => simp
  | cons p pairs ih =>
    rw [insertAll_cons, ih, mem_keys_insert, List.map_cons, List.mem_cons, or_assoc]
    exact or_left_comm

variable [DecidableEq κ]

/-- In an ascending table every pair is found under its key. -/
theorem Ascending.get?_eq_some_of_mem {t : Table κ α} (h : t.Ascending) {key : κ} {a : α}
    (ha : (key, a) ∈ t) : t.get? key = some a := by
  induction t with
  | nil => cases ha
  | cons p t ih =>
    obtain ⟨hfirst, hrest⟩ := List.pairwise_cons.1 h
    rcases List.mem_cons.1 ha with rfl | ha
    · exact if_pos rfl
    · have hlt : compare p.1 key = .lt := hfirst key (List.mem_map_of_mem ha)
      have hne : p.1 ≠ key := by
        rintro rfl
        rw [Std.compare_self] at hlt
        cases hlt
      rw [get?, if_neg hne]
      exact ih hrest ha

/-- What a table is after some keys were registered and some pairs were stored: it has the keys of both, and
of each key the last pair, if there is one. -/
structure Registers (t : Table κ (Option α)) (keys : List κ) (pairs : List (κ × α)) : Prop where
  ascending : t.Ascending
  mem_keys : ∀ key, key ∈ t.keys ↔ key ∈ keys ∨ key ∈ pairs.map Prod.fst
  entry : ∀ key entry, t.get? key = some entry → entry = last? pairs key

namespace Registers

variable {t : Table κ (Option α)} {keys : List κ} {pairs : List (κ × α)}

/-- The entry of a key is its last pair. -/
theorem eq_last?_of_mem (h : t.Registers keys pairs) {key : κ} {entry : Option α}
    (hentry : (key, entry) ∈ t) : entry = last? pairs key :=
  h.entry key entry (h.ascending.get?_eq_some_of_mem hentry)

/-- An entry has a value when a pair was stored for its key. -/
theorem isSome_entry_iff (h : t.Registers keys pairs) {key : κ} {entry : Option α}
    (hentry : (key, entry) ∈ t) : entry.isSome ↔ key ∈ pairs.map Prod.fst := by
  rw [h.eq_last?_of_mem hentry, Option.isSome_iff_ne_none, Ne, last?_eq_none_iff, not_not]

variable [Std.TransOrd κ]

/-- A table in which keys were registered has nothing stored. -/
theorem ofKeys (keys : List κ) :
    (ofPairs (keys.map fun k => (k, (none : Option α)))).Registers keys [] where
  ascending := ascending_ofPairs _
  mem_keys key := by simp [ofPairs, mem_keys_insertAll]
  entry key entry h := by
    have hnone := join_get?_insertAll_none (t := (empty : Table κ (Option α))) (fun _ => rfl) keys key
    rw [ofPairs] at h
    rw [h] at hnone
    exact hnone

/-- What is stored next comes after what was stored before. -/
theorem insertAll (h : t.Registers keys pairs) (more : List (κ × α)) :
    (t.insertAll (more.map fun p => (p.1, some p.2))).Registers keys (pairs ++ more) where
  ascending := h.ascending.insertAll _
  mem_keys key := by
    have hkeys : (more.map fun p => (p.1, some p.2)).map Prod.fst = more.map Prod.fst := by
      rw [List.map_map]
      rfl
    rw [mem_keys_insertAll, hkeys, h.mem_keys, List.map_append, List.mem_append]
    tauto
  entry key entry hentry := by
    rw [get?_insertAll, last?_map] at hentry
    rw [last?_append]
    cases hlast : last? more key with
    | some a =>
      rw [hlast] at hentry
      exact (Option.some.inj hentry).symm
    | none =>
      rw [hlast] at hentry
      exact h.entry key entry hentry

end Registers

end Table

/-! ## Templates -/

namespace Template

/-- The templates that a constructor of the library gives, before any override. -/
inductive Built : Template → Prop
  | segments (segments : List Segment) : Built (ofSegments segments)
  | json {j : Json} {t : Template} (h : ofJson j = .ok t) : Built t
  | empty : Built empty
  | insert (table : Segment) (fields : List (String × Segment)) (output : Option String) :
      Built (insert table fields output)
  | update (table : Segment) (fields : List (String × Segment)) (condition : Segment) :
      Built (update table fields condition)
  | delete (table condition : Segment) (single : Bool) : Built (delete table condition single)
  | select (s : Selection) : Built s.build

/-- A template that was built is that of its segments. -/
theorem Built.eq_ofSegments {t : Template} (h : t.Built) : t = ofSegments t.segments := by
  cases h with
  | @json j t h =>
    cases j with
    | array elements =>
      obtain ⟨segments, -, rfl⟩ := Outcome.map_eq_ok_iff.1 h
      rfl
    | _ => cases h
  | _ => rfl

/-- What a template is that was built of some segments and on which some calls stored overrides. -/
structure Registered (segments : List Segment) (calls : List OverrideCall) (t : Template) : Prop where
  segments_eq : t.segments = segments
  blocks : t.blocks.Registers (segments.flatMap Segment.blockKeys)
    (calls.flatMap OverrideCall.blockPairs)
  values : t.values.Registers (segments.flatMap Segment.valueKeys)
    (calls.flatMap OverrideCall.valuePairs)

/-- A call stores its overrides of blocks. -/
theorem blocks_override (t : Template) (c : OverrideCall) :
    (t.override c).blocks = t.blocks.insertAll (c.blockPairs.map fun p => (p.1, some p.2)) := by
  cases c <;> rfl

/-- A call stores its overrides of values. -/
theorem values_override (t : Template) (c : OverrideCall) :
    (t.override c).values = t.values.insertAll (c.valuePairs.map fun p => (p.1, some p.2)) := by
  cases c <;> rfl

namespace Registered

variable {segments : List Segment} {calls : List OverrideCall} {t : Template}

/-- Before any call the keys of the segments are registered. -/
theorem ofSegments (segments : List Segment) :
    Registered segments [] (Template.ofSegments segments) :=
  ⟨rfl, Table.Registers.ofKeys _, Table.Registers.ofKeys _⟩

/-- A call adds what it overrides. -/
theorem override (h : Registered segments calls t) (c : OverrideCall) :
    Registered segments (calls ++ [c]) (t.override c) where
  segments_eq := (segments_override t c).trans h.segments_eq
  blocks := by
    rw [blocks_override, List.flatMap_append, List.flatMap_singleton]
    exact h.blocks.insertAll c.blockPairs
  values := by
    rw [values_override, List.flatMap_append, List.flatMap_singleton]
    exact h.values.insertAll c.valuePairs

/-- Calls add what they override. -/
theorem overrideAll (h : Registered segments calls t) (more : List OverrideCall) :
    Registered segments (calls ++ more) (t.overrideAll more) := by
  induction more generalizing calls t with
  | nil =>
    rw [List.append_nil]
    exact h
  | cons c more ih =>
    have hrest := ih (h.override c)
    rw [List.append_assoc, List.singleton_append] at hrest
    exact hrest

end Registered

/-- Calls on a template that was built register the keys of its segments and store their overrides. -/
theorem Built.registered {t : Template} (h : t.Built) (calls : List OverrideCall) :
    Registered t.segments calls (t.overrideAll calls) := by
  have hstart : Registered t.segments [] t := by
    rw [h.eq_ofSegments]
    exact .ofSegments t.segments
  exact hstart.overrideAll calls

/-! ## Missing keys -/

variable {blocks : Key → Option Fragment} {values : Key → Option Value} {t : Template} {b : Bindings}

/-- A missing block is one of the segments that nothing stands for. -/
theorem exists_of_openBlock?_eq_some {segments : List Segment} {key : Key}
    (h : openBlock? blocks segments = some key) :
    ∃ p, .block p ∈ segments ∧ p.key = key ∧ p.filled? blocks = none := by
  obtain ⟨s, hs, hopen⟩ := List.exists_of_findSome?_eq_some h
  cases s with
  | block p =>
    obtain ⟨hp, rfl⟩ := Placeholder.openKey?_eq_some_iff.1 hopen
    exact ⟨p, hs, rfl, hp⟩
  | _ => cases hopen

/-- A missing value is one of the arguments that nothing stands for. -/
theorem exists_of_openValue?_eq_some {args : List Argument} {key : Key}
    (h : openValue? values args = some key) :
    ∃ p, .placeholder p ∈ args ∧ p.key = key ∧ p.filled? values = none := by
  obtain ⟨a, ha, hopen⟩ := List.exists_of_findSome?_eq_some h
  cases a with
  | placeholder p =>
    obtain ⟨hp, rfl⟩ := Placeholder.openKey?_eq_some_iff.1 hopen
    exact ⟨p, ha, rfl, hp⟩
  | _ => cases hopen

/-- What is missing is an open block, or an open value among the arguments of the parts. -/
theorem open_of_statementOf_eq_missing {segments : List Segment} {level : Level} {key : Key}
    (h : statementOf blocks values segments = .error (.missing level key)) :
    (level = .block ∧ openBlock? blocks segments = some key) ∨
      (level = .value ∧ openValue? values (argsOf blocks segments) = some key) := by
  cases hblock : openBlock? blocks segments with
  | some k =>
    simp only [statementOf, hblock, Except.error.injEq, Error.missing.injEq] at h
    obtain ⟨rfl, rfl⟩ := h
    exact Or.inl ⟨rfl, rfl⟩
  | none =>
    cases hvalue : openValue? values (argsOf blocks segments) with
    | some k =>
      simp only [statementOf, hblock, hvalue, Except.error.injEq, Error.missing.injEq] at h
      obtain ⟨rfl, rfl⟩ := h
      exact Or.inr ⟨rfl, rfl⟩
    | none =>
      simp only [statementOf, hblock, hvalue] at h
      split at h <;> cases h

/-- Nothing is bound to a missing block, which is one of the segments. -/
theorem of_missing_block {key : Key} (h : (t.generate b).outcome = .error (.missing .block key)) :
    t.block? b key = none ∧ key ∈ t.segments.flatMap Segment.blockKeys := by
  rw [outcome_generate] at h
  rcases open_of_statementOf_eq_missing h with ⟨-, hopen⟩ | ⟨hlevel, -⟩
  · obtain ⟨p, hp, rfl, hnone⟩ := exists_of_openBlock?_eq_some hopen
    refine ⟨(Option.or_eq_none_iff.1 hnone).1, ?_⟩
    exact List.mem_flatMap.2 ⟨.block p, hp, List.mem_cons_self⟩
  · cases hlevel

/-- Nothing is bound to a missing value, which is one of the segments or of a fragment that stands for a
block. -/
theorem of_missing_value {key : Key} (h : (t.generate b).outcome = .error (.missing .value key)) :
    t.value? b key = none ∧
      (key ∈ t.segments.flatMap Segment.valueKeys ∨
        ∃ p f, .block p ∈ t.segments ∧ p.filled? (t.block? b) = some f ∧ key ∈ f.valueKeys) := by
  rw [outcome_generate] at h
  rcases open_of_statementOf_eq_missing h with ⟨hlevel, -⟩ | ⟨-, hopen⟩
  · cases hlevel
  · obtain ⟨p, hp, rfl, hnone⟩ := exists_of_openValue?_eq_some hopen
    obtain ⟨f, hf, hpf⟩ := List.mem_flatMap.1 hp
    refine ⟨(Option.or_eq_none_iff.1 hnone).1, mem_valueKeys_partsOf ?_⟩
    exact List.mem_flatMap.2 ⟨f, hf, Fragment.key_mem_valueKeys hpf⟩

/-! ## Reported keys -/

/-- The keys of the blocks among some segments. -/
theorem mem_blockKeys_iff {segments : List Segment} {key : Key} :
    key ∈ segments.flatMap Segment.blockKeys ↔ ∃ p, .block p ∈ segments ∧ p.key = key := by
  rw [List.mem_flatMap]
  constructor
  · rintro ⟨s, hs, hkey⟩
    cases s with
    | block p => exact ⟨p, hs, (List.mem_singleton.1 hkey).symm⟩
    | _ => cases hkey
  · rintro ⟨p, hp, rfl⟩
    exact ⟨.block p, hp, List.mem_cons_self⟩

/-- The keys of the values that some segments leave open. -/
theorem mem_valueKeys_iff {segments : List Segment} {key : Key} :
    key ∈ segments.flatMap Segment.valueKeys ↔
      ∃ f p, .fragment f ∈ segments ∧ .placeholder p ∈ f.args ∧ p.key = key := by
  rw [List.mem_flatMap]
  constructor
  · rintro ⟨s, hs, hkey⟩
    cases s with
    | fragment f =>
      obtain ⟨p, hp, hpk⟩ := Fragment.mem_valueKeys_iff.1 hkey
      exact ⟨f, p, hs, hp, hpk⟩
    | _ => cases hkey
  · rintro ⟨f, p, hf, hp, rfl⟩
    exact ⟨.fragment f, hf, Fragment.key_mem_valueKeys hp⟩

/-- The keys of a table are reported in ascending order. -/
theorem pairwise_before_of_ascending {α : Type} {table : Table Key α} (h : table.Ascending) :
    table.keys.Pairwise Key.Before :=
  h.imp Key.compare_eq_lt_iff.1

namespace Registered

variable {segments : List Segment} {calls : List OverrideCall}

/-- The keys of the blocks that the segments carry are reported. -/
theorem mem_blockKeys (h : Registered segments calls t) {key : Key}
    (hkey : key ∈ t.segments.flatMap Segment.blockKeys) : key ∈ t.blockKeys := by
  rw [h.segments_eq] at hkey
  exact (h.blocks.mem_keys key).2 (Or.inl hkey)

/-- The keys of the values that the segments leave open are reported. -/
theorem mem_valueKeys (h : Registered segments calls t) {key : Key}
    (hkey : key ∈ t.segments.flatMap Segment.valueKeys) : key ∈ t.valueKeys := by
  rw [h.segments_eq] at hkey
  exact (h.values.mem_keys key).2 (Or.inl hkey)

/-- Nothing is missing when all reported keys are bound, and on the level of values also those of the
fragments that are bound to reported keys of blocks. -/
theorem not_missing (h : Registered segments calls t)
    (hblocks : ∀ key ∈ t.blockKeys, (b.block? key).isSome)
    (hvalues : ∀ key ∈ t.valueKeys, (b.value? key).isSome)
    (hsupplied : ∀ key ∈ t.blockKeys, ∀ f, b.block? key = some f →
      ∀ p, .placeholder p ∈ f.args → (b.value? p.key).isSome)
    (level : Level) (key : Key) : (t.generate b).outcome ≠ .error (.missing level key) := by
  -- The bound fragment of a block shadows what is stored and the default.
  have hfilled : ∀ p f, .block p ∈ t.segments → p.filled? (t.block? b) = some f →
      p.key ∈ t.blockKeys ∧ b.block? p.key = some f := by
    intro p f hp hf
    have hkey : p.key ∈ t.blockKeys := h.mem_blockKeys (mem_blockKeys_iff.2 ⟨p, hp, rfl⟩)
    obtain ⟨g, hg⟩ := Option.isSome_iff_exists.1 (hblocks p.key hkey)
    rw [Placeholder.filled?, block?, hg, Option.some_or, Option.some_or] at hf
    exact ⟨hkey, hg.trans hf⟩
  intro hmissing
  cases level with
  | block =>
    obtain ⟨hnone, hkey⟩ := of_missing_block hmissing
    have hbound := hblocks key (h.mem_blockKeys hkey)
    rw [(Option.or_eq_none_iff.1 hnone).1] at hbound
    cases hbound
  | value =>
    obtain ⟨hnone, hkey⟩ := of_missing_value hmissing
    have hbound : (b.value? key).isSome := by
      rcases hkey with hkey | ⟨p, f, hp, hf, hkey⟩
      · exact hvalues key (h.mem_valueKeys hkey)
      · obtain ⟨hpk, hbf⟩ := hfilled p f hp hf
        obtain ⟨q, hq, rfl⟩ := Fragment.mem_valueKeys_iff.1 hkey
        exact hsupplied p.key hpk f hbf q hq
    rw [(Option.or_eq_none_iff.1 hnone).1] at hbound
    cases hbound

end Registered

/-- After any calls that store overrides, a template that was built has the segments that it was built with.
Its keys ascend on both levels, and they are those that the segments carry and those that were overridden.
An entry has a value if and only if its key was overridden, and then the last one.  So it is enough to bind
all reported keys, and the values that the fragments bound to them ask for: nothing is missing then. -/
theorem registered_after {t : Template} (ht : t.Built) (calls : List OverrideCall) :
    (t.overrideAll calls).segments = t.segments ∧
    (t.overrideAll calls).blockKeys.Pairwise Key.Before ∧
    (t.overrideAll calls).valueKeys.Pairwise Key.Before ∧
    (∀ key, key ∈ (t.overrideAll calls).blockKeys ↔
      (∃ p, .block p ∈ t.segments ∧ p.key = key) ∨
        key ∈ (calls.flatMap OverrideCall.blockPairs).map Prod.fst) ∧
    (∀ key, key ∈ (t.overrideAll calls).valueKeys ↔
      (∃ f p, .fragment f ∈ t.segments ∧ .placeholder p ∈ f.args ∧ p.key = key) ∨
        key ∈ (calls.flatMap OverrideCall.valuePairs).map Prod.fst) ∧
    (∀ key entry, (key, entry) ∈ (t.overrideAll calls).blocks →
      (entry.isSome ↔ key ∈ (calls.flatMap OverrideCall.blockPairs).map Prod.fst) ∧
        entry = OverrideCall.lastBlock? calls key) ∧
    (∀ key entry, (key, entry) ∈ (t.overrideAll calls).values →
      (entry.isSome ↔ key ∈ (calls.flatMap OverrideCall.valuePairs).map Prod.fst) ∧
        entry = OverrideCall.lastValue? calls key) ∧
    ∀ b : Bindings,
      (∀ key ∈ (t.overrideAll calls).blockKeys, (b.block? key).isSome) →
      (∀ key ∈ (t.overrideAll calls).valueKeys, (b.value? key).isSome) →
      (∀ key ∈ (t.overrideAll calls).blockKeys, ∀ f, b.block? key = some f →
        ∀ p, .placeholder p ∈ f.args → (b.value? p.key).isSome) →
      ∀ level key, ((t.overrideAll calls).generate b).outcome ≠ .error (.missing level key) := by
  have h : Registered t.segments calls (t.overrideAll calls) := ht.registered calls
  refine ⟨h.segments_eq, pairwise_before_of_ascending h.blocks.ascending,
    pairwise_before_of_ascending h.values.ascending, ?_, ?_, ?_, ?_, ?_⟩
  · intro key
    rw [← mem_blockKeys_iff]
    exact h.blocks.mem_keys key
  · intro key
    rw [← mem_valueKeys_iff]
    exact h.values.mem_keys key
  · intro key entry hentry
    exact ⟨h.blocks.isSome_entry_iff hentry, h.blocks.eq_last?_of_mem hentry⟩
  · intro key entry hentry
    exact ⟨h.values.isSome_entry_iff hentry, h.values.eq_last?_of_mem hentry⟩
  · intro b hblocks hvalues hsupplied
    exact h.not_missing hblocks hvalues hsupplied

/-- A template with one key on both levels and numbers that are not ordered as their texts are, after an
override of a key that it does not carry and two of one that it does. -/
theorem registered_after_of_query :
    let k : Key := .name "k"
    let t := ofSegments [.text "select * from t ", .block (.ofKey k),
      .fragment ⟨" and a = ? and b = ?", [.placeholder (.ofKey k), .placeholder (.ofKey (.index 10))]⟩,
      .fragment ⟨" and c = ? and d = ?", [.placeholder (.ofKey (.index 9)), .placeholder (.ofKey k)]⟩]
    let u := t.overrideAll [.values [(.name "é", .int 0), (k, .int 1)], .values [(k, .int 2)]]
    let f : Fragment := ⟨"where e = ?", [.placeholder (.ofKey (.name "e"))]⟩
    let b : Bindings := ⟨.ofPairs [(k, f)],
      .ofPairs ([.index 9, .index 10, .name "e", k, .name "é"].map fun key => (key, .int 7))⟩
    t.Built ∧
      u.valueKeys = [.index 9, .index 10, k, .name "é"] ∧
      u.valueKeys.Pairwise Key.Before ∧
      ((k, some (.int 2)) ∈ u.values ∧ (Key.index 9, none) ∈ u.values) ∧
      ∀ level key, (u.generate b).outcome ≠ .error (.missing level key) := by
  intro k t u f b
  have ht : t.Built := .segments _
  have hkeys : u.valueKeys = [.index 9, .index 10, k, .name "é"] := by decide
  obtain ⟨-, -, hascending, -, -, -, -, hbound⟩ :=
    registered_after ht [.values [(.name "é", .int 0), (k, .int 1)], .values [(k, .int 2)]]
  refine ⟨ht, hkeys, hascending, by decide, hbound b (by decide) (by decide) ?_⟩
  intro key hkey g hg p hp
  have hblocks : u.blockKeys = [k] := by decide
  rw [hblocks, List.mem_singleton] at hkey
  subst hkey
  obtain rfl := Option.some.inj hg
  obtain rfl := Argument.placeholder.inj (List.mem_singleton.1 hp)
  decide

/-- The value that the default of a block asks for may be missing, and the template does not report it. -/
theorem unreported_in_default :
    let p := (Placeholder.ofKey (.name "w")).withDefault
      (⟨"where id = ?", [.placeholder (.ofKey (.name "id"))]⟩ : Fragment)
    let t := ofSegments [.text "select 1 ", .block p]
    t.Built ∧ (∀ key, Bindings.empty.block? key = none) ∧
      (t.generate .empty).outcome = .error (.missing .value (.name "id")) ∧
      .name "id" ∉ t.valueKeys := by
  refine ⟨.segments _, fun _ => rfl, rfl, ?_⟩
  decide

/-- When no block is bound, a template that was just built reports the blocks that may be missing.  It reports
the values as well, apart from those that the defaults of its blocks ask for. -/
theorem missing_reported_or_default {t : Template} (ht : t.Built) {b : Bindings}
    (hb : ∀ key, b.block? key = none) {level : Level} {key : Key}
    (h : (t.generate b).outcome = .error (.missing level key)) :
    (level = .block → key ∈ t.blockKeys) ∧
    (level = .value → key ∈ t.valueKeys ∨
      ∃ p f q, .block p ∈ t.segments ∧ p.default? = some f ∧ .placeholder q ∈ f.args ∧ q.key = key) := by
  have hregistered : Registered t.segments [] t := ht.registered []
  constructor
  · rintro rfl
    exact hregistered.mem_blockKeys (of_missing_block h).2
  · rintro rfl
    obtain ⟨-, hkey⟩ := of_missing_value h
    refine hkey.imp hregistered.mem_valueKeys ?_
    rintro ⟨p, f, hp, hf, hkey⟩
    have hstored : t.storedBlock? p.key = none := by
      rw [ht.eq_ofSegments, storedBlock?_ofSegments]
    have hdefault : p.default? = some f := by
      rw [Placeholder.filled?, block?, hb, hstored, Option.none_or, Option.none_or] at hf
      exact hf
    obtain ⟨q, hq, hqk⟩ := Fragment.mem_valueKeys_iff.1 hkey
    exact ⟨p, f, q, hp, hdefault, hq, hqk⟩

/-- With one value asked for by a default and one by a segment, the first may be missing, and where it is bound
the second. -/
theorem missing_reported_or_default_of_query :
    let f : Fragment := ⟨"where id = ?", [.placeholder (.ofKey (.name "id"))]⟩
    let t := ofSegments [.block ((Placeholder.ofKey (.name "w")).withDefault f),
      .fragment ⟨" limit ?", [.placeholder (.ofKey (.name "n"))]⟩]
    let b := Bindings.empty.bindValue (.name "id") (.int 7)
    (t.Built ∧ (∀ key, b.block? key = none) ∧
      (t.generate .empty).outcome = .error (.missing .value (.name "id")) ∧
      (t.generate b).outcome = .error (.missing .value (.name "n"))) ∧
    (Key.name "id" ∈ t.valueKeys ∨ ∃ p f q, .block p ∈ t.segments ∧ p.default? = some f ∧
      .placeholder q ∈ f.args ∧ q.key = Key.name "id") ∧
    (Key.name "n" ∈ t.valueKeys ∨ ∃ p f q, .block p ∈ t.segments ∧ p.default? = some f ∧
      .placeholder q ∈ f.args ∧ q.key = Key.name "n") := by
  intro f t b
  have ht : t.Built := .segments _
  have hid : (t.generate .empty).outcome = .error (.missing .value (.name "id")) := rfl
  have hn : (t.generate b).outcome = .error (.missing .value (.name "n")) := rfl
  have hb : ∀ key, b.block? key = none := fun _ => rfl
  obtain ⟨-, hfirst⟩ := missing_reported_or_default ht (fun _ => rfl) hid
  obtain ⟨-, hsecond⟩ := missing_reported_or_default ht hb hn
  exact ⟨⟨ht, hb, hid, hn⟩, hfirst rfl, hsecond rfl⟩

end Template

end BoundSql
