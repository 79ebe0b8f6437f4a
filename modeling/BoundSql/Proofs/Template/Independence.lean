import BoundSql.Proofs.Template.Phases

/-!
# The text of a statement does not depend on values

Values are looked up after all segments are joined, so the bindings of values have no part in the text.
With the same blocks a template is assembled to the same fragment (`Template.assemble_congr`), and what
comes of a fragment when its placeholders are filled is limited by the fragment alone
(`Template.fillsTo_fillWith`): its own text with one value for each argument, a value that is missing, or
a mismatch between its own numbers of marks and arguments.

More bindings of values never make a generation fail (`Template.outcome_generate_bindValues`), and they
change only the values of the placeholders that carry their keys.
-/

namespace BoundSql

namespace Bindings

/-- The bindings in which keys stand for values, bound one after the other. -/
def bindValues (b : Bindings) (pairs : List (Key × Value)) : Bindings :=
  pairs.foldl (fun b p => b.bindValue p.1 p.2) b

/-- Binding values changes no block. -/
@[simp] theorem block?_bindValues (b : Bindings) (pairs : List (Key × Value)) (key : Key) :
    (b.bindValues pairs).block? key = b.block? key := by
  induction pairs generalizing b with
  | nil => rfl
  | cons p pairs ih => exact ih (b.bindValue p.1 p.2)

/-- Binding values changes nothing under other keys. -/
theorem value?_bindValues_of_not_mem (b : Bindings) {pairs : List (Key × Value)} {key : Key}
    (h : key ∉ pairs.map Prod.fst) : (b.bindValues pairs).value? key = b.value? key := by
  induction pairs generalizing b with
  | nil => rfl
  | cons p pairs ih =>
    rw [List.map_cons, List.mem_cons, not_or] at h
    have hrest : ((b.bindValue p.1 p.2).bindValues pairs).value? key =
        (b.bindValue p.1 p.2).value? key := ih _ h.2
    rw [value?_bindValue, if_neg (Ne.symm h.1)] at hrest
    exact hrest

/-- What is bound stays bound when more values are. -/
theorem isSome_value?_bindValues {b : Bindings} {key : Key} (h : (b.value? key).isSome)
    (pairs : List (Key × Value)) : ((b.bindValues pairs).value? key).isSome := by
  induction pairs generalizing b with
  | nil => exact h
  | cons p pairs ih =>
    refine ih (b := b.bindValue p.1 p.2) ?_
    rw [value?_bindValue]
    by_cases hkey : p.1 = key
    · rw [if_pos hkey]
      rfl
    · rwa [if_neg hkey]

end Bindings

/-! ## Filling one fragment with different values -/

namespace Argument

variable {values values' : Key → Option Value}

/-- An argument has a value when its key is not open. -/
theorem openKey?_eq_none_iff {a : Argument} :
    a.openKey? values = none ↔ ∃ v, a.filled? values = some v := by
  cases a with
  | value v => simp [openKey?, filled?]
  | placeholder p => exact Placeholder.openKey?_eq_none_iff

/-- What has a value keeps having one when more values are found. -/
theorem openKey?_eq_none_of_bound (hle : ∀ key, (values key).isSome → (values' key).isSome)
    {a : Argument} (h : a.openKey? values = none) : a.openKey? values' = none := by
  rw [openKey?_eq_none_iff, ← Option.isSome_iff_exists] at h ⊢
  cases a with
  | value v => rfl
  | placeholder p =>
    simp only [filled?, Placeholder.filled?, Option.isSome_or, Bool.or_eq_true] at h ⊢
    exact h.imp_left (hle p.key)

end Argument

namespace Fragment

/-- What filling the placeholders of a fragment may come to, whatever is found under their keys. -/
inductive FillsTo (f : Fragment) : Except Error Statement → Prop
  | statement {values : List Value} (hvalues : values.length = f.args.length)
      (hmarks : markCount f.text = f.args.length) : FillsTo f (.ok ⟨f.text, values⟩)
  | missing (key : Key) : FillsTo f (.error (.missing .value key))
  | mismatch (hmarks : markCount f.text ≠ f.args.length) :
      FillsTo f (.error (.countMismatch (markCount f.text) f.args.length))

/-- A statement that comes of a fragment has its text. -/
theorem FillsTo.sql_eq {f : Fragment} {s : Statement} (h : f.FillsTo (.ok s)) : s.sql = f.text := by
  cases h
  rfl

/-- No count fails for a fragment that a statement can come of. -/
theorem FillsTo.not_mismatch {f : Fragment} {s : Statement} {marks values : Nat}
    (h : f.FillsTo (.ok s)) : ¬ f.FillsTo (.error (.countMismatch marks values)) := by
  intro hmismatch
  cases h with
  | statement hvalues hmarks =>
    cases hmismatch with
    | mismatch hne => exact hne hmarks

end Fragment

namespace Template

variable {values values' : Key → Option Value}

/-- The value in a place is that of the argument in this place. -/
theorem getElem?_valuesOf {args : List Argument} (h : openValue? values args = none) (i : Nat) :
    (valuesOf values args)[i]? = args[i]?.bind (Argument.filled? values) := by
  have hplace := congrArg (·[i]?) (map_filled?_of_openValue? h)
  simp only [List.getElem?_map] at hplace
  cases ha : args[i]? with
  | none =>
    rw [ha] at hplace
    exact Option.map_eq_none_iff.1 hplace.symm
  | some a =>
    rw [ha] at hplace
    obtain ⟨v, hv, ha'⟩ := Option.map_eq_some_iff.1 hplace.symm
    rw [hv]
    exact ha'

/-- Filling a fragment comes to one of three ends that the fragment alone allows. -/
theorem fillsTo_fillWith (f : Fragment) (values : Key → Option Value) :
    f.FillsTo (f.fillWith values).outcome := by
  rw [outcome_fillWith]
  cases hopen : openValue? values f.args with
  | some key => exact .missing key
  | none =>
    have hlength := length_valuesOf hopen
    unfold Statement.checked
    rw [hlength]
    by_cases hmarks : markCount f.text = f.args.length
    · rw [if_pos hmarks]
      exact .statement hlength hmarks
    · rw [if_neg hmarks]
      exact .mismatch hmarks

/-- A fragment that can be filled can be filled with more values found, and the values differ only where
something else is found under the key of a placeholder. -/
theorem outcome_fillWith_of_bound {f : Fragment} {s : Statement}
    (hle : ∀ key, (values key).isSome → (values' key).isSome)
    (h : (f.fillWith values).outcome = .ok s) :
    ∃ s', (f.fillWith values').outcome = .ok s' ∧ s'.sql = s.sql ∧
      s'.values.length = s.values.length ∧
      ∀ i : Nat, (∀ p, f.args[i]? = some (.placeholder p) → values' p.key = values p.key) →
        s'.values[i]? = s.values[i]? := by
  obtain ⟨hopen, hmarks, rfl⟩ := outcome_fillWith_eq_ok_iff.1 h
  have hopen' : openValue? values' f.args = none := by
    rw [openValue?, List.findSome?_eq_none_iff] at hopen ⊢
    exact fun a ha => Argument.openKey?_eq_none_of_bound hle (hopen a ha)
  refine ⟨⟨f.text, valuesOf values' f.args⟩, ?_, rfl, ?_, ?_⟩
  · exact outcome_fillWith_eq_ok_iff.2 ⟨hopen', hmarks, rfl⟩
  · rw [length_valuesOf hopen', length_valuesOf hopen]
  · intro i hi
    change (valuesOf values' f.args)[i]? = (valuesOf values f.args)[i]?
    rw [getElem?_valuesOf hopen', getElem?_valuesOf hopen]
    cases ha : f.args[i]? with
    | none => rfl
    | some a =>
      cases a with
      | value v => rfl
      | placeholder p =>
        change (values' p.key).or p.default? = (values p.key).or p.default?
        rw [hi p ha]

/-! ## Generating with different values -/

variable {t : Template} {b b' : Bindings}

/-- Only the blocks of bindings have a part in assembling. -/
theorem assemble_congr (h : ∀ key, b.block? key = b'.block? key) : t.assemble b = t.assemble b' := by
  have hblocks : t.block? b = t.block? b' := by
    funext key
    rw [block?, block?, h key]
  rw [assemble, assemble, hblocks]

/-- Assembling fails for a missing block or gives a fragment. -/
theorem outcome_assemble_cases (t : Template) (b : Bindings) :
    (∃ key, (t.assemble b).outcome = .error (.missing .block key)) ∨
      ∃ f, (t.assemble b).outcome = .ok f := by
  rw [outcome_assemble]
  cases openBlock? (t.block? b) t.segments with
  | some key => exact Or.inl ⟨key, rfl⟩
  | none => exact Or.inr ⟨_, rfl⟩

/-- What is not assembled is not generated. -/
theorem outcome_generate_of_assemble_error {e : Error} (h : (t.assemble b).outcome = .error e) :
    (t.generate b).outcome = .error e := by
  rw [outcome_generate_eq_bind, h]
  rfl

/-- What is assembled is generated by filling it. -/
theorem outcome_generate_of_assemble {f : Fragment} (h : (t.assemble b).outcome = .ok f) :
    (t.generate b).outcome = (f.fillWith (t.value? b)).outcome := by
  rw [outcome_generate_eq_bind, h]
  rfl

/-- Under the same blocks either a block is missing, or one fragment is assembled and both statements are
what comes of filling it. -/
theorem generate_cases_of_blocks (h : ∀ key, b.block? key = b'.block? key) :
    (∃ key, (t.generate b).outcome = .error (.missing .block key) ∧
      (t.generate b').outcome = .error (.missing .block key)) ∨
    ∃ f, (t.assemble b).outcome = .ok f ∧ (t.assemble b').outcome = .ok f ∧
      f.FillsTo (t.generate b).outcome ∧ f.FillsTo (t.generate b').outcome := by
  have hassemble := assemble_congr (t := t) h
  rcases outcome_assemble_cases t b with ⟨key, hkey⟩ | ⟨f, hf⟩
  · have hkey' := hkey
    rw [hassemble] at hkey'
    exact Or.inl ⟨key, outcome_generate_of_assemble_error hkey,
      outcome_generate_of_assemble_error hkey'⟩
  · have hf' := hf
    rw [hassemble] at hf'
    refine Or.inr ⟨f, hf, hf', ?_, ?_⟩
    · rw [outcome_generate_of_assemble hf]
      exact fillsTo_fillWith f (t.value? b)
    · rw [outcome_generate_of_assemble hf']
      exact fillsTo_fillWith f (t.value? b')

/-- Two statements under the same blocks have one text. -/
theorem sql_eq_of_blocks {s s' : Statement} (h : ∀ key, b.block? key = b'.block? key)
    (hs : (t.generate b).outcome = .ok s) (hs' : (t.generate b').outcome = .ok s') :
    s.sql = s'.sql := by
  have hcases := generate_cases_of_blocks (t := t) h
  rw [hs, hs'] at hcases
  rcases hcases with ⟨key, hkey, -⟩ | ⟨f, -, -, hfills, hfills'⟩
  · cases hkey
  · rw [hfills.sql_eq, hfills'.sql_eq]

/-- Where a statement is generated, no count fails under the same blocks. -/
theorem outcome_ne_countMismatch_of_blocks {s : Statement} (h : ∀ key, b.block? key = b'.block? key)
    (hs : (t.generate b).outcome = .ok s) (marks values : Nat) :
    (t.generate b').outcome ≠ .error (.countMismatch marks values) := by
  intro hs'
  have hcases := generate_cases_of_blocks (t := t) h
  rw [hs, hs'] at hcases
  rcases hcases with ⟨key, hkey, -⟩ | ⟨f, -, -, hfills, hfills'⟩
  · cases hkey
  · exact hfills.not_mismatch hfills'

/-- A statement is generated from the fragment that is assembled, and has its text. -/
theorem exists_assemble_of_outcome_generate {s : Statement} (h : (t.generate b).outcome = .ok s) :
    ∃ f, (t.assemble b).outcome = .ok f ∧ (f.fillWith (t.value? b)).outcome = .ok s := by
  rw [outcome_generate_eq_bind] at h
  exact Outcome.bind_eq_ok_iff.1 h

/-- More values never make a generation fail, and change only the values of placeholders with their
keys. -/
theorem outcome_generate_bindValues {s : Statement} (h : (t.generate b).outcome = .ok s)
    (pairs : List (Key × Value)) :
    ∃ f s', (t.assemble b).outcome = .ok f ∧ (t.generate (b.bindValues pairs)).outcome = .ok s' ∧
      s'.sql = s.sql ∧ s'.values.length = s.values.length ∧
      ∀ i : Nat, (∀ p, f.args[i]? = some (.placeholder p) → p.key ∉ pairs.map Prod.fst) →
        s'.values[i]? = s.values[i]? := by
  obtain ⟨f, hf, hs⟩ := exists_assemble_of_outcome_generate h
  have hle : ∀ key, (t.value? b key).isSome → (t.value? (b.bindValues pairs) key).isSome := by
    intro key hkey
    simp only [value?, Option.isSome_or, Bool.or_eq_true] at hkey ⊢
    exact hkey.imp_left fun hb => Bindings.isSome_value?_bindValues hb pairs
  obtain ⟨s', hs', hsql, hlength, hvalues⟩ := outcome_fillWith_of_bound hle hs
  have hf' : (t.assemble (b.bindValues pairs)).outcome = .ok f := by
    rw [assemble_congr (b.block?_bindValues pairs), hf]
  refine ⟨f, s', hf, ?_, hsql, hlength, ?_⟩
  · rw [outcome_generate_of_assemble hf', hs']
  · intro i hi
    refine hvalues i fun p hp => ?_
    rw [value?, value?, Bindings.value?_bindValues_of_not_mem b (hi p hp)]

/-- Two bindings with the same blocks fail for the same block, or they generate from one fragment, each
a statement with its text, an error for a missing value, or an error with its numbers of marks and
arguments.  So two statements have one text, and no count fails for one of them while the other is
generated.  Values that are bound in addition keep a statement and its text, and change its values only in
the places of placeholders with their keys. -/
theorem text_independent_of_values (h : ∀ key, b.block? key = b'.block? key) :
    ((∃ key, (t.generate b).outcome = .error (.missing .block key) ∧
        (t.generate b').outcome = .error (.missing .block key)) ∨
      ∃ f, (t.assemble b).outcome = .ok f ∧ (t.assemble b').outcome = .ok f ∧
        f.FillsTo (t.generate b).outcome ∧ f.FillsTo (t.generate b').outcome) ∧
    (∀ s s', (t.generate b).outcome = .ok s → (t.generate b').outcome = .ok s' → s.sql = s'.sql) ∧
    (∀ s marks values, (t.generate b).outcome = .ok s →
      (t.generate b').outcome ≠ .error (.countMismatch marks values)) ∧
    (∀ s marks values, (t.generate b').outcome = .ok s →
      (t.generate b).outcome ≠ .error (.countMismatch marks values)) ∧
    ∀ s pairs, (t.generate b).outcome = .ok s →
      ∃ f s', (t.assemble b).outcome = .ok f ∧ (t.generate (b.bindValues pairs)).outcome = .ok s' ∧
        s'.sql = s.sql ∧ s'.values.length = s.values.length ∧
        ∀ i : Nat, (∀ p, f.args[i]? = some (.placeholder p) → p.key ∉ pairs.map Prod.fst) →
          s'.values[i]? = s.values[i]? := by
  refine ⟨generate_cases_of_blocks h, ?_, ?_, ?_, ?_⟩
  · intro s s' hs hs'
    exact sql_eq_of_blocks h hs hs'
  · intro s marks values hs
    exact outcome_ne_countMismatch_of_blocks h hs marks values
  · intro s marks values hs'
    exact outcome_ne_countMismatch_of_blocks (fun key => (h key).symm) hs' marks values
  · intro s pairs hs
    exact outcome_generate_bindValues hs pairs

/-- A query under two bindings that differ in a value, and under the second of them with a value for one
more key. -/
theorem text_independent_of_values_of_query :
    let t := ofSegments [.text "select * from t where a = ",
      .fragment (.mark (.placeholder (.ofKey (.name "a")))), .block (.ofKey (.name "more")),
      .fragment ⟨" limit ?", [.placeholder ((Placeholder.ofKey (.name "n")).withDefault (.int 10))]⟩]
    let blocks := Bindings.empty.bindBlock (.name "more") (.raw " and not b")
    let b := blocks.bindValue (.name "a") (.int 1)
    let b' := blocks.bindValue (.name "a") (.text "1 or 1 = 1")
    (∀ key, b.block? key = b'.block? key) ∧
      ∃ s s', (t.generate b).outcome = .ok s ∧ (t.generate b').outcome = .ok s' ∧
        s.sql = s'.sql ∧ s.values ≠ s'.values ∧
        ∃ s'', (t.generate (b.bindValues [(.name "n", .int 5)])).outcome = .ok s'' ∧
          s''.sql = s.sql ∧ s''.values[0]? = s.values[0]? := by
  intro t blocks b b'
  have h : ∀ key, b.block? key = b'.block? key := fun _ => rfl
  obtain ⟨-, hsql, -, -, hmore⟩ := text_independent_of_values (t := t) h
  refine ⟨h, _, _, rfl, rfl, hsql _ _ rfl rfl, by decide, ?_⟩
  obtain ⟨f, s'', hf, hs'', hsql'', -, hvalues⟩ := hmore _ [(.name "n", .int 5)] rfl
  refine ⟨s'', hs'', hsql'', hvalues 0 ?_⟩
  obtain rfl := Except.ok.inj hf
  intro p hp
  obtain rfl := Argument.placeholder.inj (Option.some.inj hp)
  decide

end Template

end BoundSql
