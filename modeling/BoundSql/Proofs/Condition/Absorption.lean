import BoundSql.Proofs.Condition.Meaning
import BoundSql.Proofs.Condition.Validation
import Mathlib.Logic.Relation

/-!
# Conditions that ask for nothing

A vacuous condition is empty, or a group of vacuous conditions.  These are the conditions that compile to
the fragment without text, whatever the allow-list is (`Condition.outcome_compile_eq_empty_iff`), and a
group takes no notice of them: it has the same meaning with a vacuous child as without it, or the same
fault (`Condition.meaning_group_insert`).

So vacuous conditions may be inserted into a tree, in any groups and any number of them, and the tree
compiles to what it compiled to before (`Condition.insertions_absorbed`).
-/

namespace BoundSql

namespace Condition

/-- Conditions that ask for nothing: the empty one, and groups of such conditions. -/
inductive Vacuous : Condition → Prop
  | empty : Vacuous .empty
  | group (c : Connective) {children : List Condition} (h : ∀ d ∈ children, Vacuous d) :
      Vacuous (.group c.word children)

/-- The second condition is the first one with a vacuous condition more among the children of a group, in
any place of that group and at any depth. -/
inductive Insertion : Condition → Condition → Prop
  | here (word : String) (before after : List Condition) {v : Condition} (hv : Vacuous v) :
      Insertion (.group word (before ++ after)) (.group word (before ++ v :: after))
  | inside (word : String) (before after : List Condition) {c c' : Condition} (h : Insertion c c') :
      Insertion (.group word (before ++ c :: after)) (.group word (before ++ c' :: after))

variable {allowed : AllowList}

/-! ## What vacuous conditions compile to -/

/-- Some conditions ask for nothing together if and only if each of them asks for nothing. -/
theorem meanings_eq_ok_nil_iff {cs : List Condition} :
    meanings allowed cs = .ok [] ↔ ∀ c ∈ cs, c.meaning allowed = .ok none := by
  induction cs with
  | nil => simp [meanings]
  | cons c cs ih =>
    rw [List.forall_mem_cons, ← ih, meanings]
    cases hc : c.meaning allowed with
    | error e => simp
    | ok m =>
      cases hcs : meanings allowed cs with
      | error e => simp
      | ok ms =>
        change Except.ok (m.toList ++ ms) = Except.ok [] ↔ _
        simp

/-- A group asks for nothing if and only if its operator is a connective and its children ask for
nothing. -/
theorem meaning_group_eq_ok_none_iff {word : String} {children : List Condition} :
    (group word children).meaning allowed = .ok none ↔
      (∃ c : Connective, word = c.word) ∧ ∀ d ∈ children, d.meaning allowed = .ok none := by
  rw [← meanings_eq_ok_nil_iff, meaning]
  constructor
  · intro h
    obtain ⟨c, hc, hrest⟩ := Outcome.bind_eq_ok_iff.1 h
    obtain ⟨ms, hms, hm⟩ := Outcome.bind_eq_ok_iff.1 hrest
    have hnil : ms = [] := Meaning.ofOperands_eq_none_iff.1 (Except.ok.inj hm)
    refine ⟨⟨c, ?_⟩, ?_⟩
    · exact Connective.ofWord?_eq_some_iff.1 (Connective.ofWord_eq_ok_iff.1 hc)
    · rw [hms, hnil]
  · rintro ⟨⟨c, rfl⟩, hms⟩
    have hc : Connective.ofWord c.word = .ok c :=
      Connective.ofWord_eq_ok_iff.2 (Connective.ofWord?_eq_some_iff.2 rfl)
    rw [hc, Outcome.ok_bind, hms]
    rfl

/-- The vacuous conditions are those that ask for nothing. -/
theorem meaning_eq_ok_none_iff {c : Condition} : c.meaning allowed = .ok none ↔ Vacuous c := by
  induction c using Condition.induction with
  | empty => exact iff_of_true rfl .empty
  | compare field word v =>
    refine iff_of_false ?_ nofun
    intro h
    obtain ⟨column, -, hrest⟩ := Outcome.bind_eq_ok_iff.1 h
    obtain ⟨c, -, hm⟩ := Outcome.bind_eq_ok_iff.1 hrest
    cases hm
  | group word children ih =>
    rw [meaning_group_eq_ok_none_iff]
    constructor
    · rintro ⟨⟨c, rfl⟩, h⟩
      exact .group c fun d hd => (ih d hd).1 (h d hd)
    · intro h
      cases h with
      | group c h => exact ⟨⟨c, rfl⟩, fun d hd => (ih d hd).2 (h d hd)⟩

/-- The vacuous conditions are those that compile to the fragment without text. -/
theorem outcome_compile_eq_empty_iff {c : Condition} :
    (c.compile allowed).outcome = .ok .empty ↔ Vacuous c := by
  rw [outcome_compile, compiled_eq_rendered, rendered_eq_map_meaning, ← meaning_eq_ok_none_iff,
    Outcome.map_eq_ok_iff]
  constructor
  · rintro ⟨m, hm, hempty⟩
    have hnone : m = none := Meaning.text_fragmentOf_eq_empty_iff.1 (congrArg Fragment.text hempty)
    rw [hm, hnone]
  · intro h
    exact ⟨none, h, rfl⟩

/-! ## Insertions -/

/-- The meanings of two lists of conditions, one after the other. -/
theorem meanings_append (xs ys : List Condition) :
    meanings allowed (xs ++ ys) = do
      let ms ← meanings allowed xs
      let ns ← meanings allowed ys
      return ms ++ ns := by
  induction xs with
  | nil =>
    rw [List.nil_append, meanings, Outcome.ok_bind]
    cases meanings allowed ys <;> rfl
  | cons x xs ih =>
    rw [List.cons_append, meanings, meanings, ih]
    cases x.meaning allowed with
    | error e => rfl
    | ok m =>
      cases meanings allowed xs with
      | error e => rfl
      | ok ms =>
        cases meanings allowed ys with
        | error e => rfl
        | ok ns => exact congrArg Except.ok (List.append_assoc m.toList ms ns).symm

/-- A vacuous condition adds nothing to the meanings of those that follow it. -/
theorem meanings_cons_of_vacuous {v : Condition} (hv : Vacuous v) (cs : List Condition) :
    meanings allowed (v :: cs) = meanings allowed cs := by
  have hnone : v.meaning allowed = .ok none := meaning_eq_ok_none_iff.2 hv
  rw [meanings, hnone, Outcome.ok_bind]
  cases meanings allowed cs <;> rfl

/-- A group has the same meaning, or the same fault, with a vacuous child as without it. -/
theorem meaning_group_insert {v : Condition} (hv : Vacuous v) (word : String)
    (before after : List Condition) :
    (group word (before ++ v :: after)).meaning allowed =
      (group word (before ++ after)).meaning allowed := by
  rw [meaning, meaning, meanings_append, meanings_append, meanings_cons_of_vacuous hv]

/-- One insertion leaves the meaning of a tree as it is, or its fault. -/
theorem Insertion.meaning_eq {c c' : Condition} (h : Insertion c c') :
    c'.meaning allowed = c.meaning allowed := by
  induction h with
  | here word before after hv => exact meaning_group_insert hv word before after
  | @inside word before after d d' _ ih =>
    have hchild : meanings allowed (d' :: after) = meanings allowed (d :: after) := by
      rw [meanings, meanings, ih]
    rw [meaning, meaning, meanings_append, meanings_append, hchild]

/-- Any number of insertions leave the meaning of a tree as it is, or its fault. -/
theorem meaning_eq_of_insertions {c c' : Condition} (h : Relation.ReflTransGen Insertion c c') :
    c'.meaning allowed = c.meaning allowed := by
  induction h with
  | refl => rfl
  | tail _ hstep ih => rw [hstep.meaning_eq, ih]

/-- A tree into which vacuous conditions are inserted compiles to what it compiled to before, with the same
text and arguments or with the same error, and with the same report.  Vacuous are the conditions that
compile to the fragment without text. -/
theorem insertions_absorbed {c c' : Condition} (h : Relation.ReflTransGen Insertion c c')
    (allowed : AllowList) :
    c'.compile allowed = c.compile allowed ∧
    ∀ v : Condition, Vacuous v ↔ (v.compile allowed).outcome = .ok .empty := by
  refine ⟨?_, fun v => outcome_compile_eq_empty_iff.symm⟩
  have hcompiled : c'.compiled allowed = c.compiled allowed := by
    rw [compiled_eq_rendered, compiled_eq_rendered, rendered_eq_map_meaning, rendered_eq_map_meaning,
      meaning_eq_of_insertions h]
  rw [compile, compile, hcompiled]

/-- Nested empty groups before an operand and an empty condition inside the other one, with both fields
allowed and with none. -/
theorem insertions_absorbed_at_two_depths :
    let c := any [.compare "a" "=" (.int 1), all [.compare "b" "<" (.int 2)]]
    let c' := any [all [.empty, any []], .compare "a" "=" (.int 1),
      all [.compare "b" "<" (.int 2), .empty]]
    let allowed := (AllowList.empty.allow "a" "t.a").allow "b" "t.b"
    Relation.ReflTransGen Insertion c c' ∧
      (c'.compile allowed).outcome =
        .ok ⟨"((t.a) = ?) or (((t.b) < ?))", [.value (.int 1), .value (.int 2)]⟩ ∧
      (c'.compile .empty).outcome = .error (.unknownField "a") := by
  intro c c' allowed
  have hany : Vacuous (any []) := .group .or nofun
  have hall : Vacuous (all [.empty, any []]) :=
    .group .and (List.forall_mem_cons.2 ⟨.empty, List.forall_mem_singleton.2 hany⟩)
  have hfirst : Insertion c (any (all [.empty, any []] :: [.compare "a" "=" (.int 1),
      all [.compare "b" "<" (.int 2)]])) := .here "or" [] _ hall
  have hinner : Insertion (all [.compare "b" "<" (.int 2)]) (all [.compare "b" "<" (.int 2), .empty]) :=
    .here "and" [.compare "b" "<" (.int 2)] [] .empty
  have hsecond : Insertion _ c' :=
    .inside "or" [all [.empty, any []], .compare "a" "=" (.int 1)] [] hinner
  have h : Relation.ReflTransGen Insertion c c' := (Relation.ReflTransGen.single hfirst).tail hsecond
  refine ⟨h, ?_, ?_⟩
  · rw [(insertions_absorbed h allowed).1, outcome_compile, compiled_eq_rendered]
    rfl
  · rw [(insertions_absorbed h .empty).1, outcome_compile, compiled_eq_rendered]
    rfl

end Condition

end BoundSql
