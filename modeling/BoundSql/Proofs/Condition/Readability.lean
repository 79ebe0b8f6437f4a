import BoundSql.Proofs.Condition.Meaning

/-!
# Unique readability of compiled conditions

Every operand of a group is written in parentheses, so the structure of a condition can be read off its
text alone: a text begins with a parenthesis, and what follows the one that closes it says whether it
belongs to a column, to the single operand of a group or to the first of several.  If the columns are
`Balanced`, the closing parenthesis is found without knowing anything else.

The arguments are not part of the text, but the text says how many each test takes.  The induction
therefore carries along the arguments that are still to be given out (`Meaning.Readable`).  The text
alone says everything but the values (`Meaning.skeleton_eq_of_text_eq`), and with the arguments it says
what a condition means.
-/

namespace BoundSql

namespace Test

/-- No parenthesis stands in what is written after a column. -/
theorem not_mem_text (t : Test) : '(' ∉ t.text.toList ∧ ')' ∉ t.text.toList := by
  cases t with
  | against c v hc => cases c <;> simp [text, Comparison.word]
  | presence wanted => cases wanted <;> simp [text]

/-- Something is written after a column. -/
theorem text_ne_empty (t : Test) : t.text ≠ "" := by
  intro h
  cases t with
  | against c v hc =>
    have hlist := congrArg String.toList h
    simp [text] at hlist
  | presence wanted => cases wanted <;> exact absurd h (by decide)

/-- A null test has no mark. -/
theorem mark_mem_text_iff (t : Test) : '?' ∈ t.text.toList ↔ ∃ c v h, t = .against c v h := by
  cases t with
  | against c v hc => simp [text, hc]
  | presence wanted => cases wanted <;> simp [text]

/-- A test is read off its text and the arguments at hand, and leaves the arguments after its own. -/
theorem eq_of_text_eq {t u : Test} {as bs : List Argument} (ht : t.text = u.text)
    (ha : t.args ++ as = u.args ++ bs) : t = u ∧ as = bs := by
  have hmark : (∃ c v h, t = .against c v h) ↔ ∃ c v h, u = .against c v h := by
    rw [← mark_mem_text_iff, ← mark_mem_text_iff, ht]
  cases t with
  | against c v hc =>
    obtain ⟨d, w, hd, rfl⟩ := hmark.1 ⟨c, v, hc, rfl⟩
    have hword : c.word = d.word := by
      simpa [text] using ht
    obtain rfl := Comparison.word_injective hword
    obtain ⟨hv, has⟩ := List.cons.inj ha
    obtain rfl := Argument.value.inj hv
    exact ⟨rfl, has⟩
  | presence wanted =>
    cases u with
    | against d w hd =>
      obtain ⟨c, v, hc, he⟩ := hmark.2 ⟨d, w, hd, rfl⟩
      cases he
    | presence wanted' =>
      refine ⟨?_, ha⟩
      have hwanted : ∀ w w' : Bool, (presence w).text = (presence w').text → w = w' := by decide
      rw [hwanted wanted wanted' ht]

end Test

namespace Connective

/-- No parenthesis stands between two operands. -/
theorem not_mem_joiner (c : Connective) : '(' ∉ c.joiner.toList ∧ ')' ∉ c.joiner.toList := by
  cases c <;> simp [joiner, word]

/-- Something stands between two operands. -/
theorem joiner_append_ne_empty (c : Connective) (s : String) : c.joiner ++ s ≠ "" := by
  intro h
  have hempty := (String.append_eq_empty_iff.1 h).1
  cases c <;> exact absurd hempty (by decide)

/-- A connective is read off what stands between two operands. -/
theorem eq_of_joiner_append_eq {c d : Connective} {s t : String}
    (h : c.joiner ++ s = d.joiner ++ t) : c = d := by
  have hlist := congrArg String.toList h
  cases c <;> cases d <;> simp [joiner, word] at hlist ⊢

end Connective

namespace Meaning

/-- A meaning whose columns are balanced. -/
def BalancedColumns (m : Meaning) : Prop := ∀ l ∈ m.leaves, Balanced l.1

/-- The columns of a group are those of its operands. -/
theorem balancedColumns_group_iff {c : Connective} {m n : Meaning} {rest : List Meaning} :
    (group c m n rest).BalancedColumns ↔ ∀ o ∈ m :: n :: rest, o.BalancedColumns := by
  simp only [BalancedColumns, leaves, leavesOfAll_eq, List.mem_append, List.mem_flatMap,
    List.mem_cons]
  constructor
  · rintro h o (rfl | rfl | ho) l hl
    · exact h l (Or.inl hl)
    · exact h l (Or.inr (Or.inl hl))
    · exact h l (Or.inr (Or.inr ⟨o, ho, hl⟩))
  · rintro h l (hl | hl | ⟨o, ho, hl⟩)
    · exact h m (Or.inl rfl) l hl
    · exact h n (Or.inr (Or.inl rfl)) l hl
    · exact h o (Or.inr (Or.inr ho)) l hl

/-- The text of a group is its first operand with the further ones after it. -/
theorem text_group (c : Connective) (m n : Meaning) (rest : List Meaning) :
    (group c m n rest).text = enclosed m.text (textOfRest c (n :: rest)) := rfl

/-- Further operands with balanced texts are balanced. -/
theorem balanced_textOfRest (c : Connective) {ms : List Meaning}
    (h : ∀ m ∈ ms, Balanced m.text) : Balanced (textOfRest c ms) := by
  induction ms with
  | nil => exact .of_not_mem List.not_mem_nil List.not_mem_nil
  | cons m ms ih =>
    obtain ⟨hopen, hclose⟩ := c.not_mem_joiner
    have hrest := ih fun o ho => h o (List.mem_cons_of_mem m ho)
    exact (Balanced.of_not_mem hopen hclose).append ((h m List.mem_cons_self).enclosed hrest)

/-- The text of a meaning with balanced columns is balanced. -/
theorem balanced_text (m : Meaning) (h : m.BalancedColumns) : Balanced m.text := by
  induction m using Meaning.induction with
  | leaf column test =>
    have hcolumn : Balanced column := h (column, test) List.mem_cons_self
    obtain ⟨hopen, hclose⟩ := test.not_mem_text
    exact hcolumn.enclosed (.of_not_mem hopen hclose)
  | single m ih => exact (ih h).enclosed (.of_not_mem List.not_mem_nil List.not_mem_nil)
  | group c m n rest ih =>
    have hoperands := balancedColumns_group_iff.1 h
    have hbalanced : ∀ o ∈ m :: n :: rest, Balanced o.text := fun o ho => ih o ho (hoperands o ho)
    rw [text_group]
    exact (hbalanced m List.mem_cons_self).enclosed
      (balanced_textOfRest c fun o ho => hbalanced o (List.mem_cons_of_mem m ho))

/-- A meaning that is read off its text and the arguments at hand, and leaves the arguments after its
own. -/
def Readable (m : Meaning) : Prop :=
  ∀ (n : Meaning) (as bs : List Argument), n.BalancedColumns → m.text = n.text →
    m.args ++ as = n.args ++ bs → m = n ∧ as = bs

/-- Further operands are read off their text if each of them is. -/
theorem eq_of_textOfRest_eq (c : Connective) {ms ns : List Meaning} {as bs : List Argument}
    (hms : ∀ m ∈ ms, m.Readable ∧ m.BalancedColumns) (hns : ∀ n ∈ ns, n.BalancedColumns)
    (ht : textOfRest c ms = textOfRest c ns)
    (ha : ms.flatMap args ++ as = ns.flatMap args ++ bs) : ms = ns ∧ as = bs := by
  induction ms generalizing ns as bs with
  | nil =>
    cases ns with
    | nil => exact ⟨rfl, ha⟩
    | cons n ns => exact absurd ht.symm (c.joiner_append_ne_empty _)
  | cons m ms ih =>
    cases ns with
    | nil => exact absurd ht (c.joiner_append_ne_empty _)
    | cons n ns =>
      obtain ⟨hreadable, hm⟩ := hms m List.mem_cons_self
      have hn := hns n List.mem_cons_self
      obtain ⟨htext, hrest⟩ := (balanced_text m hm).eq_of_enclosed_eq (balanced_text n hn)
        ((String.append_right_inj c.joiner).1 ht)
      rw [List.flatMap_cons, List.flatMap_cons, List.append_assoc, List.append_assoc] at ha
      obtain ⟨rfl, harest⟩ := hreadable n _ _ hn htext ha
      obtain ⟨rfl, has⟩ := ih (fun o ho => hms o (List.mem_cons_of_mem m ho))
        (fun o ho => hns o (List.mem_cons_of_mem _ ho)) hrest harest
      exact ⟨rfl, has⟩

/-- What follows the first parenthesis tells a test from the further operands of a group. -/
theorem text_test_ne_joiner_append (t : Test) (c : Connective) (inner tail : String) :
    t.text ≠ c.joiner ++ enclosed inner tail := by
  intro h
  have hmem : '(' ∈ (c.joiner ++ enclosed inner tail).toList := by
    rw [String.toList_append, toList_enclosed]
    exact List.mem_append_right _ List.mem_cons_self
  exact t.not_mem_text.1 (h ▸ hmem)

/-- The test of a column is read off what follows the first parenthesis. -/
theorem readable_leaf {column : String} {test : Test} (hm : (leaf column test).BalancedColumns) :
    (leaf column test).Readable := by
  intro n as bs hn ht ha
  have hcolumn : Balanced column := hm (column, test) List.mem_cons_self
  cases n with
  | leaf column' test' =>
    have hcolumn' : Balanced column' := hn (column', test') List.mem_cons_self
    obtain ⟨rfl, htest⟩ := hcolumn.eq_of_enclosed_eq hcolumn' ht
    have hargs : test.args ++ as = test'.args ++ bs := by
      simpa [args, leaves] using ha
    obtain ⟨rfl, has⟩ := Test.eq_of_text_eq htest hargs
    exact ⟨rfl, has⟩
  | single n =>
    have htail := (hcolumn.eq_of_enclosed_eq (balanced_text n hn) ht).2
    exact absurd htail test.text_ne_empty
  | group d n₁ n₂ rest' =>
    have hfirst := balancedColumns_group_iff.1 hn n₁ List.mem_cons_self
    have htail := (hcolumn.eq_of_enclosed_eq (balanced_text n₁ hfirst) ht).2
    exact absurd htail (text_test_ne_joiner_append test d _ _)

/-- Nothing follows the single operand of a group, so a single operand is read off if it can be read off
by itself. -/
theorem readable_single {m : Meaning} (hm : m.BalancedColumns) (ih : m.Readable) :
    (single m).Readable := by
  intro n as bs hn ht ha
  have hbalanced := balanced_text m hm
  cases n with
  | leaf column' test' =>
    have hcolumn' : Balanced column' := hn (column', test') List.mem_cons_self
    have htail := (hbalanced.eq_of_enclosed_eq hcolumn' ht).2
    exact absurd htail.symm test'.text_ne_empty
  | single n =>
    have htext := (hbalanced.eq_of_enclosed_eq (balanced_text n hn) ht).1
    obtain ⟨rfl, has⟩ := ih n as bs hn htext ha
    exact ⟨rfl, has⟩
  | group d n₁ n₂ rest' =>
    have hfirst := balancedColumns_group_iff.1 hn n₁ List.mem_cons_self
    have htail := (hbalanced.eq_of_enclosed_eq (balanced_text n₁ hfirst) ht).2
    exact absurd htail.symm (d.joiner_append_ne_empty _)

/-- The operands of a group are read off one after the other if each of them can be read off. -/
theorem readable_group {c : Connective} {m₁ m₂ : Meaning} {rest : List Meaning}
    (hm : (group c m₁ m₂ rest).BalancedColumns) (ih : ∀ o ∈ m₁ :: m₂ :: rest, o.Readable) :
    (group c m₁ m₂ rest).Readable := by
  intro n as bs hn ht ha
  have hoperands := balancedColumns_group_iff.1 hm
  have hbalanced := balanced_text m₁ (hoperands m₁ List.mem_cons_self)
  cases n with
  | leaf column' test' =>
    have hcolumn' : Balanced column' := hn (column', test') List.mem_cons_self
    have htail := (hbalanced.eq_of_enclosed_eq hcolumn' ht).2
    exact absurd htail.symm (text_test_ne_joiner_append test' c _ _)
  | single n =>
    have htail := (hbalanced.eq_of_enclosed_eq (balanced_text n hn) ht).2
    exact absurd htail (c.joiner_append_ne_empty _)
  | group d n₁ n₂ rest' =>
    have hoperands' := balancedColumns_group_iff.1 hn
    have hfirst := hoperands' n₁ List.mem_cons_self
    obtain ⟨htext, htail⟩ := hbalanced.eq_of_enclosed_eq (balanced_text n₁ hfirst) ht
    obtain rfl := Connective.eq_of_joiner_append_eq htail
    have hargs : m₁.args ++ ((m₂ :: rest).flatMap args ++ as) =
        n₁.args ++ ((n₂ :: rest').flatMap args ++ bs) := by
      simpa only [args_group, List.append_assoc] using ha
    obtain ⟨rfl, hrest⟩ := ih m₁ List.mem_cons_self n₁ _ _ hfirst htext hargs
    have hms : ∀ o ∈ m₂ :: rest, o.Readable ∧ o.BalancedColumns := by
      intro o ho
      have hmem := List.mem_cons_of_mem m₁ ho
      exact ⟨ih o hmem, hoperands o hmem⟩
    have hns : ∀ o ∈ n₂ :: rest', o.BalancedColumns := by
      intro o ho
      exact hoperands' o (List.mem_cons_of_mem _ ho)
    obtain ⟨hlist, has⟩ := eq_of_textOfRest_eq c hms hns htail hrest
    obtain ⟨rfl, rfl⟩ := List.cons.inj hlist
    exact ⟨rfl, has⟩

/-- A meaning with balanced columns is read off its text and the arguments at hand. -/
theorem readable (m : Meaning) (hm : m.BalancedColumns) : m.Readable := by
  induction m using Meaning.induction with
  | leaf column test => exact readable_leaf hm
  | single m ih => exact readable_single hm (ih hm)
  | group c m n rest ih =>
    have hoperands := balancedColumns_group_iff.1 hm
    exact readable_group hm fun o ho => ih o ho (hoperands o ho)

end Meaning

/-! ## What the text alone says -/

namespace Test

/-- A test whose value is forgotten. -/
def skeleton : Test → Test
  | .against c _ h => .against c .null h
  | .presence wanted => .presence wanted

/-- The value of a test does not show in its text. -/
theorem text_skeleton (t : Test) : t.skeleton.text = t.text := by
  cases t <;> rfl

end Test

namespace Meaning

mutual

/-- A meaning whose values are forgotten: its columns, its comparisons and how they are grouped. -/
def skeleton : Meaning → Meaning
  | .leaf column test => .leaf column test.skeleton
  | .single m => .single m.skeleton
  | .group c m n rest => .group c m.skeleton n.skeleton (skeletons rest)

/-- Meanings whose values are forgotten. -/
def skeletons : List Meaning → List Meaning
  | [] => []
  | m :: ms => m.skeleton :: skeletons ms

end

/-- Values are forgotten in one meaning after the other. -/
theorem skeletons_eq_map (ms : List Meaning) : skeletons ms = ms.map skeleton := by
  induction ms with
  | nil => rfl
  | cons m ms ih => rw [skeletons, ih, List.map_cons]

/-- Values do not show in the text of a meaning. -/
theorem text_skeleton (m : Meaning) : m.skeleton.text = m.text := by
  induction m using Meaning.induction with
  | leaf column test => rw [skeleton, text, text, Test.text_skeleton]
  | single m ih => rw [skeleton, text, text, ih]
  | group c m n rest ih =>
    have hrest : ∀ ms ⊆ m :: n :: rest, textOfRest c (ms.map skeleton) = textOfRest c ms := by
      intro ms hms
      rw [textOfRest_eq, textOfRest_eq, List.map_map, List.map_map, List.map_map]
      refine congrArg String.join (List.map_congr_left fun o ho => ?_)
      simp only [Function.comp_apply, ih o (hms ho)]
    rw [skeleton, skeletons_eq_map, text_group, text_group, ← List.map_cons,
      ih m List.mem_cons_self, hrest _ (List.subset_cons_self m _)]

/-- Forgetting values leaves the tests where they are. -/
theorem leaves_skeleton (m : Meaning) :
    m.skeleton.leaves = m.leaves.map fun l => (l.1, l.2.skeleton) := by
  induction m using Meaning.induction with
  | leaf column test => rfl
  | single m ih => exact ih
  | group c m n rest ih =>
    have hrest : (rest.map skeleton).flatMap leaves =
        (rest.flatMap leaves).map fun l => (l.1, l.2.skeleton) := by
      rw [List.flatMap_map, List.map_flatMap]
      exact List.flatMap_congr fun o ho =>
        ih o (List.mem_cons_of_mem m (List.mem_cons_of_mem n ho))
    rw [skeleton, skeletons_eq_map, leaves, leaves, leavesOfAll_eq, leavesOfAll_eq, hrest,
      ih m List.mem_cons_self, ih n (List.mem_cons_of_mem m List.mem_cons_self),
      List.map_append, List.map_append]

/-- Forgetting values leaves the columns as they are. -/
theorem balancedColumns_skeleton {m : Meaning} (h : m.BalancedColumns) :
    m.skeleton.BalancedColumns := by
  intro l hl
  rw [leaves_skeleton] at hl
  obtain ⟨l', hl', rfl⟩ := List.mem_map.1 hl
  exact h l' hl'

/-- Arguments whose values are forgotten are all alike. -/
theorem args_skeleton (m : Meaning) :
    m.skeleton.args = List.replicate m.skeleton.args.length (.value .null) := by
  refine List.eq_replicate_of_mem fun a ha => ?_
  obtain ⟨l, hl, ha⟩ := List.mem_flatMap.1 ha
  rw [leaves_skeleton] at hl
  obtain ⟨⟨column, test⟩, -, rfl⟩ := List.mem_map.1 hl
  cases test with
  | against c v h => exact List.mem_singleton.1 ha
  | presence wanted => cases ha

/-- The text of a meaning with balanced columns says what it is but for its values. -/
theorem skeleton_eq_of_text_eq {m n : Meaning} (hm : m.BalancedColumns) (hn : n.BalancedColumns)
    (h : m.text = n.text) : m.skeleton = n.skeleton := by
  have htext : m.skeleton.text = n.skeleton.text := by
    rw [text_skeleton, text_skeleton, h]
  -- As many arguments are given to each as both take together.
  have hargs : m.skeleton.args ++ List.replicate n.skeleton.args.length (.value .null) =
      n.skeleton.args ++ List.replicate m.skeleton.args.length (.value .null) := by
    rw [args_skeleton m, args_skeleton n, List.length_replicate, List.length_replicate,
      List.replicate_append_replicate, List.replicate_append_replicate, Nat.add_comm]
  exact (readable m.skeleton (balancedColumns_skeleton hm) n.skeleton _ _
    (balancedColumns_skeleton hn) htext hargs).1

/-- What conditions are rendered as has the same text exactly if they mean the same but for the
values. -/
theorem text_fragmentOf_eq_iff {m n : Option Meaning} (hm : ∀ o ∈ m, o.BalancedColumns)
    (hn : ∀ o ∈ n, o.BalancedColumns) :
    (fragmentOf m).text = (fragmentOf n).text ↔ m.map skeleton = n.map skeleton := by
  cases m with
  | none =>
    cases n with
    | none => exact iff_of_true rfl rfl
    | some n => exact iff_of_false n.text_ne_empty.symm (Option.some_ne_none _).symm
  | some m =>
    cases n with
    | none => exact iff_of_false m.text_ne_empty (Option.some_ne_none _)
    | some n =>
      rw [Option.map_some, Option.map_some, Option.some_inj]
      refine ⟨skeleton_eq_of_text_eq (hm m rfl) (hn n rfl), fun h => ?_⟩
      have htext := congrArg text h
      rwa [text_skeleton, text_skeleton] at htext

/-- What conditions are rendered as is the same exactly if they mean the same. -/
theorem fragmentOf_eq_iff {m n : Option Meaning} (hm : ∀ o ∈ m, o.BalancedColumns)
    (hn : ∀ o ∈ n, o.BalancedColumns) :
    (fragmentOf m).text = (fragmentOf n).text ∧ (fragmentOf m).args = (fragmentOf n).args ↔
      m = n := by
  refine ⟨?_, fun h => h ▸ ⟨rfl, rfl⟩⟩
  rintro ⟨htext, hargs⟩
  cases m with
  | none =>
    cases n with
    | none => rfl
    | some n => exact absurd htext.symm n.text_ne_empty
  | some m =>
    cases n with
    | none => exact absurd htext m.text_ne_empty
    | some n =>
      have hall : m.args ++ [] = n.args ++ [] := congrArg (· ++ []) hargs
      exact congrArg some (m.readable (hm m rfl) n [] [] (hn n rfl) htext hall).1

end Meaning

/-! ## Compiled conditions -/

namespace AllowList

/-- An allow-list whose columns are balanced. -/
def BalancedColumns (l : AllowList) : Prop :=
  ∀ field column, l.column? field = some column → Balanced column

end AllowList

namespace Meaning

/-- The columns of what is left of a group are those of its operands. -/
theorem balancedColumns_of_ofOperands {c : Connective} {ms : List Meaning} {m : Meaning}
    (h : ofOperands c ms = some m) (hms : ∀ o ∈ ms, o.BalancedColumns) : m.BalancedColumns := by
  match ms with
  | [] => cases h
  | [o] =>
    obtain rfl := Option.some.inj h
    exact hms o List.mem_cons_self
  | o₁ :: o₂ :: rest =>
    obtain rfl := Option.some.inj h
    exact balancedColumns_group_iff.2 hms

end Meaning

namespace Condition

mutual

/-- The columns of a meaning are columns of the allow-list. -/
theorem balancedColumns_of_meaning {allowed : AllowList} (hb : allowed.BalancedColumns)
    {c : Condition} {m : Meaning} (h : c.meaning allowed = .ok (some m)) : m.BalancedColumns := by
  cases c with
  | empty => cases h
  | compare field word value =>
    obtain ⟨column, hcolumn, hrest⟩ := Outcome.bind_eq_ok_iff.1 h
    obtain ⟨c, -, hc⟩ := Outcome.bind_eq_ok_iff.1 hrest
    obtain rfl := Option.some.inj (Except.ok.inj hc)
    intro l hl
    obtain rfl := List.mem_singleton.1 hl
    exact hb field column (AllowList.columnOf_eq_ok_iff.1 hcolumn)
  | group word children =>
    obtain ⟨c, -, hrest⟩ := Outcome.bind_eq_ok_iff.1 h
    obtain ⟨ms, hms, hm⟩ := Outcome.bind_eq_ok_iff.1 hrest
    exact Meaning.balancedColumns_of_ofOperands (Except.ok.inj hm)
      (balancedColumns_of_meanings hb hms)

/-- The same for the meanings of some conditions. -/
theorem balancedColumns_of_meanings {allowed : AllowList} (hb : allowed.BalancedColumns)
    {cs : List Condition} {ms : List Meaning} (h : meanings allowed cs = .ok ms) :
    ∀ m ∈ ms, m.BalancedColumns := by
  cases cs with
  | nil =>
    obtain rfl := Except.ok.inj h
    intro m hm
    exact absurd hm List.not_mem_nil
  | cons c cs =>
    obtain ⟨m?, hm, hrest⟩ := Outcome.bind_eq_ok_iff.1 h
    obtain ⟨ms', hms, hms'⟩ := Outcome.bind_eq_ok_iff.1 hrest
    obtain rfl := Except.ok.inj hms'
    intro o ho
    rcases List.mem_append.1 ho with ho | ho
    · rw [Option.mem_toList] at ho
      exact balancedColumns_of_meaning hb (hm.trans (congrArg Except.ok ho))
    · exact balancedColumns_of_meanings hb hms o ho

end

/-- A condition that compiles has a meaning, and what it compiles to is the rendering of it. -/
theorem exists_meaning_of_outcome_compile {allowed : AllowList} {c : Condition} {f : Fragment}
    (h : (c.compile allowed).outcome = .ok f) :
    ∃ m, c.meaning allowed = .ok m ∧ f = Meaning.fragmentOf m := by
  rw [outcome_compile, compiled_eq_rendered, rendered_eq_map_meaning] at h
  cases hm : c.meaning allowed with
  | error e =>
    rw [hm] at h
    cases h
  | ok m =>
    rw [hm] at h
    exact ⟨m, rfl, (Except.ok.inj h).symm⟩

/-- Under an allow-list whose columns are balanced, two conditions compile to the same text exactly if
they mean the same but for the values, and with the same arguments exactly if they mean the same. -/
theorem compile_alike_iff_meaning_eq {allowed : AllowList} {c d : Condition} {f g : Fragment}
    (hb : allowed.BalancedColumns) (hc : (c.compile allowed).outcome = .ok f)
    (hd : (d.compile allowed).outcome = .ok g) :
    ∃ m n, c.meaning allowed = .ok m ∧ d.meaning allowed = .ok n ∧
      (f.text = g.text ↔ m.map Meaning.skeleton = n.map Meaning.skeleton) ∧
      (f.text = g.text ∧ f.args = g.args ↔ m = n) := by
  obtain ⟨m, hm, rfl⟩ := exists_meaning_of_outcome_compile hc
  obtain ⟨n, hn, rfl⟩ := exists_meaning_of_outcome_compile hd
  have hm' : ∀ o ∈ m, o.BalancedColumns := by
    intro o ho
    exact balancedColumns_of_meaning hb (hm.trans (congrArg Except.ok ho))
  have hn' : ∀ o ∈ n, o.BalancedColumns := by
    intro o ho
    exact balancedColumns_of_meaning hb (hn.trans (congrArg Except.ok ho))
  exact ⟨m, n, hm, hn, Meaning.text_fragmentOf_eq_iff hm' hn', Meaning.fragmentOf_eq_iff hm' hn'⟩

/-- Two conditions under one list: the second has an empty operand and another connective around its
last comparison, whose value counts as true as well. -/
theorem compile_alike_of_same_meaning :
    let allowed := (AllowList.empty.allow "a" "t.a").allow "b" "lower(t.b)"
    let c := all [.compare "a" "=" (.int 1), any [.compare "b" "is" (.bool true)]]
    let d := all [.compare "a" "=" (.int 1), .empty, all [.compare "b" "is" (.int 7)]]
    let f : Fragment := ⟨"((t.a) = ?) and (((lower(t.b)) is not null))", [.value (.int 1)]⟩
    allowed.BalancedColumns ∧ (c.compile allowed).outcome = .ok f ∧
      (d.compile allowed).outcome = .ok f ∧
      ∃ m n, c.meaning allowed = .ok m ∧ d.meaning allowed = .ok n ∧
        (f.text = f.text ↔ m.map Meaning.skeleton = n.map Meaning.skeleton) ∧
        (f.text = f.text ∧ f.args = f.args ↔ m = n) := by
  intro allowed c d f
  have hb : allowed.BalancedColumns := by
    intro field column h
    have hcolumns : (if "b" = field then some "lower(t.b)" else
        if "a" = field then some "t.a" else none) = some column := by
      simpa [allowed] using h
    split at hcolumns
    · obtain rfl := Option.some.inj hcolumns
      have hinner : Balanced "t.b" := .of_not_mem (by decide) (by decide)
      have hname : Balanced "lower" := .of_not_mem (by decide) (by decide)
      have hrest : Balanced "" := .of_not_mem (by decide) (by decide)
      have hcall : "lower(t.b)" = "lower" ++ enclosed "t.b" "" := by decide
      exact hcall ▸ hname.append (hinner.enclosed hrest)
    · split at hcolumns
      · obtain rfl := Option.some.inj hcolumns
        exact .of_not_mem (by decide) (by decide)
      · cases hcolumns
  have hc : (c.compile allowed).outcome = .ok f := by
    rw [outcome_compile, compiled_eq_rendered]
    rfl
  have hd : (d.compile allowed).outcome = .ok f := by
    rw [outcome_compile, compiled_eq_rendered]
    rfl
  exact ⟨hb, hc, hd, compile_alike_iff_meaning_eq hb hc hd⟩

end Condition

end BoundSql
