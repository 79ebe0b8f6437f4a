import BoundSql.Condition.Basic
import BoundSql.Proofs.Fragment.Join

/-!
# Joining in groups

Joined texts are the texts from the first one that is not empty on, with the joiner between any two of them
(`Fragment.joinTexts_eq_intercalate`).  An empty text so disappears at the start and keeps its joiner
anywhere else, and parts that are joined group by group need not give what all parts at once give.
`Fragment.join_append_eq_iff` says when they do: the second group has to begin with a text that is not
empty or consist of one part, unless there is no joiner or no text in front of the group.
-/

namespace BoundSql

namespace Fragment

/-- A text in front of others that each have a joiner before them. -/
theorem intercalate_cons (joiner t : String) (texts : List String) :
    joiner.intercalate (t :: texts) = t ++ String.join (texts.map (joiner ++ ·)) := by
  induction texts generalizing t with
  | nil => simp
  | cons u texts ih =>
    rw [String.intercalate_cons_cons, ih, List.map_cons, String.join_cons, String.append_assoc,
      String.append_assoc]

/-- Joined texts have the joiner between any two of them from the first that is not empty on. -/
theorem joinTexts_eq_intercalate (joiner : String) (texts : List String) :
    joinTexts joiner texts = joiner.intercalate (texts.dropWhile String.isEmpty) := by
  induction texts with
  | nil => simp
  | cons t texts ih =>
    rw [joinTexts_cons]
    by_cases h : t = ""
    · rw [if_pos h, ih, List.dropWhile_cons_of_pos (String.isEmpty_iff.2 h)]
    · rw [if_neg h, List.dropWhile_cons_of_neg (by rwa [String.isEmpty_iff]), intercalate_cons]

/-- Joined texts are empty if all of them are. -/
theorem joinTexts_eq_empty_iff {joiner : String} {texts : List String} :
    joinTexts joiner texts = "" ↔ ∀ t ∈ texts, t = "" := by
  induction texts with
  | nil => exact iff_of_true rfl nofun
  | cons t texts ih =>
    rw [joinTexts_cons, List.forall_mem_cons]
    by_cases h : t = ""
    · rw [if_pos h, ih]
      exact (and_iff_right h).symm
    · rw [if_neg h, String.append_eq_empty_iff]
      exact iff_of_false (fun hboth => h hboth.1) fun hboth => h hboth.1

/-- If no text is empty, none disappears. -/
theorem dropWhile_isEmpty_of_forall {texts : List String} (h : ∀ t ∈ texts, ¬t.isEmpty) :
    texts.dropWhile String.isEmpty = texts := by
  cases texts with
  | nil => rfl
  | cons t texts => exact List.dropWhile_cons_of_neg (h t List.mem_cons_self)

/-- Texts that are appended to others go on from the text that these give. -/
theorem joinTexts_append (joiner : String) (texts more : List String) :
    joinTexts joiner (texts ++ more) = more.foldl (joinNext joiner) (joinTexts joiner texts) :=
  List.foldl_append

/-! ## When groups may be joined one by one -/

/-- Texts are one more than the joiners between them if no text at the start disappears.  A single empty text
has no joiner to lose. -/
theorem length_eq_joinerCount_add_one_iff {texts : List String} :
    texts.length = joinerCount texts + 1 ↔ texts.length = 1 ∨ ∃ t ∈ texts.head?, t ≠ "" := by
  rw [joinerCount]
  cases texts with
  | nil => simp
  | cons t texts =>
    by_cases h : t = ""
    · have hdrop := (List.dropWhile_sublist String.isEmpty (l := texts)).length_le
      rw [List.dropWhile_cons_of_pos (String.isEmpty_iff.2 h)]
      simp only [List.length_cons, List.head?_cons, Option.mem_def, Option.some.injEq,
        exists_eq_left', ne_eq, h, not_true_eq_false, or_false]
      omega
    · rw [List.dropWhile_cons_of_neg (by rwa [String.isEmpty_iff])]
      exact iff_of_true rfl (Or.inr ⟨t, rfl, h⟩)

/-- Texts with a joiner before each are the joiner and then the joined texts exactly if there is no joiner, or
no text at the start disappears with the joiner after it. -/
theorem stringJoin_map_eq_iff {joiner : String} {texts : List String} :
    String.join (texts.map (joiner ++ ·)) = joiner ++ joinTexts joiner texts ↔
      joiner = "" ∨ texts.length = 1 ∨ ∃ t ∈ texts.head?, t ≠ "" := by
  constructor
  · intro heq
    -- Both sides have the same texts, so they have equally many joiners, if these have any length.
    have hlength := congrArg String.length heq
    rw [measure_stringJoin_map String.length_empty String.length_append, String.length_append,
      measure_joinTexts String.length_empty String.length_append] at hlength
    have hjoiners : texts.length * joiner.length = (joinerCount texts + 1) * joiner.length := by
      rw [Nat.add_mul]
      omega
    rcases Nat.eq_zero_or_pos joiner.length with hzero | hpos
    · exact Or.inl (String.length_eq_zero_iff.1 hzero)
    · exact Or.inr (length_eq_joinerCount_add_one_iff.1 (Nat.eq_of_mul_eq_mul_right hpos hjoiners))
  · rintro (rfl | hsingle | ⟨t, ht, hne⟩)
    · have hid : texts.map (fun s => "" ++ s) = texts := by simp
      rw [hid, String.empty_append, joinTexts_empty]
    · obtain ⟨t, rfl⟩ := List.length_eq_one_iff.1 hsingle
      have hfirst : joinTexts joiner [t] = t := rfl
      rw [hfirst, List.map_singleton, String.join_cons, String.join_nil, String.append_empty]
    · obtain ⟨rest, rfl⟩ := List.head?_eq_some_iff.1 ht
      rw [joinTexts_cons, if_neg hne, List.map_cons, String.join_cons, String.append_assoc]

/-- Parts may be joined in two groups exactly if there is no joiner, or no text in the first group, or the
second group is a single part or begins with a part that has a text. -/
theorem join_append_eq_iff {joiner : String} {xs ys : List Fragment} :
    join joiner (xs ++ ys) = join joiner [join joiner xs, join joiner ys] ↔
      joiner = "" ∨ (∀ x ∈ xs, x.text = "") ∨ ys.length = 1 ∨ ∃ y ∈ ys.head?, y.text ≠ "" := by
  have hargs : (join joiner (xs ++ ys)).args =
      (join joiner [join joiner xs, join joiner ys]).args := by
    rw [args_join, args_join, List.flatMap_append, List.flatMap_cons, List.flatMap_singleton,
      args_join, args_join]
  have htext : join joiner (xs ++ ys) = join joiner [join joiner xs, join joiner ys] ↔
      (ys.map Fragment.text).foldl (joinNext joiner) (joinTexts joiner (xs.map Fragment.text)) =
        joinNext joiner (joinTexts joiner (xs.map Fragment.text))
          (joinTexts joiner (ys.map Fragment.text)) := by
    rw [Fragment.mk.injEq, text_join, List.map_append, joinTexts_append]
    exact and_iff_left hargs
  rw [htext]
  have hnone : joinTexts joiner (xs.map Fragment.text) = "" ↔ ∀ x ∈ xs, x.text = "" := by
    rw [joinTexts_eq_empty_iff, List.forall_mem_map]
  by_cases hxs : joinTexts joiner (xs.map Fragment.text) = ""
  · rw [hxs]
    exact iff_of_true rfl (Or.inr (Or.inl (hnone.1 hxs)))
  · rw [foldl_joinNext hxs, joinNext_of_ne_empty hxs, String.append_right_inj, stringJoin_map_eq_iff,
      List.length_map, List.head?_map, ← hnone, or_iff_right hxs]
    simp

/-- The text of joined parts has the joiner between any two of the texts from the first on that is not empty,
and the arguments are those of all parts, also of those whose empty text disappears.  Joining in two
groups gives the same exactly if there is no joiner, or no text in the first group, or the second is a
single part or begins with a part that has a text.  A connective joins the operands that have a text, each
in parentheses. -/
theorem join_in_closed_form (joiner : String) (parts : List Fragment) :
    (join joiner parts).text =
      joiner.intercalate ((parts.dropWhile Fragment.isEmpty).map Fragment.text) ∧
    (join joiner parts).args = parts.flatMap Fragment.args ∧
    (∀ xs ys : List Fragment,
      join joiner (xs ++ ys) = join joiner [join joiner xs, join joiner ys] ↔
        joiner = "" ∨ (∀ x ∈ xs, x.text = "") ∨ ys.length = 1 ∨ ∃ y ∈ ys.head?, y.text ≠ "") ∧
    ∀ (c : Connective) (operands : List Fragment),
      (c.join operands).text = (" " ++ c.word ++ " ").intercalate
        ((operands.filter fun f => !f.isEmpty).map fun f => "(" ++ f.text ++ ")") := by
  refine ⟨?_, rfl, fun xs ys => join_append_eq_iff, fun c operands => ?_⟩
  · rw [text_join, joinTexts_eq_intercalate, List.dropWhile_map]
    rfl
  · have hkept : ∀ t ∈ (operands.filter fun f => !f.isEmpty).map (fun f => "(" ++ f.text ++ ")"),
        ¬t.isEmpty := by
      intro t ht
      obtain ⟨f, -, rfl⟩ := List.mem_map.1 ht
      rw [String.isEmpty_iff, String.append_eq_empty_iff]
      exact fun hboth => absurd hboth.2 (by decide)
    rw [Connective.join, text_join, joinTexts_eq_intercalate, List.map_map]
    exact congrArg _ (dropWhile_isEmpty_of_forall hkept)

/-- An empty part keeps its joiner unless it stands at the start. -/
example :
    (join ", " [raw "", raw "a", raw "", mark (.value .null), raw ""]).text = "a, , ?, " := by
  decide

end Fragment

end BoundSql
