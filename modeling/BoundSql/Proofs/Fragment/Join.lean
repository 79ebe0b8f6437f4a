import BoundSql.Fragment.Basic
import Mathlib.Algebra.GroupWithZero.Nat

/-!
# Joined texts in closed form

`Fragment.joinTexts` decides about its joiner by the text so far and not by the place in the list.  In
closed form it drops the texts before the first one that is not empty and puts the joiner before every
later text, be that text empty or not (`Fragment.joinTexts_cons`).  So whatever adds up over texts, as the
marks and the length do, adds up over joined texts and their joiners (`Fragment.measure_joinTexts`).
-/

namespace BoundSql

namespace Fragment

/-- The number of joiners that stand in joined texts. -/
def joinerCount (texts : List String) : Nat := (texts.dropWhile String.isEmpty).length - 1

/-- The joiners that are put into a text so far when some texts are appended to it. -/
def insertedJoiners (joiner sofar : String) : List String → List String
  | [] => []
  | t :: texts =>
    if sofar.isEmpty then insertedJoiners joiner (joinNext joiner sofar t) texts
    else joiner :: insertedJoiners joiner (joinNext joiner sofar t) texts

/-- Once there is a text, what follows comes with its joiner. -/
theorem joinNext_of_ne_empty {sofar : String} (h : sofar ≠ "") (joiner next : String) :
    joinNext joiner sofar next = sofar ++ (joiner ++ next) := by
  rw [joinNext, if_neg (by rwa [String.isEmpty_iff]), String.append_assoc]

/-- Once there is a text, it stays. -/
theorem joinNext_ne_empty {sofar : String} (h : sofar ≠ "") (joiner next : String) :
    joinNext joiner sofar next ≠ "" := by
  rw [joinNext_of_ne_empty h, Ne, String.append_eq_empty_iff]
  exact fun he => h he.1

/-- Once there is a text, every further one comes with its joiner. -/
theorem foldl_joinNext {sofar : String} (h : sofar ≠ "") (joiner : String) (texts : List String) :
    texts.foldl (joinNext joiner) sofar = sofar ++ String.join (texts.map (joiner ++ ·)) := by
  induction texts generalizing sofar with
  | nil => simp
  | cons t texts ih =>
    rw [List.foldl_cons, ih (joinNext_ne_empty h joiner t), joinNext_of_ne_empty h, List.map_cons,
      String.join_cons, String.append_assoc]

/-- Once there is a text, as many joiners are put into it as texts follow. -/
theorem insertedJoiners_of_ne_empty {sofar : String} (h : sofar ≠ "") (joiner : String)
    (texts : List String) :
    insertedJoiners joiner sofar texts = List.replicate texts.length joiner := by
  induction texts generalizing sofar with
  | nil => rfl
  | cons t texts ih =>
    rw [insertedJoiners, if_neg (by rwa [String.isEmpty_iff]), ih (joinNext_ne_empty h joiner t),
      List.length_cons, List.replicate_succ]

/-- The joiners of joined texts are as many as `joinerCount` says. -/
theorem insertedJoiners_empty (joiner : String) (texts : List String) :
    insertedJoiners joiner "" texts = List.replicate (joinerCount texts) joiner := by
  induction texts with
  | nil => rfl
  | cons t texts ih =>
    have hnext : insertedJoiners joiner "" (t :: texts) = insertedJoiners joiner t texts := rfl
    rw [hnext, joinerCount]
    by_cases h : t = ""
    · rw [h, ih, List.dropWhile_cons_of_pos rfl, joinerCount]
    · rw [insertedJoiners_of_ne_empty h, List.dropWhile_cons_of_neg (by rwa [String.isEmpty_iff])]
      rfl

/-- Nothing joined is nothing. -/
@[simp] theorem joinTexts_nil (joiner : String) : joinTexts joiner [] = "" := rfl

/-- An empty text at the start leaves no joiner behind; after another one each text has its joiner. -/
theorem joinTexts_cons (joiner t : String) (texts : List String) :
    joinTexts joiner (t :: texts) =
      if t = "" then joinTexts joiner texts else t ++ String.join (texts.map (joiner ++ ·)) := by
  by_cases h : t = ""
  · rw [if_pos h, h]
    rfl
  · rw [if_neg h, joinTexts, List.foldl_cons]
    have hfirst : joinNext joiner "" t = t := rfl
    rw [hfirst, foldl_joinNext h]

/-- Without a joiner the texts follow one another. -/
theorem joinTexts_empty (texts : List String) : joinTexts "" texts = String.join texts := by
  induction texts with
  | nil => simp
  | cons t texts ih =>
    rw [joinTexts_cons, String.join_cons, ih]
    by_cases h : t = ""
    · rw [if_pos h, h, String.empty_append]
    · have hid : texts.map (fun s => "" ++ s) = texts := by simp
      rw [if_neg h, hid]

/-! ## What adds up over joined texts -/

section

variable {measure : String → Nat} (hempty : measure "" = 0)
  (happend : ∀ s t, measure (s ++ t) = measure s + measure t)

include hempty happend

/-- What adds up over two texts adds up over texts that follow one another. -/
theorem measure_stringJoin (texts : List String) :
    measure (String.join texts) = (texts.map measure).sum := by
  induction texts with
  | nil => exact hempty
  | cons t texts ih => rw [String.join_cons, happend, ih, List.map_cons, List.sum_cons]

/-- What adds up over two texts adds up over texts that each have a joiner before them. -/
theorem measure_stringJoin_map (joiner : String) (texts : List String) :
    measure (String.join (texts.map (joiner ++ ·))) =
      (texts.map measure).sum + texts.length * measure joiner := by
  induction texts with
  | nil => simp [hempty]
  | cons t texts ih =>
    rw [List.map_cons, String.join_cons, happend, happend, ih, List.map_cons, List.sum_cons,
      List.length_cons, Nat.add_mul]
    omega

/-- What adds up over two texts adds up over joined texts and the joiners between them. -/
theorem measure_joinTexts (joiner : String) (texts : List String) :
    measure (joinTexts joiner texts) =
      (texts.map measure).sum + joinerCount texts * measure joiner := by
  induction texts with
  | nil => simp [joinerCount, hempty]
  | cons t texts ih =>
    rw [joinTexts_cons, List.map_cons, List.sum_cons]
    by_cases h : t = ""
    · have hdrop : joinerCount (t :: texts) = joinerCount texts := by
        rw [joinerCount, joinerCount, List.dropWhile_cons_of_pos (by rw [h]; rfl)]
      rw [if_pos h, ih, hdrop, h, hempty, Nat.zero_add]
    · have hkeep : joinerCount (t :: texts) = texts.length := by
        rw [joinerCount, List.dropWhile_cons_of_neg (by rwa [String.isEmpty_iff])]
        rfl
      rw [if_neg h, happend, measure_stringJoin_map hempty happend, hkeep, Nat.add_assoc]

end

/-- The marks of texts that follow one another. -/
theorem markCount_stringJoin (texts : List String) :
    markCount (String.join texts) = (texts.map markCount).sum :=
  measure_stringJoin markCount_empty markCount_append texts

/-- The marks of joined texts are those of the texts and those of the joiners between them. -/
theorem markCount_joinTexts (joiner : String) (texts : List String) :
    markCount (joinTexts joiner texts) =
      (texts.map markCount).sum + joinerCount texts * markCount joiner :=
  measure_joinTexts markCount_empty markCount_append joiner texts

/-- Parts that are joined without a joiner have the marks of all of them. -/
theorem markCount_join_empty (parts : List Fragment) :
    markCount (join "" parts).text = (parts.map fun p => markCount p.text).sum := by
  rw [text_join, joinTexts_empty, markCount_stringJoin, List.map_map]
  rfl

/-- Joined parts have the arguments of all of them. -/
theorem length_args_join (joiner : String) (parts : List Fragment) :
    (join joiner parts).args.length = (parts.map fun p => p.args.length).sum :=
  List.length_flatMap

end Fragment

end BoundSql
