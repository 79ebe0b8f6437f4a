import Mathlib.Data.List.Basic

/-!
# Balanced parentheses

A text is `Balanced` if no beginning of it closes more parentheses than it opens and the whole text
closes as many as it opens.  Such a text in parentheses ends at a place that the text itself determines:
if two texts begin with an opening parenthesis, a balanced text and a closing one, these balanced texts
are the same, and so is what follows (`Balanced.eq_of_enclosed_eq`).
-/

namespace BoundSql

/-- A text whose parentheses are balanced. -/
structure Balanced (s : String) : Prop where
  closed_le_opened : ∀ u v, s.toList = u ++ v → u.count ')' ≤ u.count '('
  closed_eq_opened : s.toList.count ')' = s.toList.count '('

/-- A text in parentheses, and what follows it. -/
def enclosed (inner tail : String) : String := "(" ++ inner ++ ")" ++ tail

/-- The characters of a text in parentheses and of what follows it. -/
theorem toList_enclosed (inner tail : String) :
    (enclosed inner tail).toList = '(' :: (inner.toList ++ ')' :: tail.toList) := by
  simp [enclosed]

/-- A text that begins with a parenthesis is not empty. -/
theorem enclosed_ne_empty (inner tail : String) : enclosed inner tail ≠ "" := by
  intro h
  have hlist := congrArg String.toList h
  rw [toList_enclosed] at hlist
  exact List.cons_ne_nil _ _ hlist

/-- The parentheses that an opening one adds to. -/
theorem count_open_cons (cs : List Char) :
    ('(' :: cs).count '(' = cs.count '(' + 1 ∧ ('(' :: cs).count ')' = cs.count ')' :=
  ⟨List.count_cons_self, List.count_cons_of_ne (by decide)⟩

/-- The parentheses that a closing one adds to. -/
theorem count_close_cons (cs : List Char) :
    (')' :: cs).count '(' = cs.count '(' ∧ (')' :: cs).count ')' = cs.count ')' + 1 :=
  ⟨List.count_cons_of_ne (by decide), List.count_cons_self⟩

namespace Balanced

/-- A text without parentheses is balanced. -/
theorem of_not_mem {s : String} (hopen : '(' ∉ s.toList) (hclose : ')' ∉ s.toList) : Balanced s where
  closed_le_opened u v huv := by
    have hu : ')' ∉ u := fun h => hclose (huv ▸ List.mem_append_left v h)
    rw [List.count_eq_zero_of_not_mem hu]
    exact Nat.zero_le _
  closed_eq_opened := by
    rw [List.count_eq_zero_of_not_mem hopen, List.count_eq_zero_of_not_mem hclose]

/-- Balanced texts one after the other are balanced. -/
theorem append {s t : String} (hs : Balanced s) (ht : Balanced t) : Balanced (s ++ t) where
  closed_le_opened u v huv := by
    rw [String.toList_append] at huv
    rcases List.append_eq_append_iff.1 huv with ⟨w, rfl, hw⟩ | ⟨w, hw, -⟩
    · -- The beginning reaches into the second text.
      have hle := ht.closed_le_opened w v hw
      have heq := hs.closed_eq_opened
      rw [List.count_append, List.count_append]
      omega
    · exact hs.closed_le_opened u w hw
  closed_eq_opened := by
    rw [String.toList_append, List.count_append, List.count_append, hs.closed_eq_opened,
      ht.closed_eq_opened]

/-- A balanced text in parentheses is balanced. -/
theorem parenthesized {s : String} (hs : Balanced s) : Balanced ("(" ++ s ++ ")") := by
  have hlist : ("(" ++ s ++ ")").toList = '(' :: (s.toList ++ [')']) := by
    simp
  have heq := hs.closed_eq_opened
  refine ⟨?_, ?_⟩
  · intro u v huv
    rw [hlist] at huv
    cases u with
    | nil => exact Nat.le_refl _
    | cons c u =>
      obtain ⟨rfl, hrest⟩ := List.cons.inj huv
      obtain ⟨hopen, hclose⟩ := count_open_cons u
      rw [hopen, hclose]
      rcases List.append_eq_append_iff.1 hrest with ⟨w, rfl, hw⟩ | ⟨w, hw, -⟩
      · -- The beginning holds the whole text, and one closing parenthesis after it at most.
        have hone : [')'].count ')' = w.count ')' + v.count ')' := by
          rw [hw, List.count_append]
        have hlast : [')'].count ')' = 1 := rfl
        rw [List.count_append, List.count_append]
        omega
      · have hle := hs.closed_le_opened u w hw
        omega
  · rw [hlist, (count_open_cons _).1, (count_open_cons _).2, List.count_append, List.count_append,
      heq]
    rfl

/-- A balanced text in parentheses is balanced, also with a balanced text after it. -/
theorem enclosed {inner tail : String} (hinner : Balanced inner) (htail : Balanced tail) :
    Balanced (enclosed inner tail) :=
  hinner.parenthesized.append htail

/-- A balanced text does not go on after a closing parenthesis where another one has ended. -/
theorem eq_nil_of_toList_eq_append {s t : String} (hs : Balanced s) (ht : Balanced t)
    {u r r' : List Char} (hsu : t.toList = s.toList ++ u) (hu : ')' :: r = u ++ ')' :: r') :
    u = [] := by
  cases u with
  | nil => rfl
  | cons c u =>
    obtain ⟨rfl, -⟩ := List.cons.inj hu
    have hle := ht.closed_le_opened (s.toList ++ [')']) u (by rw [hsu, List.append_assoc]; rfl)
    have heq := hs.closed_eq_opened
    obtain ⟨hopen, hclose⟩ := count_close_cons []
    rw [List.count_append, List.count_append] at hle
    simp only [List.count_nil] at hopen hclose
    omega

/-- A balanced text in parentheses is found again at the beginning of a text. -/
theorem eq_of_enclosed_eq {s t tail tail' : String} (hs : Balanced s) (ht : Balanced t)
    (h : BoundSql.enclosed s tail = BoundSql.enclosed t tail') : s = t ∧ tail = tail' := by
  have hlist := congrArg String.toList h
  rw [toList_enclosed, toList_enclosed] at hlist
  have hrest := (List.cons.inj hlist).2
  have hst : s.toList = t.toList := by
    rcases List.append_eq_append_iff.1 hrest with ⟨u, htu, hu⟩ | ⟨u, hsu, hu⟩
    · rw [htu, eq_nil_of_toList_eq_append hs ht htu hu, List.append_nil]
    · rw [hsu, eq_nil_of_toList_eq_append ht hs hsu hu, List.append_nil]
  rw [hst] at hrest
  have htail := (List.cons.inj (List.append_cancel_left hrest)).2
  exact ⟨String.toList_injective hst, String.toList_injective htail⟩

end Balanced

end BoundSql
