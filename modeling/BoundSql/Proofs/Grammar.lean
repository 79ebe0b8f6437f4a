import BoundSql.Proofs.Outcome
import Mathlib.Data.List.Forall2

/-!
# Readers that follow a grammar

A grammar says what an input denotes or what it is rejected with, and nothing about how it is read.  A
reader follows a grammar (`Follows`) if it gives what an input denotes and fails with what an input is
rejected with, and the grammar leaves no input out.  Then the reader accepts what denotes something and
nothing else, and its errors are those of the grammar (`Follows.eq_ok_iff`, `Follows.eq_error_iff`).

Lists are read from left to right up to the first item that is rejected (`Follows.list`).
-/

namespace BoundSql

variable {ε α β : Type} {denotes : α → β → Prop} {rejected : α → ε → Prop} {read : α → Except ε β}

/-- Whether the first item of a list that is rejected is rejected with `e`: all items before it denote
something. -/
def FirstRejected (denotes : α → β → Prop) (rejected : α → ε → Prop) (xs : List α) (e : ε) : Prop :=
  ∃ before x after, xs = before ++ x :: after ∧ (∀ y ∈ before, ∃ b, denotes y b) ∧ rejected x e

/-- Whether a reader follows a grammar. -/
structure Follows (read : α → Except ε β) (denotes : α → β → Prop) (rejected : α → ε → Prop) :
    Prop where
  ok_of_denotes : ∀ {a b}, denotes a b → read a = .ok b
  error_of_rejected : ∀ {a e}, rejected a e → read a = .error e
  denotes_or_rejected : ∀ a, (∃ b, denotes a b) ∨ ∃ e, rejected a e

/-- If each item of a list denotes something or is rejected, so does the list. -/
theorem forall₂_or_firstRejected {xs : List α}
    (h : ∀ x ∈ xs, (∃ b, denotes x b) ∨ ∃ e, rejected x e) :
    (∃ ys, List.Forall₂ denotes xs ys) ∨ ∃ e, FirstRejected denotes rejected xs e := by
  induction xs with
  | nil => exact Or.inl ⟨[], .nil⟩
  | cons x xs ih =>
    obtain ⟨hx, hxs⟩ := List.forall_mem_cons.1 h
    rcases hx with ⟨b, hb⟩ | ⟨e, he⟩
    · rcases ih hxs with ⟨ys, hys⟩ | ⟨e, before, y, after, rfl, hbefore, hy⟩
      · exact Or.inl ⟨b :: ys, .cons hb hys⟩
      · have hfront : ∀ z ∈ x :: before, ∃ b, denotes z b :=
          List.forall_mem_cons.2 ⟨⟨b, hb⟩, hbefore⟩
        exact Or.inr ⟨e, x :: before, y, after, rfl, hfront, hy⟩
    · have hfront : ∀ z ∈ ([] : List α), ∃ b, denotes z b := fun z hz => absurd hz List.not_mem_nil
      exact Or.inr ⟨e, [], x, xs, rfl, hfront, he⟩

/-- A list denotes something when each of its items does. -/
theorem exists_forall₂_iff {xs : List α} :
    (∃ ys, List.Forall₂ denotes xs ys) ↔ ∀ x ∈ xs, ∃ b, denotes x b := by
  constructor
  · rintro ⟨ys, hys⟩ x hx
    induction hys with
    | nil => cases hx
    | @cons a b as bs hab _ ih =>
      rcases List.mem_cons.1 hx with rfl | hx
      · exact ⟨b, hab⟩
      · exact ih hx
  · intro h
    induction xs with
    | nil => exact ⟨[], .nil⟩
    | cons x xs ih =>
      obtain ⟨⟨b, hb⟩, hxs⟩ := List.forall_mem_cons.1 h
      obtain ⟨ys, hys⟩ := ih hxs
      exact ⟨b :: ys, .cons hb hys⟩

namespace Follows

/-- A reader that follows a grammar accepts what denotes something, as what it denotes. -/
theorem eq_ok_iff (h : Follows read denotes rejected) {a : α} {b : β} :
    read a = .ok b ↔ denotes a b := by
  refine ⟨fun hread => ?_, h.ok_of_denotes⟩
  rcases h.denotes_or_rejected a with ⟨b', hb'⟩ | ⟨e, he⟩
  · rw [h.ok_of_denotes hb'] at hread
    obtain rfl := Except.ok.inj hread
    exact hb'
  · rw [h.error_of_rejected he] at hread
    cases hread

/-- A reader that follows a grammar fails for what is rejected, with the error of the grammar. -/
theorem eq_error_iff (h : Follows read denotes rejected) {a : α} {e : ε} :
    read a = .error e ↔ rejected a e := by
  refine ⟨fun hread => ?_, h.error_of_rejected⟩
  rcases h.denotes_or_rejected a with ⟨b, hb⟩ | ⟨e', he'⟩
  · rw [h.ok_of_denotes hb] at hread
    cases hread
  · rw [h.error_of_rejected he'] at hread
    obtain rfl := Except.error.inj hread
    exact he'

/-- A reader that finds what is denoted, and fails if it finds nothing, follows a grammar in which the rest is
rejected. -/
theorem of_option {find? : α → Option β} {error : α → ε} (hfind : ∀ a b, find? a = some b ↔ denotes a b)
    (hok : ∀ a b, find? a = some b → read a = .ok b)
    (herror : ∀ a, find? a = none → read a = .error (error a)) :
    Follows read denotes fun a e => (∀ b, ¬ denotes a b) ∧ e = error a where
  ok_of_denotes hb := hok _ _ ((hfind _ _).2 hb)
  error_of_rejected := by
    rintro a e ⟨ha, rfl⟩
    apply herror
    exact Option.eq_none_iff_forall_ne_some.2 fun b hb => ha b ((hfind a b).1 hb)
  denotes_or_rejected := by
    intro a
    by_cases ha : ∃ b, denotes a b
    · exact Or.inl ha
    · exact Or.inr ⟨_, not_exists.1 ha, rfl⟩

/-- A list is read item by item, up to the first that is rejected. -/
theorem list (h : Follows read denotes rejected) :
    Follows (List.mapM read) (List.Forall₂ denotes) (FirstRejected denotes rejected) where
  ok_of_denotes hys :=
    Outcome.mapM_eq_ok_of_forall₂ (List.Forall₂.imp (fun _ _ hxy => h.ok_of_denotes hxy) hys)
  error_of_rejected := by
    rintro xs e ⟨before, x, after, rfl, hbefore, hx⟩
    refine Outcome.mapM_eq_error_of_append ?_ (h.error_of_rejected hx)
    intro y hy
    obtain ⟨b, hb⟩ := hbefore y hy
    exact ⟨b, h.ok_of_denotes hb⟩
  denotes_or_rejected xs := forall₂_or_firstRejected fun x _ => h.denotes_or_rejected x

end Follows

end BoundSql
