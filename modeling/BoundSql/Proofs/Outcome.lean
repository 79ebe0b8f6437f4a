import BoundSql.Diagnostics
import Mathlib.Data.List.Basic

/-!
# Outcomes of sequences

What an operation comes to that goes on with the result of another one, and what comes of a list of
operations that are tried from left to right: the first failure, or all results in order
(`Outcome.mapM_eq`).  For operations that report, the outcome of the list is the list of the outcomes
(`Outcome.outcome_mapM`), and every report is one of a member (`Outcome.exists_mem_of_mem_log_mapM`).
-/

namespace BoundSql

namespace Outcome

variable {ε κ α β γ : Type}

/-! ## Outcomes -/

/-- A sequence succeeds when both of its parts do. -/
theorem bind_eq_ok_iff {x : Except ε α} {f : α → Except ε β} {b : β} :
    x >>= f = .ok b ↔ ∃ a, x = .ok a ∧ f a = .ok b := by
  cases x with
  | error e => simp [bind, Except.bind]
  | ok a => simp [bind, Except.bind]

/-- A sequence fails with its first part, or with its second part after the first succeeded. -/
theorem bind_eq_error_iff {x : Except ε α} {f : α → Except ε β} {e : ε} :
    x >>= f = .error e ↔ x = .error e ∨ ∃ a, x = .ok a ∧ f a = .error e := by
  cases x with
  | error e' => simp [bind, Except.bind]
  | ok a => simp [bind, Except.bind]

/-- What has been computed is gone on with. -/
@[simp] theorem ok_bind (a : α) (f : α → Except ε β) : (Except.ok a : Except ε α) >>= f = f a := rfl

/-- After a failure nothing is gone on with. -/
@[simp] theorem error_bind (e : ε) (f : α → Except ε β) :
    (Except.error e : Except ε α) >>= f = .error e := rfl

/-- A function of a result is a result when there is one to apply it to. -/
theorem map_eq_ok_iff {x : Except ε α} {f : α → β} {b : β} :
    x.map f = .ok b ↔ ∃ a, x = .ok a ∧ f a = b := by
  cases x with
  | error e => simp [Except.map]
  | ok a => simp [Except.map]

/-- A function of a result fails when there is no result. -/
theorem map_eq_error_iff {x : Except ε α} {f : α → β} {e : ε} :
    x.map f = .error e ↔ x = .error e := by
  cases x with
  | error e => simp [Except.map]
  | ok a => simp [Except.map]

/-- Outcomes that are alike after a function of each have one failure, or results that are alike. -/
theorem map_eq_map_cases {x : Except ε α} {y : Except ε β} {f : α → γ} {g : β → γ}
    (h : x.map f = y.map g) :
    (∃ e, x = .error e ∧ y = .error e) ∨ ∃ a b, x = .ok a ∧ y = .ok b ∧ f a = g b := by
  cases x with
  | error e =>
    cases y with
    | error e' =>
      obtain rfl := Except.error.inj h
      exact Or.inl ⟨e, rfl, rfl⟩
    | ok b => cases h
  | ok a =>
    cases y with
    | error e => cases h
    | ok b => exact Or.inr ⟨a, b, rfl, rfl, Except.ok.inj h⟩

/-- The failure of an operation, if it fails. -/
def failure? : Except ε α → Option ε
  | .error e => some e
  | .ok _ => none

/-- An operation has a failure when it fails. -/
theorem failure?_eq_some_iff {x : Except ε α} {e : ε} : failure? x = some e ↔ x = .error e := by
  cases x <;> simp [failure?]

/-- An operation has no failure when it succeeds. -/
theorem failure?_eq_none_iff {x : Except ε α} : failure? x = none ↔ ∃ a, x = .ok a := by
  cases x <;> simp [failure?]

/-- Functions that agree on a list find the same first in it. -/
theorem findSome?_congr {f g : α → Option β} {xs : List α} (h : ∀ x ∈ xs, f x = g x) :
    xs.findSome? f = xs.findSome? g := by
  rw [← List.head?_filterMap, ← List.head?_filterMap, List.filterMap_congr h]

/-- What is found first in a list is found at a place before which there is nothing to be found. -/
theorem findSome?_eq_some_iff_getElem? {f : α → Option β} {xs : List α} {b : β} :
    xs.findSome? f = some b ↔
      ∃ (k : Nat) (a : α), xs[k]? = some a ∧ f a = some b ∧
        ∀ (j : Nat) (x : α), j < k → xs[j]? = some x → f x = none := by
  rw [List.findSome?_eq_some_iff]
  constructor
  · rintro ⟨before, a, after, rfl, ha, hbefore⟩
    refine ⟨before.length, a, by simp, ha, ?_⟩
    intro j x hj hx
    rw [List.getElem?_append_left hj] at hx
    exact hbefore x (List.mem_of_getElem? hx)
  · rintro ⟨k, a, hk, ha, hbefore⟩
    obtain ⟨hlt, rfl⟩ := List.getElem?_eq_some_iff.1 hk
    refine ⟨xs.take k, xs[k], xs.drop (k + 1), ?_, ha, ?_⟩
    · rw [List.getElem_cons_drop, List.take_append_drop]
    · intro x hx
      obtain ⟨j, hj⟩ := List.mem_iff_getElem?.1 hx
      rw [List.getElem?_take] at hj
      split at hj
      · rename_i hjk
        exact hbefore j x hjk hj
      · cases hj

/-- If each operation either has a fault or a result, a list of them fails with the first fault, and
without one it has all results. -/
theorem mapM_eq {f : α → Except ε β} {fault? : α → Option κ} {failure : κ → ε}
    {result? : α → Option β} (hfault : ∀ a k, fault? a = some k → f a = .error (failure k))
    (hresult : ∀ a, fault? a = none → ∃ b, result? a = some b ∧ f a = .ok b) (xs : List α) :
    xs.mapM f =
      match xs.findSome? fault? with
      | some k => .error (failure k)
      | none => .ok (xs.filterMap result?) := by
  induction xs with
  | nil => rfl
  | cons x xs ih =>
    rw [List.mapM_cons, List.findSome?_cons]
    cases hx : fault? x with
    | some k => rw [hfault x k hx, error_bind]
    | none =>
      obtain ⟨b, hb, hf⟩ := hresult x hx
      rw [hf, ok_bind, ih, List.filterMap_cons_some hb]
      cases xs.findSome? fault? <;> rfl

/-- Operations that all succeed have their results in order. -/
theorem mapM_eq_ok_of_forall₂ {f : α → Except ε β} {xs : List α} {ys : List β}
    (h : List.Forall₂ (fun x y => f x = .ok y) xs ys) : xs.mapM f = .ok ys := by
  induction h with
  | nil => rfl
  | cons hx hxs ih =>
    rw [List.mapM_cons, hx, ok_bind, ih]
    rfl

/-- Operations fail with the first of them that fails. -/
theorem mapM_eq_error_of_append {f : α → Except ε β} {before after : List α} {x : α} {e : ε}
    (hbefore : ∀ y ∈ before, ∃ b, f y = .ok b) (hx : f x = .error e) :
    (before ++ x :: after).mapM f = .error e := by
  induction before with
  | nil => rw [List.nil_append, List.mapM_cons, hx, error_bind]
  | cons y before ih =>
    obtain ⟨b, hb⟩ := hbefore y List.mem_cons_self
    have hrest : (before ++ x :: after).mapM f = .error e :=
      ih fun z hz => hbefore z (List.mem_cons_of_mem y hz)
    rw [List.cons_append, List.mapM_cons, hb, ok_bind, hrest, error_bind]

/-- Operations of which those in one place agree come to the same. -/
theorem mapM_congr_forall₂ {f : α → Except ε β} {xs ys : List α}
    (h : List.Forall₂ (fun x y => f x = f y) xs ys) : xs.mapM f = ys.mapM f := by
  induction h with
  | nil => rfl
  | cons hx hxs ih => rw [List.mapM_cons, List.mapM_cons, hx, ih]

/-- What a list of operations results in are results of its members. -/
theorem exists_mem_of_mem_mapM {f : α → Except ε β} {xs : List α} {ys : List β}
    (h : xs.mapM f = .ok ys) {y : β} (hy : y ∈ ys) : ∃ x ∈ xs, f x = .ok y := by
  induction xs generalizing ys with
  | nil =>
    obtain rfl := Except.ok.inj h
    cases hy
  | cons x xs ih =>
    rw [List.mapM_cons] at h
    obtain ⟨b, hb, hrest⟩ := bind_eq_ok_iff.1 h
    obtain ⟨bs, hbs, hys⟩ := bind_eq_ok_iff.1 hrest
    obtain rfl := Except.ok.inj hys
    rcases List.mem_cons.1 hy with rfl | hy
    · exact ⟨x, List.mem_cons_self, hb⟩
    · obtain ⟨x', hx', hf⟩ := ih hbs hy
      exact ⟨x', List.mem_cons_of_mem x hx', hf⟩

/-! ## Reports -/

/-- The outcome of operations that report does not depend on the reports. -/
theorem outcome_mapM (f : α → Traced β) (xs : List α) :
    (xs.mapM f).outcome = xs.mapM fun x => (f x).outcome := by
  induction xs with
  | nil => rfl
  | cons x xs ih =>
    rw [List.mapM_cons, List.mapM_cons, Traced.outcome_bind]
    refine congrArg (Except.bind (f x).outcome) (funext fun b => ?_)
    rw [Traced.outcome_bind, ih]
    rfl

/-- A function of a result reports nothing more. -/
theorem log_bind_pure (t : Traced α) (f : α → β) : (t >>= fun a => pure (f a)).log = t.log := by
  cases ht : t.outcome with
  | error e => exact Traced.log_bind_of_error ht _
  | ok a => rw [Traced.log_bind_of_ok ht, Traced.log_pure, List.append_nil]

/-- The members of a list up to the first that passes a test, that one included. -/
def upToFirst (test : α → Bool) : List α → List α
  | [] => []
  | x :: xs => if test x then [x] else x :: upToFirst test xs

/-- Tests that agree on a list find the same first in it. -/
theorem upToFirst_congr {test test' : α → Bool} {xs : List α} (h : ∀ x ∈ xs, test x = test' x) :
    upToFirst test xs = upToFirst test' xs := by
  induction xs with
  | nil => rfl
  | cons x xs ih =>
    have hrest := ih fun y hy => h y (List.mem_cons_of_mem x hy)
    rw [upToFirst, upToFirst, h x List.mem_cons_self, hrest]

/-- If only some members of a list report, each of these one thing, then the list reports what these
members do, up to the first that fails. -/
theorem log_mapM_eq {f : α → Traced β} {member? : α → Option κ} {fails : κ → Bool}
    {report : κ → Diagnostic}
    (hsilent : ∀ a, member? a = none → (f a).log = [] ∧ ∃ b, (f a).outcome = .ok b)
    (hreport : ∀ a k, member? a = some k →
      (f a).log = [report k] ∧ (failure? (f a).outcome).isSome = fails k) (xs : List α) :
    (xs.mapM f).log = (upToFirst fails (xs.filterMap member?)).map report := by
  induction xs with
  | nil => rfl
  | cons x xs ih =>
    rw [List.mapM_cons]
    cases hx : member? x with
    | none =>
      obtain ⟨hlog, b, hb⟩ := hsilent x hx
      rw [Traced.log_bind_of_ok hb, log_bind_pure, hlog, ih, List.filterMap_cons_none hx,
        List.nil_append]
    | some k =>
      obtain ⟨hlog, hfails⟩ := hreport x k hx
      rw [List.filterMap_cons_some hx, upToFirst, ← hfails]
      cases hout : (f x).outcome with
      | error e =>
        rw [Traced.log_bind_of_error hout, hlog]
        rfl
      | ok b =>
        rw [Traced.log_bind_of_ok hout, log_bind_pure, hlog, ih]
        rfl

/-- A sequence reports what its parts report. -/
theorem mem_log_bind {t : Traced α} {f : α → Traced β} {d : Diagnostic} (h : d ∈ (t >>= f).log) :
    d ∈ t.log ∨ ∃ a, t.outcome = .ok a ∧ d ∈ (f a).log := by
  cases ht : t.outcome with
  | error e =>
    rw [Traced.log_bind_of_error ht] at h
    exact Or.inl h
  | ok a =>
    rw [Traced.log_bind_of_ok ht, List.mem_append] at h
    exact h.imp_right fun ha => ⟨a, rfl, ha⟩

/-- A list of operations reports what its members report. -/
theorem exists_mem_of_mem_log_mapM {f : α → Traced β} {xs : List α} {d : Diagnostic}
    (h : d ∈ (xs.mapM f).log) : ∃ x ∈ xs, d ∈ (f x).log := by
  induction xs with
  | nil => cases h
  | cons x xs ih =>
    rw [List.mapM_cons] at h
    rcases mem_log_bind h with hx | ⟨b, -, hb⟩
    · exact ⟨x, List.mem_cons_self, hx⟩
    · rcases mem_log_bind hb with hxs | ⟨bs, -, hbs⟩
      · obtain ⟨y, hy, hd⟩ := ih hxs
        exact ⟨y, List.mem_cons_of_mem x hy, hd⟩
      · cases hbs

end Outcome

end BoundSql
