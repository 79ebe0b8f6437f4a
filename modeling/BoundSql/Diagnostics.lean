import BoundSql.Error

/-!
# Diagnostics

Some operations report what they do: which placeholders they look up, which conditions they compile,
which statements they generate and send.  `Traced` is the result of such an operation together with
its reports, in order.  The reports that an operation made before it failed are kept.
-/

namespace BoundSql

/-- A way of running a statement. -/
inductive Action
  | execute
  | fetchAll
  | fetchOne
  | fetchOptional
  deriving DecidableEq

/-- A report of an operation; no bound value is part of any. -/
inductive Diagnostic
  /-- A placeholder was looked up; `bound` says whether more than its own default was found. -/
  | resolving (level : Level) (key : Key) (bound : Bool)
  | compiled (sql : String) (values : Nat)
  | generated (sql : String) (values : Nat)
  | running (action : Action) (sql : String) (values : Nat)
  deriving DecidableEq

namespace Action

/-- What is reported when a statement is about to be run in this way. -/
def message : Action → String
  | .execute => "executing statement"
  | .fetchAll => "fetching rows"
  | .fetchOne => "fetching one row"
  | .fetchOptional => "fetching optional row"

end Action

namespace Diagnostic

/-- The text of a report, without its details. -/
def message : Diagnostic → String
  | .resolving _ _ _ => "resolving placeholder"
  | .compiled _ _ => "compiled where expression"
  | .generated _ _ => "generated statement"
  | .running action _ _ => action.message

end Diagnostic

/-- The outcome of an operation and what it reported on the way. -/
structure Traced (α : Type) where
  log : List Diagnostic
  outcome : Except Error α

namespace Traced

variable {α β : Type}

/-- A result without reports. -/
def ofExcept (r : Except Error α) : Traced α := ⟨[], r⟩

/-- One report. -/
def emit (d : Diagnostic) : Traced Unit := ⟨[d], .ok ()⟩

/-- Goes on with the result of an operation, if it has one. -/
def andThen (t : Traced α) (f : α → Traced β) : Traced β :=
  match t.outcome with
  | .ok a => ⟨t.log ++ (f a).log, (f a).outcome⟩
  | .error e => ⟨t.log, .error e⟩

instance : Monad Traced where
  pure a := ofExcept (.ok a)
  bind := andThen

@[simp] theorem log_pure (a : α) : (pure a : Traced α).log = [] := rfl

@[simp] theorem outcome_pure (a : α) : (pure a : Traced α).outcome = .ok a := rfl

@[simp] theorem outcome_bind (t : Traced α) (f : α → Traced β) :
    (t >>= f).outcome = t.outcome.bind fun a => (f a).outcome := by
  change (andThen t f).outcome = _
  unfold andThen
  cases t.outcome <;> rfl

theorem log_bind_of_ok {t : Traced α} {a : α} (h : t.outcome = .ok a) (f : α → Traced β) :
    (t >>= f).log = t.log ++ (f a).log := by
  change (andThen t f).log = _
  simp [andThen, h]

theorem log_bind_of_error {t : Traced α} {e : Error} (h : t.outcome = .error e) (f : α → Traced β) :
    (t >>= f).log = t.log := by
  change (andThen t f).log = _
  simp [andThen, h]

theorem andThen_assoc {γ : Type} (t : Traced α) (f : α → Traced β) (g : β → Traced γ) :
    (t.andThen f).andThen g = t.andThen fun a => (f a).andThen g := by
  obtain ⟨log, outcome⟩ := t
  cases outcome with
  | error e => simp [andThen]
  | ok a =>
    simp only [andThen]
    cases (f a).outcome <;> simp

instance : LawfulMonad Traced := LawfulMonad.mk' Traced
  (fun ⟨log, outcome⟩ => by cases outcome <;> simp [Functor.map, andThen, ofExcept])
  (fun a f => by simp [bind, pure, andThen, ofExcept])
  andThen_assoc

end Traced

end BoundSql
