import BoundSql.Proofs.Database.Exchanges
import BoundSql.Scenario.Transfers
import Mathlib.Data.List.Basic

/-!
# What a transfer exchanges

Each transfer plans three requests, its `Transfer.steps`: a debit, a look at the balance and a credit, each
with the replies that it accepts.  The exchanges of a transaction follow the steps of its transfers
(`Transfers.Follows`): they end after the first reply that is not accepted, and the transaction is committed
exactly if there is none (`Transfers.Transaction`).
-/

namespace BoundSql

namespace Scenario

namespace Transfers

/-! ## The statements of a transfer -/

/-- The statement that adds to the balance of an account. -/
def adjustment (account amount : Int32) : Statement :=
  ⟨"update accounts\nset balance = balance + ?\nwhere id = ?", [intValue amount, intValue account]⟩

/-- The statement that asks for the balance of an account. -/
def inquiry (account : Int32) : Statement :=
  ⟨"select balance\nfrom accounts\n\nwhere id = ?\n\n", [intValue account]⟩

/-- The templates of the scenario. -/
def templates : TransferTemplates where
  adjustment := .update (.text "accounts")
    [("balance", .fragment ⟨"balance + ?", [.placeholder (.ofKey (.name "delta"))]⟩)]
    (.fragment ⟨"where id = ?", [.placeholder (.ofKey (.name "id"))]⟩)
  inquiry := (((Selection.ofTable (.text "accounts")).addColumn "balance").setCondition
    (.fragment ⟨"where id = ?", [.placeholder (.ofKey (.name "id"))]⟩)).build

/-- The templates are made without an error. -/
theorem make_eq_ok : TransferTemplates.make = .ok templates := by
  have hsum : Fragment.ofNamed "balance + :delta" =
      .ok ⟨"balance + ?", [.placeholder (.ofKey (.name "delta"))]⟩ := by cbv
  have hid : Fragment.ofNamed "where id = :id" =
      .ok ⟨"where id = ?", [.placeholder (.ofKey (.name "id"))]⟩ := by cbv
  rw [TransferTemplates.make, hsum, hid]
  rfl

/-- An account is adjusted by one exchange. -/
theorem adjust_meets {account amount : Int32} {P : List Exchange → Except Failure Summary → Prop}
    (h : ∀ reply : Reply, P [⟨.sent .transaction (adjustment account amount).sql
      (adjustment account amount).values, reply⟩]
        ((reply.summary.mapError .database).mapError .library)) :
    (adjust templates account amount).Meets P := by
  unfold adjust
  refine .bind (.mapError (.ofTraced ?_))
  exact .mapError (.run h)

/-- The balance of an account is found by one exchange. -/
theorem balance_meets {account : Int32} {P : List Exchange → Except Failure Int32 → Prop}
    (h : ∀ reply : Reply, P [⟨.sent .transaction (inquiry account).sql (inquiry account).values, reply⟩]
      (((reply.first fun row => row.int (.index 0)).mapError .database).mapError .library)) :
    (balance templates account).Meets P := by
  unfold balance
  refine .bind (.mapError (.ofTraced ?_))
  exact .mapError (.run h)

/-! ## The steps of a transfer -/

/-- Whether a reply says that a row was changed. -/
def ChangesRow (reply : Reply) : Prop := ∃ summary, reply.summary = .ok summary ∧ summary.affected ≠ 0

/-- Whether a reply shows a balance that is not negative. -/
def ShowsFunds (reply : Reply) : Prop :=
  ∃ n, (reply.first fun row => row.int (.index 0)) = .ok n ∧ ¬ n < 0

/-- A statement that is sent in a transaction, and the replies after which the transaction goes on. -/
structure Step where
  statement : Statement
  Accepts : Reply → Prop

/-- The request of a step. -/
def Step.request (p : Step) : Event := .sent .transaction p.statement.sql p.statement.values

/-- The steps of a transfer: the debit has to change a row, the balance must not be negative then, and the
credit has to change a row. -/
def Transfer.steps (t : Transfer) : List Step :=
  [⟨adjustment t.source (-t.amount), ChangesRow⟩, ⟨inquiry t.source, ShowsFunds⟩,
    ⟨adjustment t.destination t.amount, ChangesRow⟩]

/-- The exchanges that follow some steps, and whether all steps were taken: the requests are those of the
steps in order, and the first reply that is not accepted is the last one. -/
inductive Follows : List Step → List Exchange → Bool → Prop
  | finished : Follows [] [] true
  | stopped {p : Step} {ps : List Step} {reply : Reply} (hreply : ¬ p.Accepts reply) :
      Follows (p :: ps) [⟨p.request, reply⟩] false
  | step {p : Step} {ps : List Step} {reply : Reply} {xs : List Exchange} {all : Bool}
      (hreply : p.Accepts reply) (hrest : Follows ps xs all) :
      Follows (p :: ps) (⟨p.request, reply⟩ :: xs) all

/-- Further steps are followed after all of the first ones were taken. -/
theorem Follows.append {ps qs : List Step} {xs ys : List Exchange} {all : Bool}
    (hxs : Follows ps xs true) (hys : Follows qs ys all) : Follows (ps ++ qs) (xs ++ ys) all := by
  generalize hall : true = done at hxs
  induction hxs with
  | finished => exact hys
  | stopped hreply => cases hall
  | step hreply hrest ih => exact .step hreply (ih hall)

/-- Where a step was refused, further steps play no role. -/
theorem Follows.append_of_false {ps : List Step} {xs : List Exchange} (h : Follows ps xs false)
    (qs : List Step) : Follows (ps ++ qs) xs false := by
  generalize hall : false = done at h
  induction h with
  | finished => cases hall
  | stopped hreply => exact .stopped hreply
  | step hreply hrest ih => exact .step hreply (ih hall)

/-- Whether an exchange is a statement that is sent on a channel. -/
def IsOn (on : Channel) (x : Exchange) : Prop := ∃ sql args, x.request = .sent on sql args

/-- A step that was taken: its request was made, and its reply is accepted. -/
def Step.IsTaken (p : Step) (x : Exchange) : Prop := x.request = p.request ∧ p.Accepts x.reply

namespace Follows

variable {ps : List Step} {xs : List Exchange} {all : Bool}

/-- Only requests of the steps are made, in their order. -/
theorem requests_prefix (h : Follows ps xs all) :
    xs.map Exchange.request <+: ps.map Step.request := by
  induction h with
  | finished => exact List.prefix_rfl
  | stopped hreply => exact ⟨_, rfl⟩
  | step hreply hrest ih => exact (List.prefix_cons_inj _).2 ih

/-- All statements are sent in the transaction. -/
theorem isOn (h : Follows ps xs all) : ∀ x ∈ xs, IsOn .transaction x := by
  induction h with
  | finished => exact List.forall_mem_nil _
  | stopped hreply =>
    intro x hx
    obtain rfl := List.mem_singleton.1 hx
    exact ⟨_, _, rfl⟩
  | step hreply hrest ih =>
    intro x hx
    rcases List.mem_cons.1 hx with rfl | hx
    · exact ⟨_, _, rfl⟩
    · exact ih x hx

/-- When all steps were taken, each of them was. -/
theorem forall₂ (h : Follows ps xs true) : List.Forall₂ Step.IsTaken ps xs := by
  generalize hall : true = done at h
  induction h with
  | finished => exact .nil
  | stopped hreply => cases hall
  | step hreply hrest ih => exact .cons ⟨rfl, hreply⟩ (ih hall)

/-- When not all steps were taken, the last reply is not accepted. -/
theorem exists_refused (h : Follows ps xs false) :
    ∃ front x p, xs = front ++ [x] ∧ ps[front.length]? = some p ∧ ¬ p.Accepts x.reply := by
  generalize hall : false = done at h
  induction h with
  | finished => cases hall
  | @stopped p ps reply hreply => exact ⟨[], _, p, rfl, rfl, hreply⟩
  | @step p ps reply xs all hreply hrest ih =>
    obtain ⟨front, x, q, rfl, hq, hrefused⟩ := ih hall
    exact ⟨⟨p.request, reply⟩ :: front, x, q, rfl, hq, hrefused⟩

/-- The reply that a step does not accept is the last one, and not all steps are taken then. -/
theorem eq_nil_of_not_accepts (h : Follows ps xs all) {front back : List Exchange} {x : Exchange}
    (hxs : xs = front ++ x :: back) {p : Step} (hp : ps[front.length]? = some p)
    (hreply : ¬ p.Accepts x.reply) : back = [] ∧ all = false := by
  induction h generalizing front with
  | finished => cases front <;> cases hxs
  | stopped _ =>
    cases front with
    | nil => exact ⟨(List.cons.inj hxs).2.symm, rfl⟩
    | cons y front => cases front <;> cases (List.cons.inj hxs).2
  | step haccepts _ ih =>
    cases front with
    | nil =>
      obtain ⟨rfl, -⟩ := List.cons.inj hxs
      obtain rfl := Option.some.inj hp
      exact absurd haccepts hreply
    | cons y front => exact ih (List.cons.inj hxs).2 hp

end Follows

/-! ## What a transfer exchanges -/

/-- A refusal exchanges nothing and ends what it is part of. -/
theorem refuse_bind_meets {α β : Type} (cause : Refusal) (f : α → Script β) :
    (refuse cause >>= f).Meets fun xs r => xs = [] ∧ r.isOk = false :=
  .bind (.ofExcept ⟨rfl, rfl⟩)

/-- A session takes a step if it makes the request of the step, and then either goes on with the steps that
are left, if the reply is accepted, or ends without further exchange, if it is not. -/
theorem follows_of_step {α : Type} {s : Script α} {f : α → Script Unit} {p : Step} {ps : List Step}
    (h : s.Meets fun xs r => ∃ reply, xs = [⟨p.request, reply⟩] ∧
      match r with
      | .error _ => ¬ p.Accepts reply
      | .ok a => (p.Accepts reply ∧ (f a).Meets fun ys r' => Follows ps ys r'.isOk) ∨
          (¬ p.Accepts reply ∧ (f a).Meets fun ys r' => ys = [] ∧ r'.isOk = false)) :
    (s >>= f).Meets fun xs r => Follows (p :: ps) xs r.isOk := by
  refine .bind (h.imp fun xs r hr => ?_)
  obtain ⟨reply, rfl, hreply⟩ := hr
  cases r with
  | error e => exact .stopped hreply
  | ok a =>
    rcases hreply with ⟨haccepts, hrest⟩ | ⟨hrefuses, hend⟩
    · exact hrest.imp fun ys r' hys => .step haccepts hys
    · refine hend.imp fun ys r' hys => ?_
      obtain ⟨rfl, hfails⟩ := hys
      rw [hfails]
      exact .stopped hrefuses

/-- An adjustment that changes no row is refused. -/
theorem follows_of_adjust {account amount : Int32} {cause : Refusal} {rest : Script Unit}
    {ps : List Step} (h : rest.Meets fun xs r => Follows ps xs r.isOk) :
    (adjust templates account amount >>= fun summary =>
      if summary.affected = 0 then refuse cause >>= fun _ : Unit => rest else rest).Meets fun xs r =>
        Follows (⟨adjustment account amount, ChangesRow⟩ :: ps) xs r.isOk := by
  refine follows_of_step (adjust_meets fun reply => ⟨reply, rfl, ?_⟩)
  cases hsummary : reply.summary with
  | error e =>
    rintro ⟨summary, hok, -⟩
    rw [hsummary] at hok
    cases hok
  | ok summary =>
    change (ChangesRow reply ∧ _) ∨ (¬ ChangesRow reply ∧ _)
    by_cases hzero : summary.affected = 0
    · refine Or.inr ⟨?_, ?_⟩
      · rintro ⟨summary', hok, hne⟩
        rw [hsummary] at hok
        obtain rfl := Except.ok.inj hok
        exact hne hzero
      · rw [if_pos hzero]
        exact refuse_bind_meets cause _
    · refine Or.inl ⟨⟨summary, hsummary, hzero⟩, ?_⟩
      rw [if_neg hzero]
      exact h

/-- A balance that is negative is refused. -/
theorem follows_of_balance {account : Int32} {cause : Int32 → Refusal} {rest : Script Unit}
    {ps : List Step} (h : rest.Meets fun xs r => Follows ps xs r.isOk) :
    (balance templates account >>= fun n =>
      if n < 0 then refuse (cause n) >>= fun _ : Unit => rest else rest).Meets fun xs r =>
        Follows (⟨inquiry account, ShowsFunds⟩ :: ps) xs r.isOk := by
  refine follows_of_step (balance_meets fun reply => ⟨reply, rfl, ?_⟩)
  cases hfirst : reply.first fun row => row.int (.index 0) with
  | error e =>
    rintro ⟨n, hok, -⟩
    rw [hfirst] at hok
    cases hok
  | ok n =>
    change (ShowsFunds reply ∧ _) ∨ (¬ ShowsFunds reply ∧ _)
    by_cases hnegative : n < 0
    · refine Or.inr ⟨?_, ?_⟩
      · rintro ⟨n', hok, hn'⟩
        rw [hfirst] at hok
        obtain rfl := Except.ok.inj hok
        exact hn' hnegative
      · rw [if_pos hnegative]
        exact refuse_bind_meets (cause n) _
    · refine Or.inl ⟨⟨n, hfirst, hnegative⟩, ?_⟩
      rw [if_neg hnegative]
      exact h

/-- A transfer follows its steps, and fails if one of them is refused. -/
theorem transfer_follows (t : Transfer) :
    (transfer templates t).Meets fun xs r => Follows t.steps xs r.isOk := by
  have hend : (say "  ✓ Transfer completed successfully").Meets fun xs r => Follows [] xs r.isOk :=
    .print .finished
  unfold transfer
  refine .bind (.print ?_)
  exact follows_of_adjust (follows_of_balance (follows_of_adjust hend))

/-- Transfers follow their steps one after the other, and say whether all steps were taken. -/
theorem transferAll_follows (ts : List Transfer) :
    (transferAll templates ts).Meets fun xs r =>
      ∃ all, r = .ok all ∧ Follows (ts.flatMap Transfer.steps) xs all := by
  induction ts with
  | nil => exact .pure ⟨true, rfl, .finished⟩
  | cons t ts ih =>
    rw [transferAll]
    refine .bind (.attempt ((transfer_follows t).imp fun xs r hxs => ?_))
    cases r with
    | ok u =>
      refine ih.imp fun ys r' hys => ?_
      obtain ⟨all, rfl, hall⟩ := hys
      exact ⟨all, rfl, hxs.append hall⟩
    | error e =>
      refine .bind (.print (.pure ⟨false, rfl, ?_⟩))
      rw [List.append_nil, List.append_nil]
      exact hxs.append_of_false _

/-! ## Transactions -/

/-- Whether a reply is no failure. -/
def Succeeds (reply : Reply) : Prop := ∃ summary, reply.summary = .ok summary

/-- How a transaction is ended, by whether all of its steps were taken. -/
def conclusion : Bool → Control
  | true => .commit
  | false => .rollback

/-- The exchanges of a transaction of some transfers: it does not begin, or it begins, follows the steps of
the transfers and is ended. -/
inductive Transaction (ts : List Transfer) : List Exchange → Prop
  | notBegun {opened : Reply} (hopened : ¬ Succeeds opened) :
      Transaction ts [⟨.control .begin, opened⟩]
  | ended {opened closed : Reply} {body : List Exchange} {all : Bool} (hopened : Succeeds opened)
      (hbody : Follows (ts.flatMap Transfer.steps) body all) :
      Transaction ts (⟨.control .begin, opened⟩ :: (body ++ [⟨.control (conclusion all), closed⟩]))

/-- A transaction begins, has a body that cannot fail, and is ended as the body turned out. -/
theorem transaction_of_body {α : Type} {s : Script α} {f : α → Script Unit} {ts : List Transfer}
    (h : s.Meets fun xs r => ∃ a all, r = .ok a ∧ Follows (ts.flatMap Transfer.steps) xs all ∧
      ∃ line, f a = do Session.control (conclusion all); say line) :
    (do Session.control .begin; s >>= f : Script Unit).Meets fun xs _ => Transaction ts xs := by
  refine .bind (.mapError (.control fun opened => ?_))
  cases hopened : opened.summary with
  | error e =>
    refine .notBegun ?_
    rintro ⟨summary, hok⟩
    rw [hopened] at hok
    cases hok
  | ok summary =>
    refine .bind (h.imp fun xs r hr => ?_)
    obtain ⟨a, all, rfl, hbody, line, hf⟩ := hr
    dsimp only
    rw [hf]
    -- Whether the database ends the transaction or fails to, the request has been made.
    refine .bind (.mapError (.control fun closed => ?_))
    have hended : Transaction ts
        (⟨.control .begin, opened⟩ :: (xs ++ [⟨.control (conclusion all), closed⟩])) :=
      .ended ⟨summary, hopened⟩ hbody
    cases closed.summary with
    | error e => exact hended
    | ok closing =>
      refine .print ?_
      rw [List.append_nil]
      exact hended

/-- A single transfer is a transaction. -/
theorem single_meets (t : Transfer) :
    (single templates t).Meets fun xs _ => Transaction [t] xs := by
  refine transaction_of_body (.attempt ((transfer_follows t).imp fun xs r hxs => ?_))
  rw [List.flatMap_singleton]
  refine ⟨r, r.isOk, rfl, hxs, ?_⟩
  cases r with
  | ok u => exact ⟨_, rfl⟩
  | error e => exact ⟨_, rfl⟩

/-- Several transfers are one transaction. -/
theorem several_meets (ts : List Transfer) :
    (several templates ts).Meets fun xs _ => Transaction ts xs := by
  refine transaction_of_body ((transferAll_follows ts).imp fun xs r hxs => ?_)
  obtain ⟨all, rfl, hbody⟩ := hxs
  refine ⟨all, all, rfl, hbody, ?_⟩
  cases all with
  | true => exact ⟨_, rfl⟩
  | false => exact ⟨_, rfl⟩

end Transfers

end Scenario

end BoundSql
