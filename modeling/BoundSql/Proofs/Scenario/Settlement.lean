import BoundSql.Proofs.Scenario.Transfers

/-!
# Transfers are made whole or not at all

The run of the scenario alternates between exchanges with the pool and transactions
(`Transfers.Alternates`), so every transaction that begins is ended, once, before anything else is asked of
the database.
-/

namespace BoundSql

namespace Scenario

namespace Transfers

/-! ## The whole run -/

/-- The exchanges of a run that has planned some transactions: between the transactions, statements are sent
to the pool.  The run may end before a transaction. -/
inductive Alternates : List (List Transfer) → List Exchange → Prop
  | outside {plan : List (List Transfer)} {xs : List Exchange} (hxs : ∀ x ∈ xs, IsOn .pool x) :
      Alternates plan xs
  | transaction {ts : List Transfer} {plan : List (List Transfer)} {before during after : List Exchange}
      (hbefore : ∀ x ∈ before, IsOn .pool x) (hduring : Transaction ts during)
      (hafter : Alternates plan after) : Alternates (ts :: plan) (before ++ (during ++ after))

/-- Further statements may be sent to the pool before everything else. -/
theorem Alternates.append_left {plan : List (List Transfer)} {xs ys : List Exchange}
    (hxs : ∀ x ∈ xs, IsOn .pool x) (hys : Alternates plan ys) : Alternates plan (xs ++ ys) := by
  cases hys with
  | outside hys => exact .outside fun x hx => (List.mem_append.1 hx).elim (hxs x) (hys x)
  | transaction hbefore hduring hafter =>
    rw [← List.append_assoc]
    exact .transaction (fun x hx => (List.mem_append.1 hx).elim (hxs x) (hbefore x)) hduring hafter

/-- A transaction may come before everything else. -/
theorem Alternates.transaction_append {ts : List Transfer} {plan : List (List Transfer)}
    {xs ys : List Exchange} (hys : Alternates plan ys) (hxs : Transaction ts xs) :
    Alternates (ts :: plan) (xs ++ ys) := by
  have hnone : ∀ x ∈ ([] : List Exchange), IsOn .pool x := List.forall_mem_nil _
  exact .transaction hnone hxs hys

/-- A session that sends all of its statements to the pool. -/
def StaysOnPool {α : Type} (s : Script α) : Prop := s.Meets fun xs _ => ∀ x ∈ xs, IsOn .pool x

/-- A sequence stays on the pool if its parts do. -/
theorem StaysOnPool.bind {α β : Type} {s : Script α} {f : α → Script β} (hs : StaysOnPool s)
    (hf : ∀ a, StaysOnPool (f a)) : StaysOnPool (s >>= f) := by
  refine Session.Meets.bind (hs.imp fun xs r hxs => ?_)
  cases r with
  | error e => exact hxs
  | ok a => exact (hf a).imp fun ys r' hys x hx => (List.mem_append.1 hx).elim (hxs x) (hys x)

/-- A line that is printed is not sent anywhere. -/
theorem staysOnPool_say (line : String) : StaysOnPool (say line) := .print (List.forall_mem_nil _)

/-- What the library does sends nothing. -/
theorem staysOnPool_ofTraced {α : Type} (t : Traced α) : StaysOnPool (t : Script α) :=
  .mapError (.ofTraced (List.forall_mem_nil _))

/-- A statement that is sent to the pool stays on it. -/
theorem staysOnPool_run {α : Type} {action : Action} {read : Reply → Except DatabaseError α}
    (s : Statement) : StaysOnPool (s.run action read .pool : Script α) := by
  refine .mapError (.run fun reply x hx => ?_)
  obtain rfl := List.mem_singleton.1 hx
  exact ⟨_, _, rfl⟩

/-- SQL without arguments that is sent to the pool stays on it. -/
theorem staysOnPool_executeText (sql : String) :
    StaysOnPool (Session.executeText .pool sql : Script Summary) := by
  refine .mapError (.executeText fun reply x hx => ?_)
  obtain rfl := List.mem_singleton.1 hx
  exact ⟨_, _, rfl⟩

/-- Connecting sends nothing. -/
theorem staysOnPool_connect (connection : Except DatabaseError Unit) :
    StaysOnPool (connect connection) :=
  (staysOnPool_say _).bind fun _ => .ofExcept (List.forall_mem_nil _)

/-- Accounts are inserted through the pool. -/
theorem staysOnPool_insertAccount (insertion : Template) (name : String) (balance : Int32) :
    StaysOnPool (insertAccount insertion name balance) :=
  (staysOnPool_ofTraced _).bind fun s => (staysOnPool_run s).bind fun _ => .pure (List.forall_mem_nil _)

/-- Accounts are listed through the pool. -/
theorem staysOnPool_listAccounts : StaysOnPool listAccounts := by
  refine (staysOnPool_ofTraced _).bind fun s => (staysOnPool_run s).bind fun accounts =>
    (staysOnPool_say _).bind fun _ => ?_
  induction accounts with
  | nil => exact .pure (List.forall_mem_nil _)
  | cons a accounts ih => exact (staysOnPool_say _).bind fun _ => ih

/-- A run goes on after it has sent statements to the pool. -/
theorem alternates_of_pool {α β : Type} {s : Script α} {f : α → Script β} {plan : List (List Transfer)}
    (hs : StaysOnPool s) (hf : ∀ a, (f a).Meets fun xs _ => Alternates plan xs) :
    (s >>= f).Meets fun xs _ => Alternates plan xs := by
  refine .bind (hs.imp fun xs r hxs => ?_)
  cases r with
  | error e => exact .outside hxs
  | ok a => exact (hf a).imp fun ys r' hys => hys.append_left hxs

/-- A run goes on after a transaction. -/
theorem alternates_of_transaction {α β : Type} {s : Script α} {f : α → Script β} {ts : List Transfer}
    {plan : List (List Transfer)} (hs : s.Meets fun xs _ => Transaction ts xs)
    (hf : ∀ a, (f a).Meets fun xs _ => Alternates plan xs) :
    (s >>= f).Meets fun xs _ => Alternates (ts :: plan) xs := by
  refine .bind (hs.imp fun xs r hxs => ?_)
  cases r with
  | error e =>
    have hend : Alternates plan [] := .outside (List.forall_mem_nil _)
    exact xs.append_nil ▸ hend.transaction_append hxs
  | ok a => exact (hf a).imp fun ys r' hys => hys.transaction_append hxs

/-- The transactions of the scenario. -/
def plan : List (List Transfer) := [[⟨1, 2, 200⟩], [⟨2, 1, 1000⟩], [⟨1, 3, 100⟩, ⟨3, 2, 50⟩]]

/-- The run of the scenario alternates between the pool and the planned transactions. -/
theorem script_alternates (connection : Except DatabaseError Unit) :
    (script connection).Meets fun xs _ => Alternates plan xs := by
  have hlast : StaysOnPool (do
      let _ ← Session.executeText .pool removal
      say "\nExample completed successfully!" : Script Unit) :=
    (staysOnPool_executeText removal).bind fun _ => staysOnPool_say _
  unfold script
  rw [make_eq_ok]
  refine alternates_of_pool (staysOnPool_connect connection) fun _ => ?_
  refine alternates_of_pool (staysOnPool_say _) fun _ => ?_
  refine alternates_of_pool (staysOnPool_executeText removal) fun _ => ?_
  refine alternates_of_pool (staysOnPool_executeText creation) fun _ => ?_
  refine alternates_of_pool (staysOnPool_say _) fun _ => ?_
  refine alternates_of_pool (staysOnPool_insertAccount _ _ _) fun _ => ?_
  refine alternates_of_pool (staysOnPool_insertAccount _ _ _) fun _ => ?_
  refine alternates_of_pool (staysOnPool_insertAccount _ _ _) fun _ => ?_
  refine alternates_of_pool staysOnPool_listAccounts fun _ => ?_
  refine .bind (.ofExcept ?_)
  refine alternates_of_pool (staysOnPool_say _) fun _ => ?_
  refine alternates_of_transaction (single_meets ⟨1, 2, 200⟩) fun _ => ?_
  refine alternates_of_pool staysOnPool_listAccounts fun _ => ?_
  refine alternates_of_pool (staysOnPool_say _) fun _ => ?_
  refine alternates_of_transaction (single_meets ⟨2, 1, 1000⟩) fun _ => ?_
  refine alternates_of_pool staysOnPool_listAccounts fun _ => ?_
  refine alternates_of_pool (staysOnPool_say _) fun _ => ?_
  refine alternates_of_transaction (several_meets [⟨1, 3, 100⟩, ⟨3, 2, 50⟩]) fun _ => ?_
  refine alternates_of_pool staysOnPool_listAccounts fun _ => ?_
  refine alternates_of_pool (staysOnPool_say _) fun _ => ?_
  exact hlast.imp fun xs r hxs => .outside hxs

/-! ## Every transaction of a run -/

/-- What does not occur in the first part of a list occurs in the second. -/
theorem exists_append_of_not_mem {α : Type} {x : α} {xs ys before after : List α} (hx : x ∉ xs)
    (h : xs ++ ys = before ++ x :: after) : ∃ mid, before = xs ++ mid ∧ ys = mid ++ x :: after := by
  rcases List.append_eq_append_iff.1 h with ⟨mid, hbefore, hys⟩ | ⟨mid, hxs, hmid⟩
  · exact ⟨mid, hbefore, hys⟩
  · cases mid with
    | nil => exact ⟨[], by rw [hxs, List.append_nil, List.append_nil], hmid.symm⟩
    | cons y mid =>
      obtain ⟨rfl, -⟩ := List.cons.inj hmid
      exact absurd (hxs ▸ List.mem_append_right _ List.mem_cons_self) hx

/-- How many transactions are begun, or tried to, in some exchanges. -/
def begins (xs : List Exchange) : Nat := xs.countP fun x => x.request = .control .begin

/-- The transactions of two parts add up. -/
theorem begins_append (xs ys : List Exchange) : begins (xs ++ ys) = begins xs + begins ys :=
  List.countP_append

/-- The start of a transaction counts. -/
theorem begins_cons (reply : Reply) (xs : List Exchange) :
    begins (⟨.control .begin, reply⟩ :: xs) = begins xs + 1 :=
  List.countP_cons_of_pos (decide_eq_true rfl)

/-- What is sent on a channel begins no transaction. -/
theorem begins_eq_zero {on : Channel} {xs : List Exchange} (h : ∀ x ∈ xs, IsOn on x) : begins xs = 0 := by
  refine List.countP_eq_zero.2 fun x hx hbegin => ?_
  obtain ⟨sql, args, hsent⟩ := h x hx
  rw [decide_eq_true_eq, hsent] at hbegin
  cases hbegin

/-- Where no transaction is begun there is no start of one. -/
theorem not_mem_of_begins {xs : List Exchange} (h : begins xs = 0) (reply : Reply) :
    (⟨.control .begin, reply⟩ : Exchange) ∉ xs :=
  fun hmem => List.countP_eq_zero.1 h _ hmem (decide_eq_true rfl)

/-- A start of a transaction behind the exchanges of another one, or among them, is the start of that one, whose
steps and end follow, or it stands behind all of them. -/
theorem Transaction.of_begin {ts : List Transfer} {during rest mid after : List Exchange} {opened : Reply}
    (hduring : Transaction ts during) (hsplit : during ++ rest = mid ++ ⟨.control .begin, opened⟩ :: after)
    (hopened : Succeeds opened) :
    (mid = [] ∧ ∃ body all closed, after = body ++ ⟨.control (conclusion all), closed⟩ :: rest ∧
      Follows (ts.flatMap Transfer.steps) body all) ∨
    ∃ mid', begins mid = begins mid' + 1 ∧ rest = mid' ++ ⟨.control .begin, opened⟩ :: after := by
  cases hduring with
  | @notBegun opened' hnot =>
    cases mid with
    | nil =>
      obtain rfl := (Exchange.mk.inj (List.cons.inj hsplit).1).2
      exact absurd hopened hnot
    | cons y mid =>
      obtain ⟨rfl, hrest⟩ := List.cons.inj hsplit
      exact Or.inr ⟨mid, begins_cons opened' mid, hrest⟩
  | @ended opened' closed body all hopened' hbody =>
    cases mid with
    | nil =>
      have hafter : body ++ [⟨.control (conclusion all), closed⟩] ++ rest = after :=
        (List.cons.inj hsplit).2
      rw [List.append_assoc] at hafter
      exact Or.inl ⟨rfl, body, all, closed, hafter.symm, hbody⟩
    | cons y mid =>
      obtain ⟨rfl, hrest⟩ := List.cons.inj hsplit
      have hconclusion : begins [⟨.control (conclusion all), closed⟩] = 0 := by cases all <;> rfl
      have hnone : begins (body ++ [⟨.control (conclusion all), closed⟩]) = 0 := by
        rw [begins_append, begins_eq_zero hbody.isOn, hconclusion]
      obtain ⟨mid', rfl, hbehind⟩ := exists_append_of_not_mem (not_mem_of_begins hnone opened) hrest
      refine Or.inr ⟨mid', ?_, hbehind⟩
      rw [begins_cons, begins_append, hnone, Nat.zero_add]

namespace Alternates

variable {plan : List (List Transfer)} {xs : List Exchange}

/-- A run starts with statements on the pool, and goes on, if it does, with the start of a transaction. -/
theorem exists_outside (h : Alternates plan xs) :
    ∃ between further, xs = between ++ further ∧ (∀ x ∈ between, IsOn .pool x) ∧
      ∀ x ∈ further.head?, x.request = .control .begin := by
  cases h with
  | outside hxs =>
    exact ⟨xs, [], (List.append_nil xs).symm, hxs, fun x hx => absurd hx (Option.not_mem_none x)⟩
  | transaction hbefore hduring hafter =>
    refine ⟨_, _, rfl, hbefore, fun x hx => ?_⟩
    cases hduring with
    | notBegun hopened =>
      obtain rfl := Option.some.inj hx
      rfl
    | ended hopened hbody =>
      obtain rfl := Option.some.inj hx
      rfl

/-- A transaction that begins is the next one of the plan, follows the steps of its transfers and is ended;
the run goes on after that. -/
theorem exists_of_begin (h : Alternates plan xs) {before after : List Exchange} {opened : Reply}
    (hsplit : xs = before ++ ⟨.control .begin, opened⟩ :: after) (hopened : Succeeds opened) :
    ∃ ts body all closed rest plan', plan[begins before]? = some ts ∧
      after = body ++ ⟨.control (conclusion all), closed⟩ :: rest ∧
      Follows (ts.flatMap Transfer.steps) body all ∧ Alternates plan' rest := by
  induction h generalizing before with
  | outside hxs =>
    refine absurd ?_ (not_mem_of_begins (begins_eq_zero hxs) opened)
    rw [hsplit]
    exact List.mem_append_right _ List.mem_cons_self
  | @transaction ts plan outside during rest houtside hduring hrest ih =>
    have hnone := begins_eq_zero houtside
    obtain ⟨mid, rfl, hmid⟩ := exists_append_of_not_mem (not_mem_of_begins hnone opened) hsplit
    rw [begins_append, hnone, Nat.zero_add]
    rcases hduring.of_begin hmid hopened with
      ⟨rfl, body, all, closed, hafter, hbody⟩ | ⟨mid', hcount, hafter⟩
    · exact ⟨ts, body, all, closed, rest, plan, rfl, hafter, hbody, hrest⟩
    · rw [hcount]
      exact ih hafter

end Alternates

/-- A transaction of some transfers that is ended by a control, after the exchanges of its body. -/
structure Settled (ts : List Transfer) (body : List Exchange) (c : Control) : Prop where
  /-- It is committed or rolled back. -/
  control : c = .commit ∨ c = .rollback
  /-- Until then statements are sent in it, and nothing else is asked of the database. -/
  isOn : ∀ x ∈ body, IsOn .transaction x
  /-- The statements are those of the transfers, in order, up to some point. -/
  requests_prefix : body.map Exchange.request <+: (ts.flatMap Transfer.steps).map Step.request
  /-- It is committed only if all statements were sent and all of their replies are accepted. -/
  forall₂ : c = .commit → List.Forall₂ Step.IsTaken (ts.flatMap Transfer.steps) body
  /-- It is rolled back only after a reply that is not accepted. -/
  exists_refused : c = .rollback → ∃ front x p, body = front ++ [x] ∧
    (ts.flatMap Transfer.steps)[front.length]? = some p ∧ ¬ p.Accepts x.reply
  /-- Nothing is sent after the first reply that is not accepted, and the transaction is rolled back. -/
  eq_nil : ∀ {front back : List Exchange} {x : Exchange} {p : Step}, body = front ++ x :: back →
    (ts.flatMap Transfer.steps)[front.length]? = some p → ¬ p.Accepts x.reply → back = [] ∧ c = .rollback

/-- A transaction that follows the steps of its transfers and is ended as they turned out is settled. -/
theorem Follows.settled {ts : List Transfer} {body : List Exchange} {all : Bool}
    (h : Follows (ts.flatMap Transfer.steps) body all) : Settled ts body (conclusion all) where
  control := by
    cases all with
    | true => exact Or.inl rfl
    | false => exact Or.inr rfl
  isOn := h.isOn
  requests_prefix := h.requests_prefix
  forall₂ hcommit := by
    cases all with
    | true => exact h.forall₂
    | false => cases hcommit
  exists_refused hrollback := by
    cases all with
    | true => cases hrollback
    | false => exact h.exists_refused
  eq_nil hbody hp hreply := by
    obtain ⟨hback, rfl⟩ := h.eq_nil_of_not_accepts hbody hp hreply
    exact ⟨hback, rfl⟩

/-- Every transaction of a run that begins is settled, as a transaction of the transfers that are planned for
it, before the pool is asked again, another transaction begins or the run ends. -/
theorem transfers_all_or_nothing (connection : Except DatabaseError Unit) (replies : List Reply)
    {before after : List Exchange} {opened : Reply}
    (hrun : exchanges (script connection replies).events replies =
      before ++ ⟨.control .begin, opened⟩ :: after) (hopened : Succeeds opened) :
    ∃ ts body c closed between further, plan[begins before]? = some ts ∧
      after = body ++ ⟨.control c, closed⟩ :: (between ++ further) ∧ Settled ts body c ∧
      (∀ x ∈ between, IsOn .pool x) ∧ ∀ x ∈ further.head?, x.request = .control .begin := by
  obtain ⟨ts, body, all, closed, rest, plan', hplan, hafter, hbody, hrest⟩ :=
    (script_alternates connection replies).2.exists_of_begin hrun hopened
  obtain ⟨between, further, rfl, hbetween, hfurther⟩ := hrest.exists_outside
  exact ⟨ts, body, _, closed, between, further, hplan, hafter, hbody.settled, hbetween, hfurther⟩

/-- The replies of a database that does not know the second account, and breaks down after that. -/
def unknownAccount : List Reply :=
  [.done 0 0, .done 0 0, .done 1 1, .done 1 2, .done 1 3, .rows [] [], .done 0 0, .done 1 0,
    .rows [⟨"balance", .int⟩] [[some "800"]], .done 0 0, .done 0 0, .failed .rowNotFound]

/-- What is exchanged with that database once the first transaction has begun. -/
def unknownAccountExchanges : List Exchange :=
  [⟨(Step.mk (adjustment 1 (-200)) ChangesRow).request, .done 1 0⟩,
    ⟨(Step.mk (inquiry 1) ShowsFunds).request, .rows [⟨"balance", .int⟩] [[some "800"]]⟩,
    ⟨(Step.mk (adjustment 2 200) ChangesRow).request, .done 0 0⟩,
    ⟨.control .rollback, .done 0 0⟩,
    ⟨.sent .pool "select id, name, balance\nfrom accounts\n\n\norder by id\n" [], .failed .rowNotFound⟩]

/-- The first transaction is settled although its last statement changes no row. -/
theorem transfers_all_or_nothing_of_unknownAccount :
    exchanges (script (.ok ()) unknownAccount).events unknownAccount =
        (exchanges (script (.ok ()) unknownAccount).events unknownAccount).take 6 ++
          ⟨.control .begin, .done 0 0⟩ :: unknownAccountExchanges ∧
      ∃ ts body c closed between further, plan[0]? = some ts ∧
        unknownAccountExchanges = body ++ ⟨.control c, closed⟩ :: (between ++ further) ∧ Settled ts body c ∧
        (∀ x ∈ between, IsOn .pool x) ∧ ∀ x ∈ further.head?, x.request = .control .begin := by
  have hrun : exchanges (script (.ok ()) unknownAccount).events unknownAccount =
      (exchanges (script (.ok ()) unknownAccount).events unknownAccount).take 6 ++
        ⟨.control .begin, .done 0 0⟩ :: unknownAccountExchanges := by
    rw [script, make_eq_ok]
    decide +kernel
  have hbegins : begins ((exchanges (script (.ok ()) unknownAccount).events unknownAccount).take 6) = 0 := by
    rw [script, make_eq_ok]
    decide +kernel
  have hsettled := transfers_all_or_nothing (.ok ()) unknownAccount hrun ⟨⟨0, 0⟩, rfl⟩
  rw [hbegins] at hsettled
  exact ⟨hrun, hsettled⟩

end Transfers

end Scenario

end BoundSql
