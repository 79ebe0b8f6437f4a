import BoundSql.Database.Session

/-!
# What a session exchanges with its database

The requests of a session, each with its reply, are its `exchanges`; lines that are printed and reports
have no part in them.  `Session.Meets s P` says that `P` holds of the exchanges and the outcome of every run of
`s`, whatever the database replies.  There is one rule for each way of building sessions, and in the rule for
sequences (`Session.Meets.bind`) the second session goes on with the replies that the first one left.
-/

namespace BoundSql

namespace Event

/-- Whether the database replies to an event. -/
def isRequest : Event → Bool
  | .sent _ _ _ => true
  | .control _ => true
  | .printed _ => false
  | .reported _ => false

end Event

/-- A request and the reply to it. -/
structure Exchange where
  request : Event
  reply : Reply
  deriving DecidableEq

/-- The requests among some events, each with its reply.  The replies are given in order, and once there are
no more of them the reply is that nothing was changed. -/
def exchanges : List Event → List Reply → List Exchange
  | [], _ => []
  | e :: es, replies =>
    if e.isRequest then ⟨e, replies.headD (.done 0 0)⟩ :: exchanges es replies.tail
    else exchanges es replies

/-- The replies that are left after the exchanges of some events are those for the events that follow. -/
theorem exchanges_append (es fs : List Event) (replies : List Reply) :
    exchanges (es ++ fs) replies =
      exchanges es replies ++ exchanges fs (replies.drop (exchanges es replies).length) := by
  induction es generalizing replies with
  | nil => rfl
  | cons e es ih =>
    rw [List.cons_append, exchanges, exchanges]
    split
    · rw [ih, List.length_cons, List.drop_tail, List.cons_append, Nat.add_comm]
    · rw [ih]

/-- Events without requests exchange nothing. -/
theorem exchanges_eq_nil {es : List Event} (h : ∀ e ∈ es, e.isRequest = false) (replies : List Reply) :
    exchanges es replies = [] := by
  induction es with
  | nil => rfl
  | cons e es ih =>
    rw [exchanges, h e List.mem_cons_self, if_neg Bool.false_ne_true]
    exact ih fun f hf => h f (List.mem_cons_of_mem e hf)

namespace Session

variable {ε δ α β : Type}

/-- Nothing is gone on with after a failure. -/
theorem bind_of_error {s : Session ε α} {replies : List Reply} {e : ε}
    (h : (s replies).outcome = .error e) (f : α → Session ε β) :
    (s >>= f) replies = ⟨(s replies).events, .error e, (s replies).replies⟩ := by
  change andThen s f replies = _
  simp only [andThen, h]

/-- A result is gone on with on the replies that are left. -/
theorem bind_of_ok {s : Session ε α} {replies : List Reply} {a : α} (h : (s replies).outcome = .ok a)
    (f : α → Session ε β) :
    (s >>= f) replies = ⟨(s replies).events ++ (f a (s replies).replies).events,
      (f a (s replies).replies).outcome, (f a (s replies).replies).replies⟩ := by
  change andThen s f replies = _
  simp only [andThen, h]

/-- Whether all runs of a session have exchanges and an outcome of which `P` holds, and take one reply for
each exchange. -/
def Meets (s : Session ε α) (P : List Exchange → Except ε α → Prop) : Prop :=
  ∀ replies, (s replies).replies = replies.drop (exchanges (s replies).events replies).length ∧
    P (exchanges (s replies).events replies) (s replies).outcome

namespace Meets

/-- What holds of all runs may be weakened. -/
theorem imp {s : Session ε α} {P Q : List Exchange → Except ε α → Prop} (h : s.Meets P)
    (hPQ : ∀ xs r, P xs r → Q xs r) : s.Meets Q :=
  fun replies => ⟨(h replies).1, hPQ _ _ (h replies).2⟩

/-- A session without requests exchanges nothing. -/
theorem of_events {s : Session ε α} {P : List Exchange → Except ε α → Prop} {es : List Event}
    {r : Except ε α} (hs : ∀ replies, s replies = ⟨es, r, replies⟩)
    (hes : ∀ e ∈ es, e.isRequest = false) (h : P [] r) : s.Meets P := by
  intro replies
  rw [hs, exchanges_eq_nil hes]
  exact ⟨rfl, h⟩

/-- A result exchanges nothing. -/
theorem ofExcept {P : List Exchange → Except ε α → Prop} {r : Except ε α} (h : P [] r) :
    (Session.ofExcept r).Meets P :=
  of_events (fun _ => rfl) (List.forall_mem_nil _) h

/-- A result that is there exchanges nothing. -/
theorem pure {P : List Exchange → Except ε α → Prop} {a : α} (h : P [] (.ok a)) :
    (Pure.pure a : Session ε α).Meets P :=
  of_events (fun _ => rfl) (List.forall_mem_nil _) h

/-- A line that is printed is no exchange. -/
theorem print {P : List Exchange → Except ε Unit → Prop} {line : String} (h : P [] (.ok ())) :
    (Session.print line : Session ε Unit).Meets P := by
  refine of_events (fun _ => rfl) (fun e he => ?_) h
  obtain rfl := List.mem_singleton.1 he
  rfl

/-- The reports of an operation are no exchanges. -/
theorem ofTraced {P : List Exchange → Except Error α → Prop} {t : Traced α} (h : P [] t.outcome) :
    (Session.ofTraced t).Meets P := by
  refine of_events (fun _ => rfl) (fun e he => ?_) h
  obtain ⟨d, -, rfl⟩ := List.mem_map.1 he
  rfl

/-- A request is one exchange, with any reply. -/
theorem request {P : List Exchange → Except ε Reply → Prop} {e : Event} (he : e.isRequest = true)
    (h : ∀ reply, P [⟨e, reply⟩] (.ok reply)) : (Session.request e).Meets P := by
  intro replies
  cases replies with
  | nil =>
    simp only [Session.request, exchanges, he, if_true]
    exact ⟨rfl, h _⟩
  | cons reply rest =>
    simp only [Session.request, exchanges, he, if_true]
    exact ⟨rfl, h reply⟩

/-- A sequence exchanges what its parts exchange, one after the other; without a result of the first part
there is no second part. -/
theorem bind {s : Session ε α} {f : α → Session ε β} {P : List Exchange → Except ε β → Prop}
    (h : s.Meets fun xs r =>
      match r with
      | .error e => P xs (.error e)
      | .ok a => (f a).Meets fun ys r' => P (xs ++ ys) r') : (s >>= f).Meets P := by
  intro replies
  obtain ⟨hleft, hmeets⟩ := h replies
  cases hout : (s replies).outcome with
  | error e =>
    rw [hout] at hmeets
    rw [bind_of_error hout]
    exact ⟨hleft, hmeets⟩
  | ok a =>
    rw [hout] at hmeets
    obtain ⟨hleft', hmeets'⟩ := hmeets (s replies).replies
    rw [bind_of_ok hout]
    dsimp only
    rw [exchanges_append, ← hleft]
    refine ⟨?_, hmeets'⟩
    rw [hleft', List.length_append, ← List.drop_drop, ← hleft]

/-- Another kind of failure changes no exchange. -/
theorem mapError {s : Session ε α} {f : ε → δ} {P : List Exchange → Except δ α → Prop}
    (h : s.Meets fun xs r => P xs (r.mapError f)) : (s.mapError f).Meets P :=
  fun replies => h replies

/-- A session whose failure is looked at exchanges the same. -/
theorem attempt {s : Session ε α} {P : List Exchange → Except ε (Except ε α) → Prop}
    (h : s.Meets fun xs r => P xs (.ok r)) : s.attempt.Meets P :=
  fun replies => h replies

/-- A statement that is run is one exchange, and its reply is read. -/
theorem run {action : Action} {read : Reply → Except DatabaseError α} {s : Statement} {on : Channel}
    {P : List Exchange → Except Error α → Prop}
    (h : ∀ reply, P [⟨.sent on s.sql s.values, reply⟩] ((read reply).mapError .database)) :
    (s.run action read on).Meets P := by
  refine bind (of_events (fun _ => rfl) (fun e he => ?_) ?_)
  · obtain rfl := List.mem_singleton.1 he
    rfl
  · refine bind (request rfl fun reply => ?_)
    exact ofExcept (h reply)

/-- SQL without arguments is one exchange. -/
theorem executeText {on : Channel} {sql : String} {P : List Exchange → Except DatabaseError Summary → Prop}
    (h : ∀ reply, P [⟨.sent on sql [], reply⟩] reply.summary) :
    (Session.executeText on sql).Meets P := by
  refine bind (request rfl fun reply => ?_)
  exact ofExcept (h reply)

/-- The control of a transaction is one exchange, which fails if the reply is a failure. -/
theorem control {c : Control} {P : List Exchange → Except DatabaseError Unit → Prop}
    (h : ∀ reply, P [⟨.control c, reply⟩] (reply.summary.map fun _ => ())) :
    (Session.control c).Meets P := by
  refine bind (request rfl fun reply => bind (ofExcept ?_))
  cases hreply : reply.summary with
  | error e =>
    have hfailed := h reply
    rw [hreply] at hfailed
    exact hfailed
  | ok summary =>
    have hdone := h reply
    rw [hreply] at hdone
    exact pure hdone

end Meets

end Session

end BoundSql
