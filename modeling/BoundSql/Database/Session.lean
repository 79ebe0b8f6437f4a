import BoundSql.Database.Row
import BoundSql.Statement

/-!
# Sessions with a database

A `Session` is a program that prints lines and talks to a database.  The database is known by its
replies alone: the program is run on a list of them, one for each request, and what is observed is the
list of its events.  A database that has nothing to say any more answers that nothing was changed.

Statements are run by adapters, one for each way of running them; each of them reports what it is
about to do, and wraps what goes wrong as an error of the library.
-/

namespace BoundSql

/-- What a database answers. -/
inductive Reply
  | done (affected lastId : UInt64)
  | failed (cause : DatabaseError)
  | rows (columns : List Column) (rows : List (List (Option String)))
  deriving DecidableEq

/-- On which connection a statement is sent. -/
inductive Channel
  | pool
  | transaction
  deriving DecidableEq

/-- Control of a transaction. -/
inductive Control
  | begin
  | commit
  | rollback
  deriving DecidableEq

/-- What a session does. -/
inductive Event
  | printed (line : String)
  | sent (on : Channel) (sql : String) (args : List Value)
  | control (c : Control)
  | reported (d : Diagnostic)
  deriving DecidableEq

namespace Control

/-- The command of the database. -/
def sql : Control → String
  | .begin => "BEGIN"
  | .commit => "COMMIT"
  | .rollback => "ROLLBACK"

end Control

/-- What a session did, what came of it, and the replies it did not ask for. -/
structure Transcript (ε α : Type) where
  events : List Event
  outcome : Except ε α
  replies : List Reply

/-- A program that prints and talks to a database; it fails with an `ε` or returns an `α`. -/
def Session (ε α : Type) := List Reply → Transcript ε α

namespace Session

variable {ε δ α β : Type}

/-- Goes on with the result of a session, if it has one, on the replies that are left. -/
def andThen (s : Session ε α) (f : α → Session ε β) : Session ε β := fun replies =>
  let first := s replies
  match first.outcome with
  | .error e => ⟨first.events, .error e, first.replies⟩
  | .ok a =>
    let second := f a first.replies
    ⟨first.events ++ second.events, second.outcome, second.replies⟩

instance : Monad (Session ε) where
  pure a := fun replies => ⟨[], .ok a, replies⟩
  bind := andThen

/-- A result without events. -/
def ofExcept (r : Except ε α) : Session ε α := fun replies => ⟨[], r, replies⟩

/-- An operation of the library, with its reports. -/
def ofTraced (t : Traced α) : Session Error α := fun replies =>
  ⟨t.log.map .reported, t.outcome, replies⟩

/-- The session with another kind of failure. -/
def mapError (f : ε → δ) (s : Session ε α) : Session δ α := fun replies =>
  let t := s replies
  ⟨t.events, t.outcome.mapError f, t.replies⟩

/-- The outcome of a session as the result of one that goes on in either case. -/
def attempt (s : Session ε α) : Session ε (Except ε α) := fun replies =>
  let t := s replies
  ⟨t.events, .ok t.outcome, t.replies⟩

/-- An event without reply. -/
def record (e : Event) : Session ε Unit := fun replies => ⟨[e], .ok (), replies⟩

/-- Prints a line. -/
def print (line : String) : Session ε Unit := record (.printed line)

/-- A request and its reply. -/
def request (e : Event) : Session ε Reply := fun replies =>
  match replies with
  | [] => ⟨[e], .ok (.done 0 0), []⟩
  | r :: rest => ⟨[e], .ok r, rest⟩

end Session

/-- What a statement did that was executed. -/
structure Summary where
  affected : UInt64
  lastId : UInt64
  deriving DecidableEq

namespace Reply

/-- A reply to a statement that was executed; rows count as nothing changed. -/
def summary : Reply → Except DatabaseError Summary
  | .done affected lastId => .ok ⟨affected, lastId⟩
  | .failed cause => .error cause
  | .rows _ _ => .ok ⟨0, 0⟩

/-- The rows of a reply; a reply without rows has none. -/
def toRows : Reply → Except DatabaseError (List Row)
  | .done _ _ => .ok []
  | .failed cause => .error cause
  | .rows columns cells => .ok (cells.map fun cs => ⟨columns, cs⟩)

/-- All rows of a reply, each read by `read`. -/
def all {α : Type} (read : Row → Except DatabaseError α) (r : Reply) : Except DatabaseError (List α) := do
  let found ← r.toRows
  found.mapM read

/-- The first row of a reply, if it has one. -/
def first? {α : Type} (read : Row → Except DatabaseError α) (r : Reply) :
    Except DatabaseError (Option α) := do
  match ← r.toRows with
  | [] => return none
  | row :: _ => return some (← read row)

/-- The first row of a reply, which has to have one. -/
def first {α : Type} (read : Row → Except DatabaseError α) (r : Reply) : Except DatabaseError α := do
  match ← r.first? read with
  | some a => return a
  | none => .error .rowNotFound

end Reply

namespace Session

variable {α : Type}

/-- Sends SQL without arguments and without report. -/
def executeText (on : Channel) (sql : String) : Session DatabaseError Summary := do
  let reply ← request (.sent on sql [])
  ofExcept reply.summary

/-- Controls a transaction. -/
def control (c : Control) : Session DatabaseError Unit := do
  let reply ← request (.control c)
  let _ ← ofExcept reply.summary
  return ()

end Session

namespace Statement

variable {α : Type}

/-- Reports and sends a statement, and makes something of the reply. -/
def run (action : Action) (read : Reply → Except DatabaseError α) (s : Statement) (on : Channel) :
    Session Error α := do
  Session.record (.reported (.running action s.sql s.values.length))
  let reply ← Session.request (.sent on s.sql s.values)
  Session.ofExcept ((read reply).mapError .database)

/-- Executes a statement. -/
def execute (s : Statement) (on : Channel) : Session Error Summary :=
  s.run .execute Reply.summary on

/-- Fetches all rows. -/
def fetchAll (read : Row → Except DatabaseError α) (s : Statement) (on : Channel) :
    Session Error (List α) :=
  s.run .fetchAll (Reply.all read) on

/-- Fetches one row, which has to be there. -/
def fetchOne (read : Row → Except DatabaseError α) (s : Statement) (on : Channel) : Session Error α :=
  s.run .fetchOne (Reply.first read) on

/-- Fetches one row if there is one. -/
def fetchOptional (read : Row → Except DatabaseError α) (s : Statement) (on : Channel) :
    Session Error (Option α) :=
  s.run .fetchOptional (Reply.first? read) on

end Statement

end BoundSql
