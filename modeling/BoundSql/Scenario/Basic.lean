import BoundSql.Database.Session
import BoundSql.Template.Basic

/-!
# Scenarios

A scenario is a session that shows the library at work on a database.  It may fail because of the
library, because of the database, or because a transfer of money is refused; `Failure.message` is
what is then shown.
-/

namespace BoundSql

namespace Scenario

/-- Why a transfer is refused although the database is well. -/
inductive Refusal
  | sourceNotFound
  | insufficientFunds (balance : Int32)
  | destinationNotFound
  deriving DecidableEq

/-- Why a scenario ends early. -/
inductive Failure
  | library (cause : Error)
  | database (cause : DatabaseError)
  | refused (cause : Refusal)

namespace Refusal

/-- Why a transfer is refused, in words. -/
def message : Refusal → String
  | .sourceNotFound => "Source account not found"
  | .insufficientFunds balance => "Insufficient funds (balance: $" ++ toString balance.toInt ++ ")"
  | .destinationNotFound => "Destination account not found"

end Refusal

namespace Failure

/-- Why a scenario ends early, in words. -/
def message : Failure → String
  | .library cause => cause.message
  | .database cause => cause.message
  | .refused cause => cause.message

end Failure

/-- A session of a scenario. -/
abbrev Script (α : Type) := Session Failure α

instance : MonadLift (Session Error) (Session Failure) := ⟨Session.mapError .library⟩

instance : MonadLift (Session DatabaseError) (Session Failure) := ⟨Session.mapError .database⟩

instance : MonadLift Traced (Session Failure) :=
  ⟨fun t => (Session.ofTraced t).mapError .library⟩

instance : MonadLift (Except Error) (Session Failure) :=
  ⟨fun r => Session.ofExcept (r.mapError .library)⟩

/-- Prints a line. -/
def say (line : String) : Script Unit := Session.print line

/-- Ends a scenario because a transfer is refused. -/
def refuse {α : Type} (cause : Refusal) : Script α := Session.ofExcept (.error (.refused cause))

/-- The start of every scenario: `connection` says whether the database can be reached. -/
def connect (connection : Except DatabaseError Unit) : Script Unit := do
  say "Connecting to database..."
  Session.ofExcept (connection.mapError .database)

/-- The fragments of some fields as segments. -/
def asSegments (fields : List (String × Fragment)) : List (String × Segment) :=
  fields.map fun (name, f) => (name, .fragment f)

end Scenario

end BoundSql
