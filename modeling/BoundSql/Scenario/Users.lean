import BoundSql.AllowList
import BoundSql.Condition.Compile
import BoundSql.Condition.Reading
import BoundSql.Fragment.Named
import BoundSql.Scenario.Basic
import BoundSql.Template.Commands

/-!
# Scenario: a table of users

The scenario creates a table of users and inserts, lists, finds, updates and deletes users, each time
through a template; one listing template serves for every query, with the condition as a block.  It
ends by showing that a field which is not allowed is refused.
-/

namespace BoundSql

namespace Scenario

namespace Users

/-- A row of the table. -/
structure User where
  id : Int32
  name : String
  email : String
  deriving DecidableEq

/-- Reads a user from a row. -/
def User.ofRow (r : Row) : Except DatabaseError User := do
  let id ← r.int (.name "id")
  let name ← r.text (.name "name")
  let email ← r.text (.name "email")
  return ⟨id, name, email⟩

/-- The line that shows a user in a list. -/
def User.line (u : User) : String :=
  "  - " ++ u.name ++ " (id=" ++ toString u.id.toInt ++ ", email=" ++ u.email ++ ")"

/-- The fields that may be named. -/
def fields : AllowList := .qualified "" ["id", "name", "email"]

/-- The statement that creates the table. -/
def creation : String :=
  "CREATE TABLE IF NOT EXISTS users (\n" ++
  "            id INT PRIMARY KEY AUTO_INCREMENT,\n" ++
  "            name VARCHAR(100) NOT NULL,\n" ++
  "            email VARCHAR(100) NOT NULL UNIQUE\n" ++
  "        )"

/-- Inserts a user by name and email. -/
def insertion : Template :=
  .insert (.text "users") (asSegments (openFields ["name", "email"])) none

/-- Lists users by id, on a condition that may be supplied. -/
def listing (order : SortOrder) : Template :=
  (((Selection.ofTable (.text "users")).addColumns ["id", "name", "email"]).setCondition
    (.block ((Placeholder.ofKey (.name "where")).withDefault .empty))).setOrder
    (.fragment order.clause) |>.build

/-- Renames the users that a condition selects. -/
def nameChange (condition : Fragment) : Template :=
  .update (.text "users") (asSegments (openFields ["name"])) (.fragment condition)

/-- A condition as a caller may send it. -/
def searchText : String :=
  "\x7b\"op\": \"and\", \"blocks\": [\x7b\"op\": \"=\", \"field\": \"email\", \"value\": \"alice@example.com\"\x7d]\x7d"

/-- Inserts a user and shows the new id. -/
def insertUser (name email : String) : Script Unit := do
  let b := (Bindings.empty.bindValue (.name "name") (.text name)).bindValue (.name "email") (.text email)
  let s ← insertion.generate b
  let summary ← s.execute .pool
  say ("Inserted user '" ++ name ++ "': last_insert_id=" ++ toString summary.lastId.toNat)

/-- Shows all users under a heading. -/
def listUsers (listing : Template) (heading : String) : Script Unit := do
  let s ← listing.generate .empty
  let users ← s.fetchAll User.ofRow .pool
  say (heading ++ " " ++ toString users.length ++ " users:")
  users.forM fun u => say u.line

/-- Finds a user by a condition from JSON. -/
def findUser (listing : Template) : Script Unit := do
  let search ← (Condition.ofText searchText : Except Error Condition)
  let condition ← search.compile fields
  let s ← listing.generate (Bindings.empty.bindBlock (.name "where") condition.asWhere)
  say ("SQL: " ++ s.sql.map fun c => if c = '\n' then ' ' else c)
  match ← s.fetchOptional User.ofRow .pool with
  | some u => say ("Found user: " ++ u.name ++ " (" ++ u.email ++ ")")
  | none => say "User not found"

/-- Renames a user and shows the change. -/
def renameUser (listing : Template) : Script Unit := do
  let condition ← (Condition.compare "email" "=" (.text "bob@example.com")).compile fields
  let condition := condition.asWhere
  let s ← (nameChange condition).generate (Bindings.empty.bindValue (.name "name") (.text "Robert"))
  let summary ← s.execute .pool
  say ("Updated " ++ toString summary.affected.toNat ++ " row(s)")
  let s ← listing.generate (Bindings.empty.bindBlock (.name "where") condition)
  match ← s.fetchOptional User.ofRow .pool with
  | some u => say ("Updated user is now: " ++ u.name ++ " (" ++ u.email ++ ")")
  | none => return ()

/-- Deletes a user by a condition with a named placeholder. -/
def deleteUser : Script Unit := do
  let condition ← Fragment.ofNamed "where email = :email"
  let s ← (Template.delete (.text "users") (.fragment condition) false).generate
    (Bindings.empty.bindValue (.name "email") (.text "charlie@example.com"))
  let summary ← s.execute .pool
  say ("Deleted " ++ toString summary.affected.toNat ++ " row(s)")

/-- Tries a field that is not allowed. -/
def tryUnknownField : Script Unit := do
  let attempt : Traced Fragment := (Condition.compare "password" "=" (.text "x")).compile fields
  match ← (Session.ofTraced attempt).attempt.mapError .library with
  | .ok _ => say "Unexpectedly accepted"
  | .error e => say ("Rejected: " ++ e.message)

/-- The whole scenario. -/
def script (connection : Except DatabaseError Unit) : Script Unit := do
  connect connection
  say "\nCreating users table..."
  let _ ← Session.executeText .pool creation
  say "\n--- Example 1: Inserting users ---"
  insertUser "Alice" "alice@example.com"
  insertUser "Bob" "bob@example.com"
  insertUser "Charlie" "charlie@example.com"
  say "\n--- Example 2: Fetching all users ---"
  let order ← SortOrder.ofItems ["id"] fields
  let listing := listing order
  listUsers listing "Found"
  say "\n--- Example 3: Finding user by email ---"
  findUser listing
  say "\n--- Example 4: Updating user ---"
  renameUser listing
  say "\n--- Example 5: Deleting user ---"
  deleteUser
  say "\n--- Example 6: Unknown field ---"
  tryUnknownField
  say "\n--- Final state ---"
  listUsers listing "Remaining"
  say "\nCleaning up..."
  let _ ← Session.executeText .pool "DROP TABLE IF EXISTS users"
  say "\nExample completed successfully!"

end Users

end Scenario

end BoundSql
