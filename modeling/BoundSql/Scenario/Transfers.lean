import BoundSql.Fragment.Named
import BoundSql.Scenario.Basic
import BoundSql.Template.Commands

/-!
# Scenario: transfers between accounts

The scenario sets up a table of accounts and moves money between them, each time inside a transaction.
A transfer debits one account, looks at its balance and credits the other account.  A transaction is
committed if all of its transfers went well; at the first one that did not, it is rolled back.
-/

namespace BoundSql

namespace Scenario

namespace Transfers

/-- A row of the table. -/
structure Account where
  id : Int32
  name : String
  balance : Int32
  deriving DecidableEq

/-- Reads an account from a row. -/
def Account.ofRow (r : Row) : Except DatabaseError Account := do
  let id ← r.int (.name "id")
  let name ← r.text (.name "name")
  let balance ← r.int (.name "balance")
  return ⟨id, name, balance⟩

/-- The line that shows an account. -/
def Account.line (a : Account) : String :=
  "  " ++ a.name ++ " (id=" ++ toString a.id.toInt ++ "): $" ++ toString a.balance.toInt

/-- An amount of money to be moved from one account to another. -/
structure Transfer where
  source : Int32
  destination : Int32
  amount : Int32
  deriving DecidableEq

/-- The statement that creates the table. -/
def creation : String :=
  "CREATE TABLE accounts (\n" ++
  "            id INT PRIMARY KEY AUTO_INCREMENT,\n" ++
  "            name VARCHAR(100) NOT NULL,\n" ++
  "            balance INT NOT NULL DEFAULT 0\n" ++
  "        )"

/-- The statement that removes the table. -/
def removal : String := "DROP TABLE IF EXISTS accounts"

/-- The templates that every transfer uses. -/
structure TransferTemplates where
  /-- Adds to the balance of an account. -/
  adjustment : Template
  /-- Asks for the balance of an account. -/
  inquiry : Template
  deriving DecidableEq

/-- The templates of transfers. -/
def TransferTemplates.make : Except Error TransferTemplates := do
  let sum ← Fragment.ofNamed "balance + :delta"
  let byId ← Fragment.ofNamed "where id = :id"
  let select := ((Selection.ofTable (.text "accounts")).addColumn "balance").setCondition (.fragment byId)
  return ⟨.update (.text "accounts") [("balance", .fragment sum)] (.fragment byId), select.build⟩

/-- An integer of 32 bits as a value. -/
def intValue (n : Int32) : Value := .int (Int64.ofInt n.toInt)

/-- Adds to the balance of an account; whether there is such an account is in the answer. -/
def adjust (templates : TransferTemplates) (account amount : Int32) : Script Summary := do
  let b := (Bindings.empty.bindValue (.name "delta") (intValue amount)).bindValue (.name "id")
    (intValue account)
  let s ← templates.adjustment.generate b
  s.execute .transaction

/-- The balance of an account. -/
def balance (templates : TransferTemplates) (account : Int32) : Script Int32 := do
  let s ← templates.inquiry.generate (Bindings.empty.bindValue (.name "id") (intValue account))
  s.fetchOne (fun r => r.int (.index 0)) .transaction

/-- Moves money: a debit, a look at the balance, a credit. -/
def transfer (templates : TransferTemplates) (t : Transfer) : Script Unit := do
  say ("  Transferring $" ++ toString t.amount.toInt ++ " from account " ++ toString t.source.toInt ++
    " to account " ++ toString t.destination.toInt)
  let debit ← adjust templates t.source (-t.amount)
  if debit.affected = 0 then refuse .sourceNotFound
  let rest ← balance templates t.source
  if rest < 0 then refuse (.insufficientFunds rest)
  let credit ← adjust templates t.destination t.amount
  if credit.affected = 0 then refuse .destinationNotFound
  say "  ✓ Transfer completed successfully"

/-- Shows all accounts. -/
def listAccounts : Script Unit := do
  let select := ((Selection.ofTable (.text "accounts")).addColumns ["id", "name", "balance"]).setOrder
    (.text "order by id")
  let s ← select.build.generate .empty
  let accounts ← s.fetchAll Account.ofRow .pool
  say "\nCurrent account balances:"
  accounts.forM fun a => say a.line

/-- One transfer in a transaction of its own. -/
def single (templates : TransferTemplates) (t : Transfer) : Script Unit := do
  Session.control .begin
  match ← (transfer templates t).attempt with
  | .ok () =>
    Session.control .commit
    say "  ✓ Transaction committed"
  | .error e =>
    Session.control .rollback
    say ("  ✗ Transaction rolled back: " ++ e.message)

/-- Transfers one after the other; the first failure is shown and ends them.  The result says whether all
of them went well. -/
def transferAll (templates : TransferTemplates) : List Transfer → Script Bool
  | [] => return true
  | t :: rest => do
    match ← (transfer templates t).attempt with
    | .ok () => transferAll templates rest
    | .error e =>
      say ("  ✗ Transfer failed: " ++ e.message)
      return false

/-- Several transfers in one transaction. -/
def several (templates : TransferTemplates) (ts : List Transfer) : Script Unit := do
  Session.control .begin
  if ← transferAll templates ts then
    Session.control .commit
    say "  ✓ All transfers committed"
  else
    Session.control .rollback
    say "  ✗ All transfers rolled back"

/-- Inserts an account. -/
def insertAccount (insertion : Template) (name : String) (balance : Int32) : Script Unit := do
  let b := (Bindings.empty.bindValue (.name "name") (.text name)).bindValue (.name "balance")
    (intValue balance)
  let s ← insertion.generate b
  let _ ← s.execute .pool

/-- The whole scenario. -/
def script (connection : Except DatabaseError Unit) : Script Unit := do
  connect connection
  say "\nSetting up accounts table..."
  let _ ← Session.executeText .pool removal
  let _ ← Session.executeText .pool creation
  say "\nCreating test accounts..."
  let insertion := Template.insert (.text "accounts") (asSegments (openFields ["name", "balance"])) none
  insertAccount insertion "Alice" 1000
  insertAccount insertion "Bob" 500
  insertAccount insertion "Charlie" 750
  listAccounts
  let templates ← TransferTemplates.make
  say "\n--- Example 1: Successful transfer ---"
  single templates ⟨1, 2, 200⟩
  listAccounts
  say "\n--- Example 2: Failed transfer (insufficient funds) ---"
  single templates ⟨2, 1, 1000⟩
  listAccounts
  say "\n--- Example 3: Multiple transfers in one transaction ---"
  several templates [⟨1, 3, 100⟩, ⟨3, 2, 50⟩]
  listAccounts
  say "\nCleaning up..."
  let _ ← Session.executeText .pool removal
  say "\nExample completed successfully!"

end Transfers

end Scenario

end BoundSql
