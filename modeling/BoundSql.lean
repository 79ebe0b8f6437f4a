import BoundSql.AllowList
import BoundSql.Binary64
import BoundSql.Condition.Basic
import BoundSql.Condition.Compile
import BoundSql.Condition.Reading
import BoundSql.Condition.Rendering
import BoundSql.Database.Error
import BoundSql.Database.Row
import BoundSql.Database.Session
import BoundSql.Decimal
import BoundSql.Diagnostics
import BoundSql.Error
import BoundSql.Fragment.Basic
import BoundSql.Fragment.Named
import BoundSql.Json.Basic
import BoundSql.Json.Literal
import BoundSql.Json.Reader
import BoundSql.Key
import BoundSql.Proofs.Condition.Absorption
import BoundSql.Proofs.Condition.Acceptance
import BoundSql.Proofs.Condition.Grammar
import BoundSql.Proofs.Condition.Layers
import BoundSql.Proofs.Condition.Leaves
import BoundSql.Proofs.Condition.Machine
import BoundSql.Proofs.Condition.Meaning
import BoundSql.Proofs.Condition.Noninterference
import BoundSql.Proofs.Condition.Readability
import BoundSql.Proofs.Condition.Traversal
import BoundSql.Proofs.Condition.Validation
import BoundSql.Proofs.Database.Exchanges
import BoundSql.Proofs.Fragment.Accounting
import BoundSql.Proofs.Fragment.Composition
import BoundSql.Proofs.Fragment.Join
import BoundSql.Proofs.Fragment.NamedSql
import BoundSql.Proofs.Fragment.Normalization
import BoundSql.Proofs.Fragment.Regrouping
import BoundSql.Proofs.Grammar
import BoundSql.Proofs.Json.Denotation
import BoundSql.Proofs.Json.Numerals
import BoundSql.Proofs.Json.Recovery
import BoundSql.Proofs.Json.RoundTrip
import BoundSql.Proofs.Json.Scalars
import BoundSql.Proofs.Number.Exactness
import BoundSql.Proofs.Number.Range
import BoundSql.Proofs.Number.Shortest
import BoundSql.Proofs.Outcome
import BoundSql.Proofs.Scenario.Settlement
import BoundSql.Proofs.Scenario.Transfers
import BoundSql.Proofs.SortOrder.Grammar
import BoundSql.Proofs.SortOrder.Merging
import BoundSql.Proofs.Statement.RoundTrip
import BoundSql.Proofs.Template.Alignment
import BoundSql.Proofs.Template.Balance
import BoundSql.Proofs.Template.Grammar
import BoundSql.Proofs.Template.Independence
import BoundSql.Proofs.Template.Keys
import BoundSql.Proofs.Template.Modification
import BoundSql.Proofs.Template.Overrides
import BoundSql.Proofs.Template.Phases
import BoundSql.Proofs.Template.Pieces
import BoundSql.Proofs.Template.Registration
import BoundSql.Proofs.Template.Reports
import BoundSql.Proofs.Template.Selection
import BoundSql.Proofs.Template.Staging
import BoundSql.Proofs.Template.Stored
import BoundSql.Proofs.Template.Supply
import BoundSql.Proofs.Text.Bytes
import BoundSql.Proofs.Text.Parentheses
import BoundSql.Proofs.Wire.Decoding
import BoundSql.Scenario.Basic
import BoundSql.Scenario.Transfers
import BoundSql.Scenario.Users
import BoundSql.Statement
import BoundSql.Table
import BoundSql.Template.Basic
import BoundSql.Template.Commands
import BoundSql.Template.Reading
import BoundSql.Value
import BoundSql.Wire

/-!
# SQL with bound arguments

A library for SQL that is put together from parts at run time, in which no value of a caller ever becomes
text.  A `?` of a text stands for an argument, a value or a placeholder for one, and text and arguments are
kept together while parts are joined; whether they agree is counted when a statement is made of them.

* Contents: `Value`, `Key` and `Json`, above `Binary64`, `Decimal` and `Table`.
* Parts of SQL: `Fragment` with `Placeholder` and `NamedSql`, and `Statement` with `Bindings`.
* What callers ask for, checked against an `AllowList`: `Condition`, which a machine without recursion
  compiles, and `SortOrder`.
* Whole statements: `Template`, which is generated in two phases, and `Selection`.
* The database: `Wire`, `Session` and the programs under `Scenario`.

The modules under `Proofs` are the theory of these.  `Proofs.Fragment` accounts for the `?` of everything
that is composed, `Proofs.Condition` relates the machine to recursion on the tree and says what a condition
means, `Proofs.Template` follows what is bound and stored through the generation, and `Proofs.Json`,
`Proofs.Statement` and `Proofs.Wire` read back what is written.  `Proofs.Scenario` is about every run of the
programs, whatever the database replies.
-/
