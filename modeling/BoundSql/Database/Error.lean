/-!
# Failures of a database

What a database or the way to it can report instead of an answer, and the texts of these reports.
-/

namespace BoundSql

/-- The types of the columns that a database sends. -/
inductive ColumnType
  | int
  | bigint
  | varchar
  deriving DecidableEq

/-- The types of the fields that rows are read into. -/
inductive FieldType
  | int
  | text
  deriving DecidableEq

/-- How a column was asked for. -/
inductive ColumnRef
  | name (s : String)
  | index (n : Nat)
  deriving DecidableEq

/-- Why a cell could not be read into a field. -/
inductive CellError
  | null
  | typeMismatch (wanted : FieldType) (found : ColumnType)
  | tooLarge
  | tooSmall
  | noDigits
  | notADigit
  deriving DecidableEq

/-- What a database reports instead of an answer. -/
inductive DatabaseError
  | server (code : Nat) (state message : String)
  | rowNotFound
  | columnNotFound (name : String)
  | cell (column : ColumnRef) (cause : CellError)
  | poolClosed
  | poolTimedOut
  | workerCrashed
  | badData (detail : String)
  | addressWithoutBase
  deriving DecidableEq

namespace ColumnType

/-- The name of the type in the database. -/
def sqlName : ColumnType → String
  | .int => "INT"
  | .bigint => "BIGINT"
  | .varchar => "VARCHAR"

end ColumnType

namespace FieldType

/-- The name of the type in the program that reads rows. -/
def typeName : FieldType → String
  | .int => "i32"
  | .text => "alloc::string::String"

/-- The name of the database's type for such fields. -/
def sqlName : FieldType → String
  | .int => ColumnType.int.sqlName
  | .text => ColumnType.varchar.sqlName

end FieldType

namespace ColumnRef

/-- A column as it is shown in a report: a name in quotes, a place as a number. -/
def text : ColumnRef → String
  | .name s => "\"" ++ s ++ "\""
  | .index n => toString n

end ColumnRef

namespace CellError

/-- Why a cell could not be read. -/
def message : CellError → String
  | .null => "unexpected null; try decoding as an `Option`"
  | .typeMismatch wanted found =>
    "mismatched types; Rust type `" ++ wanted.typeName ++ "` (as SQL type `" ++ wanted.sqlName ++
      "`) is not compatible with SQL type `" ++ found.sqlName ++ "`"
  | .tooLarge => "number too large to fit in target type"
  | .tooSmall => "number too small to fit in target type"
  | .noDigits => "cannot parse integer from empty string"
  | .notADigit => "invalid digit found in string"

end CellError

namespace DatabaseError

/-- The text of a report. -/
def message : DatabaseError → String
  | .server code state message =>
    "error returned from database: " ++ toString code ++ " (" ++ state ++ "): " ++ message
  | .rowNotFound => "no rows returned by a query that expected to return at least one row"
  | .columnNotFound name => "no column found for name: " ++ name
  | .cell column cause => "error occurred while decoding column " ++ column.text ++ ": " ++ cause.message
  | .poolClosed => "attempted to acquire a connection on a closed pool"
  | .poolTimedOut => "pool timed out while waiting for an open connection"
  | .workerCrashed => "attempted to communicate with a crashed background worker"
  | .badData detail => "encountered unexpected or invalid data: " ++ detail
  | .addressWithoutBase => "error with configuration: relative URL without a base"

end DatabaseError

end BoundSql
