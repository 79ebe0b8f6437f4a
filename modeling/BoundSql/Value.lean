import BoundSql.Error
import BoundSql.Json.Reader

/-!
# Values

A `Value` is what a placeholder of a statement is bound to.  Values are read from JSON scalars and
written as JSON; bytes are written as an array of numbers, which no value is read from, and a
floating-point number that is not finite is written as null.
-/

namespace BoundSql

/-- A scalar that a statement binds. -/
inductive Value
  | null
  | bool (b : Bool)
  | int (n : Int64)
  | float (x : Binary64)
  | text (s : String)
  | bytes (bs : List UInt8)
  deriving DecidableEq

namespace Value

/-- Whether a value counts as true: null, false, zero, the empty text, the text of a zero digit and no
bytes do not. -/
def countsAsTrue : Value → Bool
  | .null => false
  | .bool b => b
  | .int n => n != 0
  | .float x => !x.isZero
  | .text s => s != "" && s != "0"
  | .bytes bs => !bs.isEmpty

/-- The value of a JSON number: an integer where it fits, else the nearest double. -/
def ofNumber : Json.Number → Value
  | .integer n _ => if n < 0x8000000000000000 then .int (Int64.ofInt n) else .float (Binary64.ofInt n)
  | .float x _ => .float x

/-- The value of a JSON scalar; arrays and objects have none. -/
def ofJson : Json → Except Error Value
  | .null => .ok .null
  | .bool b => .ok (.bool b)
  | .number n => .ok (ofNumber n)
  | .string s => .ok (.text s)
  | .array _ => .error .notAValue
  | .object _ => .error .notAValue

/-- The value as JSON. -/
def toJson : Value → Json
  | .null => .null
  | .bool b => .bool b
  | .int n => .number (.ofInt64 n)
  | .float x => match Json.Number.ofBinary64? x with
    | some n => .number n
    | none => .null
  | .text s => .string s
  | .bytes bs => .array (bs.map fun b => .number (.ofUInt8 b))

/-- Likeness of values: of one kind, with equal contents, floating-point numbers as numbers. -/
def alike : Value → Value → Bool
  | .float x, .float y => x.equal y
  | v, w => decide (v = w)

instance : Alike Value := ⟨alike⟩

end Value

namespace Json

/-- Reads a text as JSON and makes something of it.  What is wrong with the first value of the text is
reported before anything that follows that value. -/
def decodeText {α : Type} (decode : Json → Except Error α) (text : String) : Except Error α :=
  match read? text.toList with
  | none => .error .notJson
  | some (j, rest) =>
    match decode j with
    | .error e => .error e
    | .ok a => if (skipBlanks rest).isEmpty then .ok a else .error .notJson

end Json

namespace Value

/-- The value that a JSON text denotes. -/
def ofText (text : String) : Except Error Value := Json.decodeText ofJson text

end Value

namespace Key

/-- The number that a JSON value denotes as a key. -/
def indexOfJson? : Json → Option Key
  | .number n => n.toUInt64?.map .index
  | _ => none

/-- The name that a JSON value denotes as a key. -/
def nameOfJson? : Json → Option Key
  | .string s => some (.name s)
  | _ => none

/-- The key that a JSON value denotes: it is tried as a number and then as a name. -/
def ofJson (j : Json) : Except Error Key :=
  match (indexOfJson? j).or (nameOfJson? j) with
  | some k => .ok k
  | none => .error .notAKey

/-- The key that a JSON text denotes. -/
def ofText (text : String) : Except Error Key := Json.decodeText ofJson text

end Key

end BoundSql
