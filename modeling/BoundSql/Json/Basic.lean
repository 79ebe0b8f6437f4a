import BoundSql.Binary64
import BoundSql.Table

/-!
# JSON values and their text

A JSON number is an integer of at most 64 bits, with or without a sign, or a finite floating-point
number; the type admits nothing else.  An object is a table in the order of its member names.

`Json.render` writes a value without blanks in front of a given text.  Strings escape the quote, the
backslash and the control characters and nothing else; floating-point numbers have the fewest digits
to which no other double is nearer, and always a point or an exponent, so that none is taken for an
integer.
-/

namespace BoundSql

namespace Json

/-- The numbers that a JSON value can hold. -/
inductive Number
  | integer (n : Int) (inRange : -0x8000000000000000 ≤ n ∧ n < 0x10000000000000000)
  | float (x : Binary64) (finite : x.isFinite = true)
  deriving DecidableEq

namespace Number

/-- An integer as a number, if it fits into 64 bits with or without a sign. -/
def ofInt? (n : Int) : Option Number :=
  if h : -0x8000000000000000 ≤ n ∧ n < 0x10000000000000000 then some (.integer n h) else none

/-- A floating-point number as a number, if it is finite. -/
def ofBinary64? (x : Binary64) : Option Number :=
  if h : x.isFinite = true then some (.float x h) else none

/-- A signed integer of 64 bits as a number. -/
def ofInt64 (n : Int64) : Number :=
  .integer n.toInt ⟨Int64.le_toInt n, Int.lt_trans (Int64.toInt_lt n) (by decide)⟩

/-- An unsigned integer of 64 bits as a number. -/
def ofUInt64 (n : UInt64) : Number :=
  .integer n.toNat ⟨by omega, by have := n.toNat_lt; omega⟩

/-- A byte as a number. -/
def ofUInt8 (n : UInt8) : Number :=
  .integer n.toNat ⟨by omega, by have := n.toNat_lt; omega⟩

/-- The unsigned integer of 64 bits that a number is, if it is one.  A floating-point number is none, even
without a fraction. -/
def toUInt64? : Number → Option UInt64
  | .integer n _ => if n < 0 then none else some (UInt64.ofNat n.toNat)
  | .float _ _ => none

end Number

end Json

/-- A JSON value.  The members of an object that was read are a table: ascending, each name once. -/
inductive Json
  | null
  | bool (b : Bool)
  | number (n : Json.Number)
  | string (s : String)
  | array (items : List Json)
  | object (members : List (String × Json))
  deriving Inhabited

namespace Json

/-- The object with the given members; a member name that is repeated keeps its last value. -/
def ofMembers (members : List (String × Json)) : Json := .object (Table.ofPairs members)

/-! ## Text -/

/-- Numbers with a first digit between `10 ^ -5` and `10 ^ 15` are written positionally, others with
an `e` and a signed exponent. -/
def floatLayout : Decimal.Layout := ⟨-5, 16, 'e', ['+']⟩

/-- The digit of a number below sixteen, in lower case. -/
def hexDigit (n : Nat) : Char := Nat.digitChar n

/-- A character as it stands inside a string. -/
def escape (c : Char) : List Char :=
  if c = '"' then ['\\', '"']
  else if c = '\\' then ['\\', '\\']
  else if c = '\n' then ['\\', 'n']
  else if c = '\t' then ['\\', 't']
  else if c = '\r' then ['\\', 'r']
  else if c = '\x08' then ['\\', 'b']
  else if c = '\x0c' then ['\\', 'f']
  else if c.toNat < 32 then
    ['\\', 'u', '0', '0', hexDigit (c.toNat / 16), hexDigit (c.toNat % 16)]
  else [c]

/-- A string between quotes, followed by `rest`. -/
def quote (s : String) (rest : List Char) : List Char :=
  '"' :: (s.toList.flatMap escape ++ '"' :: rest)

/-- An integer in base ten. -/
def renderInt (n : Int) : List Char :=
  (if n < 0 then ['-'] else []) ++ Decimal.digits n.natAbs

/-- A finite floating-point number. -/
def renderFloat (x : Binary64) : List Char :=
  (if x.negative then ['-'] else []) ++ floatLayout.render x.shortest

/-- The text of a number. -/
def Number.render : Number → List Char
  | .integer n _ => renderInt n
  | .float x _ => renderFloat x

mutual

/-- The text of a value, followed by `rest`. -/
def render : Json → (rest : List Char) → List Char
  | .null, rest => 'n' :: 'u' :: 'l' :: 'l' :: rest
  | .bool true, rest => 't' :: 'r' :: 'u' :: 'e' :: rest
  | .bool false, rest => 'f' :: 'a' :: 'l' :: 's' :: 'e' :: rest
  | .number n, rest => n.render ++ rest
  | .string s, rest => quote s rest
  | .array [], rest => '[' :: ']' :: rest
  | .array (x :: xs), rest => '[' :: render x (renderItems xs rest)
  | .object [], rest => '\x7b' :: '\x7d' :: rest
  | .object ((k, v) :: ms), rest => '\x7b' :: quote k (':' :: render v (renderMembers ms rest))

/-- The items after the first one and the end of the array, followed by `rest`. -/
def renderItems : List Json → (rest : List Char) → List Char
  | [], rest => ']' :: rest
  | x :: xs, rest => ',' :: render x (renderItems xs rest)

/-- The members after the first one and the end of the object, followed by `rest`. -/
def renderMembers : List (String × Json) → (rest : List Char) → List Char
  | [], rest => '\x7d' :: rest
  | (k, v) :: ms, rest => ',' :: quote k (':' :: render v (renderMembers ms rest))

end

/-- The text of a value as a string. -/
def toText (j : Json) : String := String.ofList (j.render [])

end Json

end BoundSql
