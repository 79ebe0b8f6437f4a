import BoundSql.Statement

/-!
# Arguments on the wire

Before a statement is sent, its values are bound one by one as the parameters of a query
(`Statement.query`), or of a query whose rows are read as something (`Statement.queryAs`).  The parameters
become the arguments of the database's binary protocol: a type for each, one bit for each that says whether
it is null, and the bytes of the others one after the other.  Texts and byte strings carry their length in
front.
-/

namespace BoundSql

namespace Wire

/-- The type of an argument. -/
inductive Kind
  | tiny
  | longLong
  | double
  | varString
  | blob
  deriving DecidableEq

namespace Kind

/-- The name of a type. -/
def text : Kind → String
  | .tiny => "Tiny"
  | .longLong => "LongLong"
  | .double => "Double"
  | .varString => "VarString"
  | .blob => "Blob"

end Kind

/-- The lowest `count` bytes of a number, the lowest first. -/
def littleEndian : (count n : Nat) → List UInt8
  | 0, _ => []
  | count + 1, n => UInt8.ofNat n :: littleEndian count (n / 256)

/-- A length: below 251 one byte, else a mark that says how many bytes follow. -/
def lengthBytes (n : Nat) : List UInt8 :=
  if n < 251 then [UInt8.ofNat n]
  else if n < 0x10000 then 0xfc :: littleEndian 2 n
  else if n < 0x1000000 then 0xfd :: littleEndian 3 n
  else 0xfe :: littleEndian 8 n

/-- Bytes with their length in front. -/
def counted (bs : List UInt8) : List UInt8 := lengthBytes bs.length ++ bs

/-- The bytes of a text. -/
def utf8 (s : String) : List UInt8 := s.toUTF8.data.toList

/-- The number whose lowest bits are the given ones, the lowest first. -/
def ofBits : List Bool → Nat
  | [] => 0
  | b :: bs => (if b then 1 else 0) + 2 * ofBits bs

/-- Bits packed into bytes from the lowest bit of the first byte on. -/
def packBits (bits : List Bool) : List UInt8 :=
  littleEndian ((bits.length + 7) / 8) (ofBits bits)

/-- What is bound to one `?`; a text may be missing, which is null. -/
inductive Parameter
  | text (s? : Option String)
  | flag (b : Bool)
  | integer (n : Int64)
  | double (x : Binary64)
  | bytes (bs : List UInt8)
  deriving DecidableEq

namespace Parameter

/-- The type that a parameter is sent as. -/
def kind : Parameter → Kind
  | .text _ => .varString
  | .flag _ => .tiny
  | .integer _ => .longLong
  | .double _ => .double
  | .bytes _ => .blob

/-- Whether a parameter is sent as null. -/
def isNull : Parameter → Bool
  | .text s? => s?.isNone
  | _ => false

/-- The bytes that a parameter is sent as. -/
def data : Parameter → List UInt8
  | .text none => []
  | .text (some s) => counted (utf8 s)
  | .flag b => [if b then 1 else 0]
  | .integer n => littleEndian 8 n.toUInt64.toNat
  | .double x => littleEndian 8 x.bits.toNat
  | .bytes bs => counted bs

end Parameter

end Wire

/-- The arguments of a statement as they are sent. -/
structure BoundArguments where
  kinds : List Wire.Kind
  nulls : List UInt8
  data : List UInt8
  deriving DecidableEq

namespace BoundArguments

/-- The arguments that some parameters make, in order. -/
def ofParameters (parameters : List Wire.Parameter) : BoundArguments where
  kinds := parameters.map Wire.Parameter.kind
  nulls := Wire.packBits (parameters.map Wire.Parameter.isNull)
  data := parameters.flatMap Wire.Parameter.data

/-- The number of arguments. -/
def count (a : BoundArguments) : Nat := a.kinds.length

end BoundArguments

/-- SQL with the parameters that were bound so far. -/
structure Query where
  sql : String
  parameters : List Wire.Parameter
  deriving DecidableEq

namespace Query

/-- SQL without parameters. -/
def ofText (sql : String) : Query := ⟨sql, []⟩

/-- Binds the next parameter. -/
def bind (q : Query) (p : Wire.Parameter) : Query := { q with parameters := q.parameters ++ [p] }

/-- The arguments that the query is sent with. -/
def arguments (q : Query) : BoundArguments := .ofParameters q.parameters

/-- Binds a value as the next parameter; null is a missing text. -/
def bindValue (q : Query) : Value → Query
  | .null => q.bind (.text none)
  | .bool b => q.bind (.flag b)
  | .int n => q.bind (.integer n)
  | .float x => q.bind (.double x)
  | .text s => q.bind (.text (some s))
  | .bytes bs => q.bind (.bytes bs)

end Query

/-- A query whose rows are read as values of a type. -/
structure RowQuery (α : Type) where
  query : Query

namespace RowQuery

variable {α : Type}

/-- SQL without parameters. -/
def ofText (sql : String) : RowQuery α := ⟨.ofText sql⟩

/-- Binds the next parameter. -/
def bind (q : RowQuery α) (p : Wire.Parameter) : RowQuery α := ⟨q.query.bind p⟩

/-- Binds a value as the next parameter, in the way of `Query.bindValue`. -/
def bindValue (q : RowQuery α) : Value → RowQuery α
  | .null => q.bind (.text none)
  | .bool b => q.bind (.flag b)
  | .int n => q.bind (.integer n)
  | .float x => q.bind (.double x)
  | .text s => q.bind (.text (some s))
  | .bytes bs => q.bind (.bytes bs)

end RowQuery

namespace Statement

/-- The query of a statement, with its values bound in order. -/
def query (s : Statement) : Query := s.values.foldl Query.bindValue (.ofText s.sql)

/-- The query of a statement whose rows are read as something, with its values bound in order. -/
def queryAs (α : Type) (s : Statement) : RowQuery α :=
  s.values.foldl RowQuery.bindValue (.ofText s.sql)

/-- The arguments that a statement is sent with. -/
def arguments (s : Statement) : BoundArguments := s.query.arguments

end Statement

end BoundSql
