import BoundSql.Json.Literal

/-!
# Reading JSON text

A `Json.Reader` takes what it reads from the front of a text and leaves the rest.  `Json.read?` reads
one value; arrays and objects may be nested up to `Json.nestingLimit`, and that limit is also what the
reader recurs on.  Texts that are no JSON, numbers beyond the range of a double and lone halves of
surrogate pairs are refused.
-/

namespace BoundSql

namespace Json

/-- What reads a value from the front of a text, leaving the rest. -/
abbrev Reader (α : Type) := List Char → Option (α × List Char)

/-- How many arrays and objects may be open at once. -/
def nestingLimit : Nat := 127

/-- The characters that may stand between the parts of a text. -/
def isBlank (c : Char) : Bool := c == ' ' || c == '\n' || c == '\t' || c == '\r'

/-- The text from its first character that is not blank. -/
def skipBlanks (cs : List Char) : List Char := cs.dropWhile isBlank

/-- The value of a hexadecimal digit. -/
def hexValue? (c : Char) : Option Nat :=
  if '0' ≤ c ∧ c ≤ '9' then some (c.toNat - 48)
  else if 'a' ≤ c ∧ c ≤ 'f' then some (c.toNat - 87)
  else if 'A' ≤ c ∧ c ≤ 'F' then some (c.toNat - 55)
  else none

/-- The number that four hexadecimal digits denote. -/
def hexQuad? (a b c d : Char) : Option Nat := do
  let a ← hexValue? a
  let b ← hexValue? b
  let c ← hexValue? c
  let d ← hexValue? d
  return ((a * 16 + b) * 16 + c) * 16 + d

/-- The character that a backslash followed by one character stands for. -/
def unescape? : Char → Option Char
  | '"' => some '"'
  | '\\' => some '\\'
  | '/' => some '/'
  | 'b' => some '\x08'
  | 'f' => some '\x0c'
  | 'n' => some '\n'
  | 'r' => some '\r'
  | 't' => some '\t'
  | _ => none

/-- Puts a character before what a reader has read. -/
def consTo (c : Char) : Option (List Char × List Char) → Option (List Char × List Char)
  | some (cs, rest) => some (c :: cs, rest)
  | none => none

/-- The characters of a string whose opening quote has been read. -/
def readChars : Reader (List Char)
  | [] => none
  | '"' :: rest => some ([], rest)
  | '\\' :: 'u' :: a :: b :: c :: d :: rest =>
    match hexQuad? a b c d with
    | none => none
    | some u =>
      if 0xD800 ≤ u ∧ u < 0xDC00 then
        match rest with
        | '\\' :: 'u' :: e :: f :: g :: h :: rest =>
          match hexQuad? e f g h with
          | none => none
          | some v =>
            if 0xDC00 ≤ v ∧ v < 0xE000 then
              consTo (Char.ofNat (0x10000 + (u - 0xD800) * 0x400 + (v - 0xDC00))) (readChars rest)
            else none
        | _ => none
      else if 0xDC00 ≤ u ∧ u < 0xE000 then none
      else consTo (Char.ofNat u) (readChars rest)
  | '\\' :: e :: rest =>
    match unescape? e with
    | none => none
    | some c => consTo c (readChars rest)
  | c :: rest => if c.toNat < 32 then none else consTo c (readChars rest)

/-- A string whose opening quote has been read. -/
def readString : Reader String := fun cs =>
  (readChars cs).map fun (s, rest) => (String.ofList s, rest)

/-- The fraction digits, if a point is next; at least one digit has to follow it. -/
def readFraction : Reader (Option (List Char))
  | '.' :: rest =>
    match rest.span isDigit with
    | ([], _) => none
    | (ds, rest) => some (some ds, rest)
  | rest => some (none, rest)

/-- The sign of an exponent; without one it is positive. -/
def readExponentSign : List Char → Bool × List Char
  | '-' :: rest => (true, rest)
  | '+' :: rest => (false, rest)
  | rest => (false, rest)

/-- The exponent, if its mark is next; at least one digit has to follow. -/
def readExponent : Reader (Option Int)
  | c :: rest =>
    if c = 'e' ∨ c = 'E' then
      let (down, rest) := readExponentSign rest
      match rest.span isDigit with
      | ([], _) => none
      | (ds, rest) =>
        let e : Int := digitsValue ds
        some (some (if down then -e else e), rest)
    else some (none, c :: rest)
  | [] => some (none, [])

/-- The digits before the point: a zero alone, or digits that start with another one. -/
def readWhole : Reader (List Char) := fun cs =>
  match cs.span isDigit with
  | ([], _) => none
  | ('0' :: _ :: _, _) => none
  | (ds, rest) => some (ds, rest)

/-- A number literal, its sign already read. -/
def readLiteral (negative : Bool) : Reader Literal := fun cs => do
  let (whole, cs) ← readWhole cs
  let (fraction, cs) ← readFraction cs
  let (exponent, cs) ← readExponent cs
  return (⟨negative, whole, fraction, exponent⟩, cs)

/-- A number, its sign already read. -/
def readUnsigned (negative : Bool) : Reader Json := fun cs => do
  let (literal, cs) ← readLiteral negative cs
  let n ← literal.number?
  return (.number n, cs)

/-- A value that is neither an array nor an object. -/
def readScalar : Reader Json
  | 'n' :: 'u' :: 'l' :: 'l' :: rest => some (.null, rest)
  | 't' :: 'r' :: 'u' :: 'e' :: rest => some (.bool true, rest)
  | 'f' :: 'a' :: 'l' :: 's' :: 'e' :: rest => some (.bool false, rest)
  | '"' :: rest => (readString rest).map fun (s, rest) => (.string s, rest)
  | '-' :: rest => readUnsigned true rest
  | cs => readUnsigned false cs

/-- At least one item and then the closing character, items being separated by commas.  There are no
more items than `bound`, for which the length of the text will do. -/
def readItems {α : Type} (item : Reader α) (close : Char) : (bound : Nat) → Reader (List α)
  | 0, _ => none
  | bound + 1, cs =>
    match item cs with
    | none => none
    | some (x, rest) =>
      match skipBlanks rest with
      | [] => none
      | c :: rest =>
        if c = close then some ([x], rest)
        else if c = ',' then
          match readItems item close bound rest with
          | none => none
          | some (xs, rest) => some (x :: xs, rest)
        else none

/-- Items separated by commas, or none, and then the closing character. -/
def readList {α : Type} (item : Reader α) (close : Char) : Reader (List α) := fun cs =>
  match skipBlanks cs with
  | [] => none
  | c :: rest => if c = close then some ([], rest) else readItems item close (c :: rest).length (c :: rest)

/-- A member of an object: its name, a colon and its value. -/
def readMember (value : Reader Json) : Reader (String × Json) := fun cs =>
  match skipBlanks cs with
  | '"' :: rest =>
    match readString rest with
    | none => none
    | some (name, rest) =>
      match skipBlanks rest with
      | ':' :: rest => (value rest).map fun (v, rest) => ((name, v), rest)
      | _ => none
  | _ => none

/-- A value that opens at most `room` arrays and objects within each other. -/
def readValue : (room : Nat) → Reader Json
  | 0, cs => readScalar (skipBlanks cs)
  | room + 1, cs =>
    match skipBlanks cs with
    | '[' :: rest => (readList (readValue room) ']' rest).map fun (xs, rest) => (.array xs, rest)
    | '\x7b' :: rest =>
      (readList (readMember (readValue room)) '\x7d' rest).map fun (ms, rest) => (ofMembers ms, rest)
    | cs => readScalar cs

/-- The value at the front of a text, and what follows it. -/
def read? : Reader Json := readValue nestingLimit

/-- The value that a whole text denotes; blanks may follow it. -/
def ofText? (text : String) : Option Json :=
  match read? text.toList with
  | some (j, rest) => if (skipBlanks rest).isEmpty then some j else none
  | none => none

end Json

end BoundSql
