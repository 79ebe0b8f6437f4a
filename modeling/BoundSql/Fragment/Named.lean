import BoundSql.Fragment.Basic

/-!
# SQL with named placeholders

In SQL with named placeholders a colon and a name stand for a value.  A name is a longest run of
ASCII letters, digits and underscores; a colon that no such character follows is plain text.
`NamedSql.pieces` splits a text accordingly, and `Fragment.ofNamed` makes a fragment of it, with a `?`
for each name and the name as the key of its placeholder.
-/

namespace BoundSql

namespace NamedSql

/-- The characters of a name. -/
def isNameChar (c : Char) : Bool :=
  decide ('a' ≤ c ∧ c ≤ 'z') || decide ('A' ≤ c ∧ c ≤ 'Z') || decide ('0' ≤ c ∧ c ≤ '9') || c == '_'

/-- A character of plain text, or a placeholder with the characters of its name. -/
inductive Piece
  | plain (c : Char)
  | named (name : List Char)
  deriving DecidableEq

/-- The pieces of a text from left to right. -/
def pieces : List Char → List Piece
  | [] => []
  | c :: cs =>
    if c = ':' ∧ cs.takeWhile isNameChar ≠ [] then
      .named (cs.takeWhile isNameChar) :: pieces (cs.dropWhile isNameChar)
    else .plain c :: pieces cs
termination_by cs => cs.length
decreasing_by
  · have := (List.dropWhile_sublist isNameChar (l := cs)).length_le
    simp only [List.length_cons]
    omega
  · simp

namespace Piece

/-- The text of a piece with a `?` for a name. -/
def positional : Piece → List Char
  | .plain c => [c]
  | .named _ => ['?']

/-- The name of a placeholder. -/
def name? : Piece → Option String
  | .plain _ => none
  | .named name => some (String.ofList name)

end Piece

/-- The text with a `?` for each named placeholder. -/
def toPositional (sql : String) : String :=
  String.ofList ((pieces sql.toList).flatMap Piece.positional)

/-- The names of the placeholders from left to right. -/
def names (sql : String) : List String := (pieces sql.toList).filterMap Piece.name?

end NamedSql

namespace Fragment

/-- A fragment written with named placeholders.  A name that is used twice gives two arguments with one
key; a `?` of the text has no argument and is refused. -/
def ofNamed (sql : String) : Except Error Fragment :=
  checked (NamedSql.toPositional sql)
    ((NamedSql.names sql).map fun name => .placeholder (.ofKey (.name name)))

end Fragment

end BoundSql
