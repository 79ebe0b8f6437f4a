import BoundSql.Template.Basic

/-!
# Templates from JSON

A template is read from an array.  A string is SQL without `?`.  An object with a member `param` is a
placeholder of a block, with a string as its default or none.  Another object with a member `sql` is a
fragment; its `values` are scalars, or objects with a member `param`, which are placeholders of
values.  The first bad element is the error.
-/

namespace BoundSql

namespace Key

/-- The key in the member `param` of a template's element. -/
def ofElement (j : Json) : Except Error Key :=
  match ofJson? j with
  | some k => .ok k
  | none => .error (.badSegment (.notAKey j))

end Key

namespace Argument

/-- The placeholder that an object with the member `param` denotes.  A default that is null is the value
null. -/
def placeholderOfMembers (param : Json) (ms : Table String Json) : Except Error Argument := do
  let key ← Key.ofElement param
  match ms.get? "default" with
  | none => return .placeholder (.ofKey key)
  | some j =>
    let v ← Value.ofJson j
    return .placeholder ((Placeholder.ofKey key).withDefault v)

/-- The argument that an element of `values` denotes. -/
def ofJson (j : Json) : Except Error Argument :=
  match j with
  | .object ms =>
    match Table.get? ms "param" with
    | some param => placeholderOfMembers param ms
    | none => (Value.ofJson j).map .value
  | _ => (Value.ofJson j).map .value

end Argument

namespace Segment

/-- The placeholder of a block that an object with the member `param` denotes.  A default that is null is
no default. -/
def blockOfMembers (param : Json) (ms : Table String Json) : Except Error Segment := do
  let key ← Key.ofElement param
  match ms.get? "default" with
  | none => return .block (.ofKey key)
  | some .null => return .block (.ofKey key)
  | some (.string sql) =>
    let f ← Fragment.plain sql
    return .block ((Placeholder.ofKey key).withDefault f)
  | some other => .error (.badSegment (.blockDefault other))

/-- The arguments that the member `values` denotes; without it there are none. -/
def argsOfMembers (ms : Table String Json) : Except Error (List Argument) :=
  match ms.get? "values" with
  | none => .ok []
  | some (.array values) => values.mapM Argument.ofJson
  | some other => .error (.badSegment (.fragmentValues other))

/-- The fragment that an object with the member `sql` denotes. -/
def fragmentOfMembers (sql : Json) (ms : Table String Json) : Except Error Segment :=
  match sql with
  | .string s => do
    let args ← argsOfMembers ms
    let f ← Fragment.checked s args
    return .fragment f
  | other => .error (.badSegment (.fragmentText other))

/-- The segment that an element denotes. -/
def ofJson (j : Json) : Except Error Segment :=
  match j with
  | .string sql => (Fragment.plain sql).map .fragment
  | .object ms =>
    match Table.get? ms "param" with
    | some param => blockOfMembers param ms
    | none =>
      match Table.get? ms "sql" with
      | some sql => fragmentOfMembers sql ms
      | none => .error (.badSegment (.notASegment j))
  | other => .error (.badSegment (.notASegment other))

end Segment

namespace Template

/-- The template that a JSON value denotes. -/
def ofJson : Json → Except Error Template
  | .array elements => (elements.mapM Segment.ofJson).map ofSegments
  | other => .error (.badSegment (.notAnArray other))

end Template

end BoundSql
