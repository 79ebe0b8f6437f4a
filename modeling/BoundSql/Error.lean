import BoundSql.Database.Error
import BoundSql.Key

/-!
# Errors

Every failure of the library is a cause, not a text: `Error` says which rule an input breaks and
keeps the part of the input that breaks it.  The wording is in `Error.message` and the two functions
it is made of.
-/

namespace BoundSql

/-- Which operator is unknown. -/
inductive OperatorError
  | comparison (word : String)
  | connective (word : String)
  | condition (word : String)
  | notAWord (json : Json)

/-- What is wrong with the shape of a condition. -/
inductive ShapeError
  | notAnObject (json : Json)
  | comparisonWithoutField (word : String)
  | groupWithoutBlocks (word : String)
  | foldWithoutGroup
  | groupWithoutMarker
  | results (count : Nat)
  | markerAsResult

/-- What is wrong with an element of a template. -/
inductive SegmentError
  | notAnArray (json : Json)
  | notAKey (json : Json)
  | blockDefault (json : Json)
  | fragmentText (json : Json)
  | fragmentValues (json : Json)
  | notASegment (json : Json)

/-- Why an operation of the library failed. -/
inductive Error
  | unknownOperator (cause : OperatorError)
  | unknownField (name : String)
  | unknownDirection (word : String)
  | badShape (cause : ShapeError)
  | missing (level : Level) (key : Key)
  | badSegment (cause : SegmentError)
  | countMismatch (placeholders values : Nat)
  /-- The text is no JSON at all. -/
  | notJson
  /-- An array or object stands where a value is wanted. -/
  | notAValue
  /-- Something else stands where a key is wanted. -/
  | notAKey
  /-- The JSON text is well formed and no condition. -/
  | notACondition (cause : Error)
  | database (cause : DatabaseError)

namespace OperatorError

/-- What is said about an unknown operator. -/
def detail : OperatorError → String
  | .comparison word => "binary condition '" ++ word ++ "'"
  | .connective word => "logic operation '" ++ word ++ "'"
  | .condition word => "query operation '" ++ word ++ "'"
  | .notAWord json => "query operation " ++ json.toText

end OperatorError

namespace ShapeError

/-- What is said about the shape of a condition. -/
def detail : ShapeError → String
  | .notAnObject json => "expected an object node, got " ++ json.toText
  | .comparisonWithoutField word => "'" ++ word ++ "' condition without a field"
  | .groupWithoutBlocks word => "'" ++ word ++ "' group without blocks"
  | .foldWithoutGroup => "reduce without an open group"
  | .groupWithoutMarker => "missing group marker"
  | .results count => "expression reduced to " ++ toString count ++ " results"
  | .markerAsResult => "expression reduced to a bare marker"

end ShapeError

namespace SegmentError

/-- What is said about an element of a template. -/
def detail : SegmentError → String
  | .notAnArray json => "expected an array of segments, got " ++ json.toText
  | .notAKey json => "parameter key " ++ json.toText
  | .blockDefault json => "block default " ++ json.toText
  | .fragmentText json => "fragment text " ++ json.toText
  | .fragmentValues json => "fragment values " ++ json.toText
  | .notASegment json => json.toText

end SegmentError

namespace Error

/-- The text of an error. -/
def message : Error → String
  | .unknownOperator cause => "Invalid operation: " ++ cause.detail
  | .unknownField name => "Invalid field: " ++ name
  | .unknownDirection word => "Invalid order modifier: " ++ word
  | .badShape cause => "Invalid where structure: " ++ cause.detail
  | .missing level key => "Missing " ++ level.text ++ " parameter '" ++ key.text ++ "'"
  | .badSegment cause => "Unknown segment in template: " ++ cause.detail
  | .countMismatch placeholders values =>
    "Fragment has " ++ toString placeholders ++ " placeholders but " ++ toString values ++ " values"
  | .notJson => "Invalid JSON input: malformed text"
  | .notAValue => "Invalid JSON input: data did not match any variant of untagged enum Value"
  | .notAKey => "Invalid JSON input: data did not match any variant of untagged enum ParamKey"
  | .notACondition cause => "Invalid JSON input: " ++ cause.message
  | .database cause => "Database error: " ++ cause.message

end Error

end BoundSql
