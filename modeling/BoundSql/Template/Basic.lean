import BoundSql.Statement

/-!
# Templates

A `Template` is a list of segments: plain text, placeholders of blocks, and fragments, whose
arguments may hold placeholders of values.  Beside the segments it keeps two tables, one for each
level, of the keys that may be bound; a key with an entry but without a stored override is there
because a placeholder of a segment carries it.

A template is generated in two phases.  First every segment becomes a fragment: a placeholder of a
block is replaced by what the call binds to its key, else by what the template stores for it, else by
its own default.  Then the placeholders of values in the joined fragment are replaced from left to
right, with the same precedence, also those that came with a block.
-/

namespace BoundSql

/-! ## Segments and overrides -/

/-- A part of a template. -/
inductive Segment
  /-- SQL that is taken as it is. -/
  | text (sql : String)
  | block (p : Placeholder Fragment)
  | fragment (f : Fragment)
  deriving DecidableEq

namespace Segment

/-- The key of a segment that stands for a block. -/
def blockKeys : Segment → List Key
  | .block p => [p.key]
  | _ => []

/-- The keys of the values that a segment leaves open. -/
def valueKeys : Segment → List Key
  | .fragment f => f.placeholders.map Placeholder.key
  | _ => []

instance : Alike Segment where
  alike
    | .text s, .text t => s == t
    | .block p, .block q => alike p q
    | .fragment f, .fragment g => alike f g
    | _, _ => false

end Segment

/-- Segments with the overrides that are stored for their placeholders. -/
structure Template where
  segments : List Segment
  blocks : Table Key (Option Fragment)
  values : Table Key (Option Value)
  deriving DecidableEq

namespace Template

/-- A template without overrides; the keys of its segments are registered on both levels. -/
def ofSegments (segments : List Segment) : Template where
  segments := segments
  blocks := Table.ofPairs ((segments.flatMap Segment.blockKeys).map fun k => (k, none))
  values := Table.ofPairs ((segments.flatMap Segment.valueKeys).map fun k => (k, none))

/-- The template without segments. -/
def empty : Template := ofSegments []

/-- The keys that may be bound to fragments, in ascending order. -/
def blockKeys (t : Template) : List Key := t.blocks.keys

/-- The keys that may be bound to values, in ascending order. -/
def valueKeys (t : Template) : List Key := t.values.keys

/-- Stores fragments for keys, replacing what was stored for them. -/
def overrideBlocks (t : Template) (overrides : List (Key × Fragment)) : Template :=
  { t with blocks := t.blocks.insertAll (overrides.map fun (k, f) => (k, some f)) }

/-- Stores values for keys, replacing what was stored for them. -/
def overrideValues (t : Template) (overrides : List (Key × Value)) : Template :=
  { t with values := t.values.insertAll (overrides.map fun (k, v) => (k, some v)) }

/-- The fragment that is stored for a key. -/
def storedBlock? (t : Template) (key : Key) : Option Fragment := (t.blocks.get? key).join

/-- The value that is stored for a key. -/
def storedValue? (t : Template) (key : Key) : Option Value := (t.values.get? key).join

instance : Alike Template :=
  ⟨fun t u => alike t.segments u.segments && alike t.blocks u.blocks && alike t.values u.values⟩

end Template

/-! ## Generation -/

namespace Segment

/-- The fragment of a segment; `lookup` gives what is bound to the key of a block. -/
def expand (lookup : Key → Option Fragment) : Segment → Traced Fragment
  | .text sql => pure (.raw sql)
  | .fragment f => pure f
  | .block p => p.fill .block (lookup p.key)

end Segment

namespace Template

/-- What a key of a block is bound to: by the call, else by the template. -/
def block? (t : Template) (b : Bindings) (key : Key) : Option Fragment :=
  (b.block? key).or (t.storedBlock? key)

/-- What a key of a value is bound to: by the call, else by the template. -/
def value? (t : Template) (b : Bindings) (key : Key) : Option Value :=
  (b.value? key).or (t.storedValue? key)

/-- The joined fragment of all segments. -/
def assemble (t : Template) (b : Bindings) : Traced Fragment := do
  let parts ← t.segments.mapM (Segment.expand (t.block? b))
  return .join "" parts

/-- The statement of a template under some bindings; success is reported. -/
def generate (t : Template) (b : Bindings) : Traced Statement := do
  let f ← t.assemble b
  let s ← f.fillWith (t.value? b)
  Traced.emit (.generated s.sql s.values.length)
  return s

end Template

end BoundSql
