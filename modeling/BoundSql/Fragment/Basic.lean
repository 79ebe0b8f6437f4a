import BoundSql.Diagnostics
import BoundSql.Value

/-!
# Placeholders and fragments of SQL

A `Placeholder` stands for something that is supplied later under its key, a value or a whole
fragment.  What is bound to the key wins; else its own default stands in; with neither it is missing.

A `Fragment` is a piece of SQL text in which every `?` stands for an argument, and the arguments in
order.  An argument is a value or a placeholder for one.  `Fragment.checked` accepts only a text with
as many `?` as there are arguments; `Fragment.raw` is for text that the library itself composes or
that is trusted as it is.
-/

namespace BoundSql

/-! ## Placeholders -/

/-- Something to be supplied under a key, with an optional default. -/
structure Placeholder (α : Type) where
  key : Key
  default? : Option α
  deriving DecidableEq

/-- What there is for a placeholder. -/
inductive Supply (α : Type)
  | missing
  /-- Nothing is bound to the key, so the default stands in. -/
  | byDefault (a : α)
  | given (a : α)
  deriving DecidableEq

namespace Supply

variable {α : Type}

/-- What the placeholder is replaced by, if there is anything. -/
def get? : Supply α → Option α
  | .missing => none
  | .byDefault a => some a
  | .given a => some a

/-- Whether the placeholder cannot be replaced. -/
def isMissing : Supply α → Bool
  | .missing => true
  | _ => false

/-- Whether something was bound to the key. -/
def isGiven : Supply α → Bool
  | .given _ => true
  | _ => false

end Supply

namespace Placeholder

variable {α : Type}

/-- A placeholder without default. -/
def ofKey (key : Key) : Placeholder α := ⟨key, none⟩

/-- The placeholder with another default. -/
def withDefault (p : Placeholder α) (a : α) : Placeholder α := ⟨p.key, some a⟩

/-- What there is for the placeholder when `binding` is what is bound to its key. -/
def supply (p : Placeholder α) (binding : Option α) : Supply α :=
  match binding, p.default? with
  | some a, _ => .given a
  | none, some a => .byDefault a
  | none, none => .missing

/-- Replaces a placeholder, and reports that it was looked up. -/
def fill (level : Level) (p : Placeholder α) (binding : Option α) : Traced α := do
  Traced.emit (.resolving level p.key (p.supply binding).isGiven)
  match (p.supply binding).get? with
  | some a => pure a
  | none => Traced.ofExcept (.error (.missing level p.key))

@[simp] theorem get?_supply (p : Placeholder α) (binding : Option α) :
    (p.supply binding).get? = binding.or p.default? := by
  unfold supply
  cases binding <;> cases p.default? <;> rfl

@[simp] theorem isGiven_supply (p : Placeholder α) (binding : Option α) :
    (p.supply binding).isGiven = binding.isSome := by
  unfold supply
  cases binding <;> cases p.default? <;> rfl

instance [Alike α] : Alike (Placeholder α) :=
  ⟨fun p q => decide (p.key = q.key) && alike p.default? q.default?⟩

end Placeholder

/-! ## Fragments -/

/-- What a `?` of a fragment stands for. -/
inductive Argument
  | value (v : Value)
  | placeholder (p : Placeholder Value)
  deriving DecidableEq

/-- A piece of SQL and its arguments. -/
structure Fragment where
  text : String
  args : List Argument
  deriving DecidableEq

/-- The number of `?` in a text, wherever they stand. -/
def markCount (sql : String) : Nat := sql.toList.count '?'

@[simp] theorem markCount_empty : markCount "" = 0 := rfl

@[simp] theorem markCount_append (s t : String) : markCount (s ++ t) = markCount s + markCount t := by
  simp [markCount]

namespace Fragment

/-- A text that is taken as it is, without arguments. -/
def raw (sql : String) : Fragment := ⟨sql, []⟩

/-- A text with as many `?` as it has arguments. -/
def checked (sql : String) (args : List Argument) : Except Error Fragment :=
  if markCount sql = args.length then .ok ⟨sql, args⟩
  else .error (.countMismatch (markCount sql) args.length)

/-- A text without `?`. -/
def plain (sql : String) : Except Error Fragment := checked sql []

/-- The fragment without text. -/
def empty : Fragment := raw ""

/-- A single `?` with its argument. -/
def mark (a : Argument) : Fragment := ⟨"?", [a]⟩

/-- Whether the text is empty. -/
def isEmpty (f : Fragment) : Bool := f.text.isEmpty

/-- The placeholders among the arguments. -/
def placeholders (f : Fragment) : List (Placeholder Value) :=
  f.args.filterMap fun
    | .value _ => none
    | .placeholder p => some p

/-- Appends a text to the text so far, with the joiner before it unless there is none yet. -/
def joinNext (joiner sofar next : String) : String :=
  if sofar.isEmpty then next else sofar ++ joiner ++ next

/-- Texts joined from the first one that is not empty on; a later empty text keeps its joiner. -/
def joinTexts (joiner : String) (texts : List String) : String :=
  texts.foldl (joinNext joiner) ""

/-- Fragments joined in order, texts and arguments. -/
def join (joiner : String) (parts : List Fragment) : Fragment :=
  ⟨joinTexts joiner (parts.map Fragment.text), parts.flatMap Fragment.args⟩

@[simp] theorem text_join (joiner : String) (parts : List Fragment) :
    (join joiner parts).text = joinTexts joiner (parts.map Fragment.text) := rfl

@[simp] theorem args_join (joiner : String) (parts : List Fragment) :
    (join joiner parts).args = parts.flatMap Fragment.args := rfl

/-- A text is checked by counting its marks. -/
theorem checked_eq_ok_iff {sql : String} {args : List Argument} {f : Fragment} :
    checked sql args = .ok f ↔ markCount sql = args.length ∧ f = ⟨sql, args⟩ := by
  unfold checked
  by_cases h : markCount sql = args.length <;> simp [h, eq_comm]

/-- A fragment with something before its text, unless the text is empty. -/
def precededBy (keyword : String) (f : Fragment) : Fragment :=
  if f.isEmpty then f else ⟨keyword ++ f.text, f.args⟩

/-- A condition as a `where` clause; an empty condition gives none. -/
def asWhere (f : Fragment) : Fragment := f.precededBy "where "

/-- A fragment with parentheses around its text. -/
def inParentheses (f : Fragment) : Fragment := ⟨"(" ++ f.text ++ ")", f.args⟩

instance : Alike Argument where
  alike
    | .value v, .value w => alike v w
    | .placeholder p, .placeholder q => alike p q
    | _, _ => false

instance : Alike Fragment := ⟨fun f g => f.text == g.text && alike f.args g.args⟩

end Fragment

namespace Placeholder

/-- A text with one `?`, which the placeholder fills. -/
def wrap (p : Placeholder Value) (sql : String) : Except Error Fragment :=
  Fragment.checked sql [.placeholder p]

/-- A single `?` that the placeholder fills. -/
def mark (p : Placeholder Value) : Fragment := Fragment.mark (.placeholder p)

end Placeholder

/-- Each name with a `?` that is filled by the value bound to that name. -/
def openFields (names : List String) : List (String × Fragment) :=
  names.map fun name => (name, (Placeholder.ofKey (.name name)).mark)

end BoundSql
