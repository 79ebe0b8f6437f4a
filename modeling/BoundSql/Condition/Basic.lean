import BoundSql.Fragment.Basic

/-!
# Conditions

A `Condition` is a tree of comparisons and groups as a caller gives it.  Its fields and operators are
plain text; whether they are known is seen when it is compiled.

There are eight comparisons and two connectives that a condition may use.  Each has a word that names
it, and each makes SQL of its own: a comparison binds its value as an argument, except the null test,
for which only the truth of the value counts.
-/

namespace BoundSql

/-! ## Trees of comparisons and groups -/

/-- A condition on the fields of a row. -/
inductive Condition
  /-- No condition. -/
  | empty
  | compare (field word : String) (value : Value)
  | group (word : String) (children : List Condition)

namespace Condition

/-- All of some conditions. -/
def all (children : List Condition) : Condition := .group "and" children

/-- Any of some conditions. -/
def any (children : List Condition) : Condition := .group "or" children

mutual

/-- The number of conditions in a tree, itself included. -/
def nodes : Condition → Nat
  | .empty => 1
  | .compare _ _ _ => 1
  | .group _ children => 1 + nodesOfAll children

/-- The number of conditions in some trees. -/
def nodesOfAll : List Condition → Nat
  | [] => 0
  | c :: cs => c.nodes + nodesOfAll cs

end

mutual

/-- The number of groups in a tree, itself included. -/
def groups : Condition → Nat
  | .empty => 0
  | .compare _ _ _ => 0
  | .group _ children => 1 + groupsOfAll children

/-- The number of groups in some trees. -/
def groupsOfAll : List Condition → Nat
  | [] => 0
  | c :: cs => c.groups + groupsOfAll cs

end

mutual

/-- Likeness of conditions: one shape with the same words and like values. -/
def alike : Condition → Condition → Bool
  | .empty, .empty => true
  | .compare f w v, .compare g x u => f == g && w == x && v.alike u
  | .group w cs, .group x ds => w == x && alikeAll cs ds
  | _, _ => false

/-- Likeness of lists of conditions, place by place. -/
def alikeAll : List Condition → List Condition → Bool
  | [], [] => true
  | c :: cs, d :: ds => c.alike d && alikeAll cs ds
  | _, _ => false

end

instance : Alike Condition := ⟨alike⟩

end Condition

/-! ## Operators -/

/-- How a column is compared with a value. -/
inductive Comparison
  | equal
  | greater
  | less
  | different
  | atLeast
  | atMost
  | like
  /-- The null test: a true value asks for `is not null`, another one for `is null`. -/
  | is
  deriving DecidableEq

/-- How conditions are joined. -/
inductive Connective
  | and
  | or
  deriving DecidableEq

namespace Comparison

/-- The word that names a comparison, in a condition and in SQL. -/
def word : Comparison → String
  | .equal => "="
  | .greater => ">"
  | .less => "<"
  | .different => "<>"
  | .atLeast => ">="
  | .atMost => "<="
  | .like => "like"
  | .is => "is"

/-- The comparison that a word names, if it names one. -/
def ofWord? : String → Option Comparison
  | "=" => some .equal
  | ">" => some .greater
  | "<" => some .less
  | "<>" => some .different
  | ">=" => some .atLeast
  | "<=" => some .atMost
  | "like" => some .like
  | "is" => some .is
  | _ => none

/-- A comparison is named by its own word and by no other. -/
theorem ofWord?_eq_some_iff {word : String} {c : Comparison} :
    ofWord? word = some c ↔ word = c.word := by
  constructor
  · intro h
    unfold ofWord? at h
    split at h <;> cases h <;> rfl
  · rintro rfl
    cases c <;> rfl

/-- Different comparisons have different words. -/
theorem word_injective {c d : Comparison} (h : c.word = d.word) : c = d := by
  have hd : ofWord? c.word = some d := ofWord?_eq_some_iff.2 h
  rw [ofWord?_eq_some_iff.2 rfl] at hd
  exact Option.some.inj hd

/-- The comparison that a word names. -/
def ofWord (word : String) : Except Error Comparison :=
  match ofWord? word with
  | some c => .ok c
  | none => .error (.unknownOperator (.comparison word))

/-- A word is read as the comparison that it names. -/
theorem ofWord_eq_ok_iff {word : String} {c : Comparison} :
    ofWord word = .ok c ↔ ofWord? word = some c := by
  unfold ofWord
  cases ofWord? word <;> simp

/-- The comparison of a column with a value. -/
def render (c : Comparison) (column : String) (v : Value) : Fragment :=
  if c = .is then
    .raw ("(" ++ column ++ ") " ++ (if v.countsAsTrue then "is not null" else "is null"))
  else ⟨"(" ++ column ++ ") " ++ c.word ++ " ?", [.value v]⟩

end Comparison

namespace Connective

/-- The word that names a connective, in a condition and in SQL. -/
def word : Connective → String
  | .and => "and"
  | .or => "or"

/-- The connective that a word names, if it names one. -/
def ofWord? : String → Option Connective
  | "and" => some .and
  | "or" => some .or
  | _ => none

/-- A connective is named by its own word and by no other. -/
theorem ofWord?_eq_some_iff {word : String} {c : Connective} : ofWord? word = some c ↔ word = c.word := by
  constructor
  · intro h
    unfold ofWord? at h
    split at h <;> cases h <;> rfl
  · rintro rfl
    cases c <;> rfl

/-- The connective that a word names. -/
def ofWord (word : String) : Except Error Connective :=
  match ofWord? word with
  | some c => .ok c
  | none => .error (.unknownOperator (.connective word))

/-- A word is read as the connective that it names. -/
theorem ofWord_eq_ok_iff {word : String} {c : Connective} :
    ofWord word = .ok c ↔ ofWord? word = some c := by
  unfold ofWord
  cases ofWord? word <;> simp

/-- The operands in parentheses, joined by the connective.  Empty operands are dropped. -/
def join (c : Connective) (operands : List Fragment) : Fragment :=
  .join (" " ++ c.word ++ " ") ((operands.filter fun f => !f.isEmpty).map .inParentheses)

end Connective

namespace Fragment

/-- The comparison of a column expression, which is trusted, with a value. -/
def comparison (column word : String) (v : Value) : Except Error Fragment := do
  let c ← Comparison.ofWord word
  return c.render column v

/-- Conditions joined by the connective that a word names. -/
def group (word : String) (operands : List Fragment) : Except Error Fragment := do
  let c ← Connective.ofWord word
  return c.join operands

end Fragment

end BoundSql
