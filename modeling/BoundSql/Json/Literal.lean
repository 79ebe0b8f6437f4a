import BoundSql.Json.Basic

/-!
# Number literals

A `Json.Literal` is a number as it is written: sign, digits before and after the point, exponent.
`Literal.number?` gives the number it stands for.

The digits are collected in a significand of 64 bits.  A digit for which the significand has no room
is left out, and with it the rest of the digits on its side of the point: left of it each counts as
one power of ten, right of it they do not matter (`appendDigits`).  An integer below the bound of
the significand loses no digit (`appendDigits_of_lt`) and stays exact if it fits into 64 bits.  Every
other literal is its significand as a double, scaled by a power of ten (`Binary64.scale`), so it is
close to the number written but not always the double nearest to it.
-/

namespace BoundSql

namespace Json

/-- The decimal digits. -/
def isDigit (c : Char) : Bool := decide ('0' ≤ c ∧ c ≤ '9')

/-- The value of a decimal digit. -/
def digitValue (c : Char) : Nat := c.toNat - 48

/-- The number whose digits are those of `n` followed by a run of digits. -/
def followedBy (n : Nat) : List Char → Nat
  | [] => n
  | d :: ds => followedBy (10 * n + digitValue d) ds

/-- The number that a run of digits denotes. -/
def digitsValue (ds : List Char) : Nat := followedBy 0 ds

/-- A number does not become smaller when digits follow it. -/
theorem le_followedBy (n : Nat) (ds : List Char) : n ≤ followedBy n ds := by
  induction ds generalizing n with
  | nil => exact Nat.le_refl n
  | cons d ds ih =>
    have h : n ≤ 10 * n + digitValue d :=
      Nat.le_trans (Nat.le_mul_of_pos_left n (by decide)) (Nat.le_add_right _ _)
    exact Nat.le_trans h (ih _)

/-- A number as it is written. -/
structure Literal where
  negative : Bool
  whole : List Char
  fraction : Option (List Char)
  exponent : Option Int

namespace Literal

/-- The first number that is no significand. -/
def significandBound : Nat := 0x10000000000000000

/-- Appends digits to a significand as long as there is room, and counts those that were left out. -/
def appendDigits (significand : Nat) : List Char → Nat × Nat
  | [] => (significand, 0)
  | d :: ds =>
    let longer := 10 * significand + digitValue d
    if longer < significandBound then appendDigits longer ds else (significand, (d :: ds).length)

/-- As long as there is room for all digits, none is left out. -/
theorem appendDigits_of_lt {n : Nat} {ds : List Char} (h : followedBy n ds < significandBound) :
    appendDigits n ds = (followedBy n ds, 0) := by
  induction ds generalizing n with
  | nil => rfl
  | cons d ds ih =>
    have hlonger : 10 * n + digitValue d < significandBound :=
      Nat.lt_of_le_of_lt (le_followedBy _ ds) h
    simp only [appendDigits, hlonger, if_true]
    exact ih h

/-- Whether the literal is written without fraction and exponent. -/
def isPlain (l : Literal) : Bool := l.fraction.isNone && l.exponent.isNone

/-- The digits before the point as a significand, and how many of them it leaves out. -/
def wholePart (l : Literal) : Nat × Nat := appendDigits 0 l.whole

/-- The literal without its sign as a significand and a power of ten. -/
def decimal (l : Literal) : Decimal :=
  let (significand, raised) := l.wholePart
  let digits := l.fraction.getD []
  let (significand, leftOut) := appendDigits significand digits
  ⟨significand, raised - ((digits.length : Int) - leftOut) + l.exponent.getD 0⟩

/-- The literal as a double. -/
def toBinary64 (l : Literal) : Binary64 :=
  let x := (Binary64.ofInt l.decimal.significand).scale l.decimal.exponent
  if l.negative then x.neg else x

/-- The integer that the literal is, if it is written as one, loses no digit and fits into 64 bits.
Minus zero is no integer. -/
def integer? (l : Literal) : Option Number :=
  let (n, leftOut) := l.wholePart
  if l.isPlain && leftOut == 0 then
    if !l.negative then Number.ofInt? n
    else if n = 0 then none
    else Number.ofInt? (-n)
  else none

/-- The number that the literal stands for: an integer if it is one, else a double.  There is none
beyond the range of doubles. -/
def number? (l : Literal) : Option Number :=
  l.integer?.or (Number.ofBinary64? l.toBinary64)

end Literal

end Json

end BoundSql
