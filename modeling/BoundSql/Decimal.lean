/-!
# Decimal numbers

A `Decimal` is a pair of a significand and a power of ten.  Many pairs denote one number, so
`Decimal.normalize` strips the zeros at the end of the significand: two pairs that denote the
same number have the same normal form, and what rounds or prints a decimal looks at that form.

A `Decimal.Layout` collects the choices of a number format: where positional notation ends, and how
an exponent is written.  `Decimal.Layout.render` writes a decimal in such a format.
-/

namespace BoundSql

/-- The non-negative number `significand * 10 ^ exponent`. -/
structure Decimal where
  significand : Nat
  exponent : Int
  deriving DecidableEq

namespace Decimal

/-- The number of digits of `n` in base ten; zero has one digit. -/
def digitCount (n : Nat) : Nat := (Nat.toDigits 10 n).length

/-- The pair of the same value whose significand does not end in a zero digit; zero is `0 * 10 ^ 0`. -/
def normalizePair (s : Nat) (e : Int) : Decimal :=
  if s = 0 then ⟨0, 0⟩
  else if s % 10 = 0 then normalizePair (s / 10) (e + 1)
  else ⟨s, e⟩
termination_by s

/-- The normal form of a decimal. -/
def normalize (d : Decimal) : Decimal := normalizePair d.significand d.exponent

/-- The value as a quotient of natural numbers, numerator first. -/
def toRatio (d : Decimal) : Nat × Nat :=
  (d.significand * Nat.pow 10 d.exponent.toNat, Nat.pow 10 (-d.exponent).toNat)

/-! ## How a decimal is laid out -/

/-- The digits of a natural number in base ten. -/
def digits (n : Nat) : List Char := Nat.toDigits 10 n

/-- The choices of a format for numbers with a fraction. -/
structure Layout where
  /-- The least power of ten of the first digit that is written positionally. -/
  least : Int
  /-- The first power of ten of the first digit that is no longer written positionally. -/
  bound : Int
  /-- The character between the digits and the exponent. -/
  mark : Char
  /-- What stands before a non-negative exponent. -/
  plus : List Char

namespace Layout

/-- The digits `ds` with the point after the first `place` of them, and at least one digit on either side. -/
def positional (ds : List Char) (place : Int) : List Char :=
  if place ≤ 0 then
    '0' :: '.' :: (List.replicate (-place).toNat '0' ++ ds)
  else if place.toNat < ds.length then
    ds.take place.toNat ++ '.' :: ds.drop place.toNat
  else
    ds ++ List.replicate (place.toNat - ds.length) '0' ++ ['.', '0']

/-- The exponent with its sign. -/
def exponentText (l : Layout) (e : Int) : List Char :=
  (if e < 0 then ['-'] else l.plus) ++ digits e.natAbs

/-- The digits `ds` with the point after the first one, followed by the exponent. -/
def scientific (l : Layout) (ds : List Char) (e : Int) : List Char :=
  ds.take 1 ++ (if ds.length ≤ 1 then [] else '.' :: ds.drop 1) ++ l.mark :: l.exponentText e

/-- The text of a decimal; zero is always positional. -/
def render (l : Layout) (d : Decimal) : List Char :=
  let ds := digits d.significand
  let top := d.exponent + ds.length - 1
  if d.significand = 0 ∨ (l.least ≤ top ∧ top < l.bound) then positional ds (top + 1)
  else l.scientific ds top

end Layout

end Decimal

end BoundSql
