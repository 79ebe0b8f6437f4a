import BoundSql.Decimal

/-!
# Binary floating-point numbers of 64 bits

A binary floating-point format is described by the width of its fraction and the place of its
last bit.  The non-negative values of a format, in ascending order, are numbered by their *codes*:
the words that hold exponent and fraction, without the sign.  `Format.units` turns a code into the
value, counted in units of the smallest positive value, and `Format.code` turns any quotient of
natural numbers into the code of the nearest value, a tie going to the even code.

A single formula covers subnormal and normal numbers alike, because the code grows by one from each
value to the next, also where the exponent changes; a quotient above the largest finite value
gets the code of infinity.

A `Binary64` is its bit pattern, so equality of two of them is equality of bits and can be decided.
Comparison of the *numbers* they stand for is `Binary64.equal`: a NaN differs from everything, and
the two zeros are one number.  `Alike` carries that comparison to everything that is built of numbers
and texts.  Decimals, integers and numbers of 32 bits are converted by exact arithmetic on natural
numbers, always to the nearest value; products and quotients likewise.
-/

namespace BoundSql

/-! ## Rounding to a binary format -/

/-- The quotient of two natural numbers, rounded to the nearest; a half goes to the even neighbour. -/
def divRoundEven (num den : Nat) : Nat :=
  let q := num / den
  let twice := 2 * (num % den)
  if twice < den then q
  else if den < twice then q + 1
  else if q % 2 = 0 then q
  else q + 1

/-- A binary format: its fraction has `fractionBits` bits, its smallest positive value is
`2 ^ -unitPlace`, and `infinity` is the first code that is no finite value. -/
structure Format where
  fractionBits : Nat
  unitPlace : Nat
  infinity : Nat

namespace Format

/-- The format of 64 bits. -/
def double : Format := ⟨52, 1074, 2047 * Nat.pow 2 52⟩

/-- The format of 32 bits. -/
def single : Format := ⟨23, 149, 255 * Nat.pow 2 23⟩

/-- How many codes share one exponent. -/
def binade (f : Format) : Nat := Nat.pow 2 f.fractionBits

/-- How many of the smallest positive value make one. -/
def perOne (f : Format) : Nat := Nat.pow 2 f.unitPlace

/-- The value of a finite code, in units of the smallest positive value. -/
def units (f : Format) (code : Nat) : Nat :=
  if code < f.binade then code
  else (f.binade + code % f.binade) * Nat.pow 2 (code / f.binade - 1)

/-- The code of the value nearest to `num / den`, where `den` is positive. -/
def code (f : Format) (num den : Nat) : Nat :=
  let scaled := num * f.perOne
  let shift := Nat.log2 (scaled / den) - f.fractionBits
  min (shift * f.binade + divRoundEven scaled (den * Nat.pow 2 shift)) f.infinity

end Format

/-! ## Numbers of 64 bits -/

/-- A floating-point number of 64 bits, given by its bits. -/
structure Binary64 where
  bits : UInt64
  deriving DecidableEq

namespace Binary64

/-- The value of the sign bit in the word. -/
def signPlace : Nat := Nat.pow 2 63

/-- Whether the sign bit is set. -/
def negative (x : Binary64) : Bool := decide (signPlace ≤ x.bits.toNat)

/-- The word without its sign: the place of the absolute value in the ascending order of the format. -/
def code (x : Binary64) : Nat := x.bits.toNat % signPlace

/-- The number with a given sign and code. -/
def ofCode (negative : Bool) (code : Nat) : Binary64 :=
  ⟨UInt64.ofNat ((if negative then signPlace else 0) + code)⟩

/-- Whether the number is neither infinite nor a NaN. -/
def isFinite (x : Binary64) : Bool := decide (x.code < Format.double.infinity)

/-- Whether the bits stand for no number. -/
def isNaN (x : Binary64) : Bool := decide (Format.double.infinity < x.code)

/-- Whether the number is one of the two zeros. -/
def isZero (x : Binary64) : Bool := decide (x.code = 0)

/-- A quiet NaN. -/
def nan : Binary64 := ofCode false (Format.double.infinity + Format.double.binade / 2)

/-- Infinity with a given sign. -/
def infinity (negative : Bool) : Binary64 := ofCode negative Format.double.infinity

/-- Equality of numbers: a NaN equals nothing, and the two zeros are equal. -/
def equal (x y : Binary64) : Bool :=
  !x.isNaN && !y.isNaN && (x.bits == y.bits || (x.isZero && y.isZero))

/-- The absolute value of a finite number as a quotient, numerator first. -/
def toRatio (x : Binary64) : Nat × Nat :=
  (Format.double.units x.code, Format.double.perOne)

/-- The number nearest to a quotient of natural numbers, with a given sign. -/
def ofRatio (negative : Bool) (num den : Nat) : Binary64 :=
  ofCode negative (Format.double.code num den)

/-- The number nearest to an integer. -/
def ofInt (n : Int) : Binary64 := ofRatio (decide (n < 0)) n.natAbs 1

/-- The product of two finite numbers, rounded to the nearest. -/
def mul (x y : Binary64) : Binary64 :=
  ofRatio (x.negative != y.negative) (x.toRatio.1 * y.toRatio.1) (x.toRatio.2 * y.toRatio.2)

/-- The quotient of two finite numbers, the second not zero, rounded to the nearest.  Both count the
same units, so theirs is the quotient of the numbers. -/
def div (x y : Binary64) : Binary64 :=
  ofRatio (x.negative != y.negative) x.toRatio.1 y.toRatio.1

/-- The number with the opposite sign. -/
def neg (x : Binary64) : Binary64 := ofCode (!x.negative) x.code

/-- The number nearest to a decimal, with a given sign.  Decimals from `10 ^ 400` on are infinite and
those below `10 ^ -400` are zero, which spares the powers of ten that would be needed to see it. -/
def ofDecimal (negative : Bool) (d : Decimal) : Binary64 :=
  let d := d.normalize
  if d.significand = 0 then ofCode negative 0
  else if 400 ≤ d.exponent then infinity negative
  else if Decimal.digitCount d.significand + d.exponent < -400 then ofCode negative 0
  else ofRatio negative d.toRatio.1 d.toRatio.2

/-- The number of 32 bits nearest to a number, as a number of 64 bits. -/
def toSingle (x : Binary64) : Binary64 :=
  if x.isFinite then
    let narrowed := Format.single.code x.toRatio.1 x.toRatio.2
    if narrowed < Format.single.infinity then
      ofRatio x.negative (Format.single.units narrowed) Format.single.perOne
    else infinity x.negative
  else x

/-! ## Scaling by powers of ten

`Binary64.scale x e` stands for `x * 10 ^ e`, computed step by step: the power of ten is a double
itself, and every product and quotient is rounded.  As long as `x` and the power are exact, that is
for integers below `2 ^ 53` and exponents from -22 to 22, only the last step rounds and the result is
the nearest double.  Elsewhere it may differ from the nearest one in its last places.

Powers beyond `10 ^ 308` are no doubles.  A number that is to be lowered further is divided by that
power several times; one that is to be raised further is infinite, unless it is zero. -/

/-- The exponent of the largest power of ten that is finite. -/
def largestTen : Nat := 308

/-- The number nearest to a power of ten. -/
def powerOfTen (k : Nat) : Binary64 := ofRatio false (Nat.pow 10 k) 1

/-- Divides a number by the largest power of ten, a given number of times; zero stays as it is. -/
def lower (x : Binary64) : (times : Nat) → Binary64
  | 0 => x
  | times + 1 => if x.isZero then x else lower (x.div (powerOfTen largestTen)) times

/-- A finite number times a power of ten, each step rounded to the nearest. -/
def scale (x : Binary64) : (exponent : Int) → Binary64
  | .ofNat k =>
    if x.isZero then x
    else if k ≤ largestTen then x.mul (powerOfTen k)
    else infinity x.negative
  | .negSucc k => (x.lower (k / largestTen)).div (powerOfTen (k % largestTen + 1))

/-! ## The shortest decimal that reads back

`Binary64.shortest` gives the decimal with the fewest digits among those that read back as the
number.  For one, two, … seventeen digits it tests the two neighbours of the number on the grid of
decimals with that many digits.  The first grid with a hit wins; of two hits the nearer is taken and
an exact tie goes to the even significand.

A grid point is accepted only if `Binary64.ofDecimal` gives the number back, and where no grid has a
hit the exact expansion of the number stands in; seventeen digits suffice for every number, so this
last case only closes the definition. -/

/-- The largest `k` with `10 ^ k ≤ x`, for a positive finite number. -/
def decimalExponent (x : Binary64) : Int :=
  (Decimal.digitCount (x.toRatio.1 * Nat.pow 10 400 / x.toRatio.2) : Int) - 401

/-- The absolute value over `10 ^ g` as a quotient, numerator first. -/
def overPowerOfTen (x : Binary64) (g : Int) : Nat × Nat :=
  (x.toRatio.1 * Nat.pow 10 (-g).toNat, x.toRatio.2 * Nat.pow 10 g.toNat)

/-- Whether a decimal reads back as the absolute value of the number. -/
def readsBack (x : Binary64) (d : Decimal) : Bool :=
  decide ((ofDecimal false d).code = x.code)

/-- The decimal on the grid of multiples of `10 ^ g` that stands for the number, if one does. -/
def onGrid? (x : Binary64) (g : Int) : Option Decimal :=
  let (num, den) := x.overPowerOfTen g
  let below := num / den
  let nearest := divRoundEven num den
  let other := if nearest = below then below + 1 else below
  if x.readsBack ⟨nearest, g⟩ then some ⟨nearest, g⟩
  else if x.readsBack ⟨other, g⟩ then some ⟨other, g⟩
  else none

/-- All digits of a finite number: its value is `units / 2 ^ 1074`, hence `units * 5 ^ 1074 / 10 ^ 1074`. -/
def expansion (x : Binary64) : Decimal :=
  ⟨Format.double.units x.code * Nat.pow 5 Format.double.unitPlace, -(Format.double.unitPlace : Int)⟩

/-- The decimal of fewest digits that reads back as the absolute value of a finite number. -/
def shortest (x : Binary64) : Decimal :=
  if x.isZero then ⟨0, 0⟩
  else
    let top := x.decimalExponent
    match (List.range 17).findSome? fun (n : Nat) => x.onGrid? (top - n) with
    | some d => d.normalize
    | none => x.expansion.normalize

end Binary64

/-! ## Likeness of contents

Equality in this library tells two floating-point numbers apart by their bits.  `Alike` is the
comparison of contents in which they count as numbers instead: a NaN is like nothing, and the two
zeros are like each other.  It is decided part by part, so every type built of values has an instance
that compares its parts in order. -/

/-- Types whose members can be compared by content, numbers as numbers. -/
class Alike (α : Type) where
  /-- Whether two members have like contents. -/
  alike : α → α → Bool

export Alike (alike)

namespace Alike

variable {α β : Type}

/-- Lists are alike if they have the same length and like members in each place. -/
def lists [Alike α] : List α → List α → Bool
  | [], [] => true
  | x :: xs, y :: ys => alike x y && lists xs ys
  | _, _ => false

/-- Two absent members are alike, and two present ones if their contents are. -/
def options [Alike α] : Option α → Option α → Bool
  | none, none => true
  | some x, some y => alike x y
  | _, _ => false

instance [Alike α] : Alike (List α) := ⟨lists⟩
instance [Alike α] : Alike (Option α) := ⟨options⟩
instance [Alike α] [Alike β] : Alike (α × β) := ⟨fun p q => alike p.1 q.1 && alike p.2 q.2⟩
instance : Alike String := ⟨fun s t => s == t⟩
instance : Alike Binary64 := ⟨Binary64.equal⟩

end Alike

end BoundSql
