import BoundSql.Binary64
import Mathlib.Algebra.Group.Nat.Defs

/-!
# Integers of 64 bits are finite doubles

The code of a rounded quotient is bounded by the number of binary digits before its point
(`Format.code_le`): the fraction fills at most two binades, and each digit that the fraction has no
room for adds one.  So the double nearest to an integer is finite long before the integer could be
beyond 64 bits (`Binary64.isFinite_ofInt`).
-/

namespace BoundSql

/-- Rounding adds at most one to a quotient. -/
theorem divRoundEven_le (num den : Nat) : divRoundEven num den ≤ num / den + 1 := by
  unfold divRoundEven
  dsimp only
  split
  · exact Nat.le_succ _
  · split
    · exact Nat.le_refl _
    · split
      · exact Nat.le_succ _
      · exact Nat.le_refl _

/-- What is left of a number when its digits beyond the first `k + 1` are shifted out. -/
theorem div_two_pow_lt (n k : Nat) : n / 2 ^ (Nat.log2 n - k) < 2 ^ (k + 1) := by
  refine Nat.div_lt_of_lt_mul ?_
  calc n < 2 ^ (Nat.log2 n + 1) := Nat.lt_log2_self
    _ ≤ 2 ^ (Nat.log2 n - k + (k + 1)) := Nat.pow_le_pow_right (by decide) (by omega)
    _ = 2 ^ (Nat.log2 n - k) * 2 ^ (k + 1) := Nat.pow_add ..

namespace Format

/-- A quotient that has at most `m` binary digits more than fit into the fraction, in units of the
smallest positive value, is rounded to a code in the first `m + 2` binades. -/
theorem code_le (f : Format) {num den m : Nat}
    (h : num * f.perOne / den < 2 ^ (f.fractionBits + m + 1)) :
    f.code num den ≤ (m + 2) * f.binade := by
  have hlog : Nat.log2 (num * f.perOne / den) ≤ f.fractionBits + m := by
    by_cases hzero : num * f.perOne / den = 0
    · rw [hzero]
      exact Nat.zero_le _
    · exact Nat.lt_succ_iff.1 ((Nat.log2_lt hzero).2 h)
  have hfraction := div_two_pow_lt (num * f.perOne / den) f.fractionBits
  obtain ⟨shift, hshift⟩ : ∃ shift, shift = Nat.log2 (num * f.perOne / den) - f.fractionBits :=
    ⟨_, rfl⟩
  rw [← hshift, Nat.div_div_eq_div_mul] at hfraction
  have hm : shift ≤ m := by omega
  have hround : divRoundEven (num * f.perOne) (den * 2 ^ shift) ≤ 2 * f.binade := by
    have htwo : 2 ^ (f.fractionBits + 1) = 2 * f.binade := Nat.pow_succ'
    have hone := divRoundEven_le (num * f.perOne) (den * 2 ^ shift)
    omega
  calc f.code num den
      ≤ shift * f.binade + divRoundEven (num * f.perOne) (den * 2 ^ shift) := by
        rw [hshift]
        exact Nat.min_le_left _ _
    _ ≤ m * f.binade + 2 * f.binade := Nat.add_le_add (Nat.mul_le_mul_right _ hm) hround
    _ = (m + 2) * f.binade := (Nat.add_mul ..).symm

/-- A natural number of `k` binary digits is rounded to a code in one of the first binades. -/
theorem code_le_of_lt_two_pow (f : Format) {num k m : Nat} (h : num < 2 ^ k)
    (hm : k + f.unitPlace = f.fractionBits + m + 1) : f.code num 1 ≤ (m + 2) * f.binade := by
  apply f.code_le
  rw [Nat.div_one, ← hm, Nat.pow_add]
  exact Nat.mul_lt_mul_of_pos_right h (Nat.pow_pos (by decide))

end Format

namespace Binary64

/-- A code below the sign bit is found again in the word. -/
theorem code_ofCode {code : Nat} (h : code < signPlace) (negative : Bool) :
    (ofCode negative code).code = code := by
  have hplace : signPlace = 9223372036854775808 := rfl
  rw [hplace] at h
  cases negative with
  | true =>
    simp only [Binary64.code, ofCode, UInt64.toNat_ofNat', hplace, if_true]
    omega
  | false =>
    simp only [Binary64.code, ofCode, UInt64.toNat_ofNat', hplace, Bool.false_eq_true, if_false]
    omega

/-- A quotient whose code is below that of infinity is rounded to a finite number. -/
theorem isFinite_ofRatio {num den : Nat}
    (h : Format.double.code num den < Format.double.infinity) (negative : Bool) :
    (ofRatio negative num den).isFinite = true := by
  have hplace : Format.double.infinity < signPlace := by decide
  rw [isFinite, ofRatio, code_ofCode (Nat.lt_trans h hplace)]
  exact decide_eq_true h

/-- The number nearest to an integer of 64 bits is finite. -/
theorem isFinite_ofInt {n : Int} (h : n.natAbs < 2 ^ 64) : (ofInt n).isFinite = true := by
  have hdigits : 64 + Format.double.unitPlace = Format.double.fractionBits + 1085 + 1 := rfl
  have hcode := Format.double.code_le_of_lt_two_pow h hdigits
  have hinfinity : (1085 + 2) * Format.double.binade < Format.double.infinity := by decide
  exact isFinite_ofRatio (Nat.lt_of_le_of_lt hcode hinfinity) _

end Binary64

end BoundSql
