import BoundSql.Proofs.Number.Range
import Mathlib.Tactic.Ring

/-!
# Where arithmetic on doubles is exact

Rounding sees no more of a quotient than its value (`Format.code_congr`), and leaves alone what is a value of the
format (`Format.code_units`).  So integers below `2 ^ 53` and powers of ten up to `10 ^ 22` are doubles, and
scaling one by the other rounds only once: the result is the number nearest to the decimal
(`Binary64.scale_ofInt`).
-/

namespace BoundSql

/-- A common factor of numerator and denominator does not matter. -/
theorem divRoundEven_mul {c : Nat} (hc : 0 < c) (num den : Nat) :
    divRoundEven (c * num) (c * den) = divRoundEven num den := by
  have htwice : 2 * (c * num % (c * den)) = c * (2 * (num % den)) := by
    rw [Nat.mul_mod_mul_left, Nat.mul_left_comm]
  simp only [divRoundEven, Nat.mul_div_mul_left _ _ hc, htwice, Nat.mul_lt_mul_left hc]

/-- A quotient without remainder is not rounded. -/
theorem divRoundEven_mul_self (q : Nat) {den : Nat} (hden : 0 < den) : divRoundEven (q * den) den = q := by
  simp only [divRoundEven, Nat.mul_mod_left, Nat.mul_zero, Nat.mul_div_cancel _ hden, hden, if_true]

namespace Format

/-- The unit of a format is not zero. -/
theorem perOne_pos (f : Format) : 0 < f.perOne := Nat.pow_pos (by decide)

/-- A common factor of numerator and denominator does not matter. -/
theorem code_mul (f : Format) {c : Nat} (hc : 0 < c) (num den : Nat) :
    f.code (c * num) (c * den) = f.code num den := by
  simp only [code, Nat.mul_assoc c, Nat.mul_div_mul_left _ _ hc, divRoundEven_mul hc]

/-- Rounding depends on no more than the value of a quotient. -/
theorem code_congr (f : Format) {num den num' den' : Nat} (hden : 0 < den) (hden' : 0 < den')
    (h : num * den' = num' * den) : f.code num den = f.code num' den' := by
  rw [← f.code_mul hden' num den, ← f.code_mul hden num' den', Nat.mul_comm den' num, h,
    Nat.mul_comm den' den, Nat.mul_comm num' den]

section Values

variable (f : Format) {q s : Nat} (hq : q < 2 * f.binade) (hs : s = 0 ∨ f.binade ≤ q)

include hq hs in
/-- A number whose leading digits fill the fraction has as many other digits as were shifted out. -/
theorem log2_sub_eq : Nat.log2 (q * 2 ^ s) - f.fractionBits = s := by
  have htwo : 2 * f.binade = 2 ^ (f.fractionBits + 1) := Nat.pow_succ'.symm
  rw [htwo] at hq
  rcases hs with rfl | hle
  · rw [Nat.pow_zero, Nat.mul_one]
    by_cases hzero : q = 0
    · rw [hzero]
      exact Nat.zero_sub _
    · have hlog := (Nat.log2_lt hzero).2 hq
      omega
  · have hpos : 0 < q := Nat.lt_of_lt_of_le (Nat.pow_pos (by decide)) hle
    have hlog : Nat.log2 (q * 2 ^ s) = f.fractionBits + s := by
      rw [Nat.log2_eq_iff (Nat.mul_ne_zero hpos.ne' (by simp)), Nat.pow_add, Nat.add_right_comm, Nat.pow_add]
      exact ⟨Nat.mul_le_mul_right _ hle, Nat.mul_lt_mul_of_pos_right hq (Nat.pow_pos (by decide))⟩
    omega

include hq hs in
/-- A quotient that is a value of the format is not rounded. -/
theorem code_eq {num den : Nat} (hden : 0 < den) (hvalue : num * f.perOne = q * 2 ^ s * den)
    (hfinite : s * f.binade + q < f.infinity) : f.code num den = s * f.binade + q := by
  have hround : divRoundEven (q * 2 ^ s * den) (den * 2 ^ s) = q := by
    rw [Nat.mul_assoc, Nat.mul_comm (2 ^ s) den]
    exact divRoundEven_mul_self q (Nat.mul_pos hden (Nat.pow_pos (by decide)))
  rw [code]
  simp only [hvalue, Nat.mul_div_cancel _ hden, f.log2_sub_eq hq hs, Nat.pow_eq, hround]
  exact Nat.min_eq_left hfinite.le

include hq hs in
/-- The value of a code that was put together from digits. -/
theorem units_eq : f.units (s * f.binade + q) = q * 2 ^ s := by
  rw [units]
  have hbinade : 0 < f.binade := Nat.pow_pos (by decide)
  by_cases hle : f.binade ≤ q
  · have hcode : s * f.binade + q = (s + 1) * f.binade + (q - f.binade) := by
      rw [Nat.add_mul, Nat.one_mul]
      omega
    have hdiv : (s * f.binade + q) / f.binade = s + 1 := by
      rw [hcode, Nat.mul_comm, Nat.mul_add_div hbinade, Nat.div_eq_of_lt (by omega), Nat.add_zero]
    have hmod : (s * f.binade + q) % f.binade = q - f.binade := by
      rw [hcode, Nat.mul_comm, Nat.mul_add_mod, Nat.mod_eq_of_lt (by omega)]
    have hnormal : ¬ s * f.binade + q < f.binade := by omega
    rw [if_neg hnormal, hdiv, hmod, Nat.add_sub_cancel, Nat.add_sub_cancel' hle]
    rfl
  · obtain rfl := hs.resolve_right hle
    rw [Nat.zero_mul, Nat.zero_add, if_pos (Nat.lt_of_not_le hle), Nat.pow_zero, Nat.mul_one]

end Values

/-- The values of finite codes are values of the format. -/
theorem code_units (f : Format) {c : Nat} (hc : c < f.infinity) : f.code (f.units c) f.perOne = c := by
  have hbinade : 0 < f.binade := Nat.pow_pos (by decide)
  have hone := f.perOne_pos
  -- A code is put together from digits, in one way for subnormal numbers and in another one for the rest.
  obtain ⟨q, s, hq, hs, rfl⟩ :
      ∃ q s, q < 2 * f.binade ∧ (s = 0 ∨ f.binade ≤ q) ∧ c = s * f.binade + q := by
    by_cases hlt : c < f.binade
    · exact ⟨c, 0, by omega, Or.inl rfl, by omega⟩
    · have hmod := Nat.mod_lt c hbinade
      have hdiv : 1 ≤ c / f.binade := Nat.div_pos (Nat.le_of_not_lt hlt) hbinade
      refine ⟨f.binade + c % f.binade, c / f.binade - 1, by omega, Or.inr (Nat.le_add_right _ _), ?_⟩
      have hsum := Nat.div_add_mod' c f.binade
      obtain ⟨k, hk⟩ : ∃ k, c / f.binade = k + 1 := ⟨c / f.binade - 1, by omega⟩
      rw [hk] at hsum ⊢
      rw [Nat.add_sub_cancel]
      rw [Nat.add_mul, Nat.one_mul] at hsum
      omega
  exact f.code_eq hq hs hone (by rw [f.units_eq hq hs]) hc

/-- Integers below `2 ^ 53` times a power of two that is not too large are doubles. -/
theorem double_units_code {m k : Nat} (hm : m < 2 ^ 53) (hk : k ≤ 900) :
    double.code (m * 2 ^ k) 1 < double.infinity ∧
      double.units (double.code (m * 2 ^ k) 1) = m * 2 ^ k * double.perOne := by
  have hbinade : double.binade = 2 ^ 52 := rfl
  have hone : ∀ f : Format, f.perOne = 2 ^ f.unitPlace := fun f => rfl
  have hplace : double.unitPlace = 1074 := rfl
  have hinfinity : double.infinity = 2047 * 2 ^ 52 := rfl
  -- The digits of `m`, filled up with zeros to the width of a fraction, and what was shifted out for that.
  obtain ⟨q, s, hq, hs, hlow, hvalue⟩ : ∃ q s, q < 2 * double.binade ∧ (s = 0 ∨ double.binade ≤ q) ∧
      s ≤ 2000 ∧ m * 2 ^ k * double.perOne = q * 2 ^ s := by
    by_cases hzero : m = 0
    · exact ⟨0, 0, by decide, Or.inl rfl, by decide, by rw [hzero, Nat.zero_mul, Nat.zero_mul, Nat.zero_mul]⟩
    · have hlog : Nat.log2 m ≤ 52 := Nat.lt_succ_iff.1 ((Nat.log2_lt hzero).2 hm)
      have hwidth : Nat.log2 m + (52 - Nat.log2 m) = 52 := by omega
      have hshift : k + double.unitPlace = 52 - Nat.log2 m + (1022 + Nat.log2 m + k) := by omega
      refine ⟨m * 2 ^ (52 - Nat.log2 m), 1022 + Nat.log2 m + k, ?_, Or.inr ?_, by omega, ?_⟩
      · calc m * 2 ^ (52 - Nat.log2 m)
            < 2 ^ (Nat.log2 m + 1) * 2 ^ (52 - Nat.log2 m) :=
              Nat.mul_lt_mul_of_pos_right Nat.lt_log2_self (Nat.pow_pos (by decide))
          _ = 2 * 2 ^ (Nat.log2 m + (52 - Nat.log2 m)) := by ring
          _ = 2 * double.binade := by rw [hwidth, hbinade]
      · calc double.binade = 2 ^ Nat.log2 m * 2 ^ (52 - Nat.log2 m) := by rw [hbinade, ← Nat.pow_add, hwidth]
          _ ≤ m * 2 ^ (52 - Nat.log2 m) := Nat.mul_le_mul_right _ (Nat.log2_self_le hzero)
      · rw [hone, Nat.mul_assoc, Nat.mul_assoc, ← Nat.pow_add, ← Nat.pow_add, hshift]
  have hfinite : s * double.binade + q < double.infinity := by
    rw [hbinade] at hq ⊢
    rw [hinfinity]
    omega
  rw [double.code_eq hq hs (by decide) (by rw [hvalue, Nat.mul_one]) hfinite, double.units_eq hq hs]
  exact ⟨hfinite, hvalue.symm⟩

end Format

namespace Binary64

/-- Sign and code make up the word. -/
theorem ofCode_code (x : Binary64) : ofCode x.negative x.code = x := by
  have hplace : signPlace = 9223372036854775808 := rfl
  have hword := x.bits.toNat_lt
  have hbits : ((if x.negative then signPlace else 0) + x.code) = x.bits.toNat := by
    simp only [negative, code, decide_eq_true_eq, hplace]
    split <;> omega
  rw [ofCode, hbits, UInt64.ofNat_toNat]

/-- The sign is found again in the word. -/
theorem negative_ofCode {code : Nat} (h : code < signPlace) (negative : Bool) :
    (ofCode negative code).negative = negative := by
  have hplace : signPlace = 9223372036854775808 := rfl
  rw [hplace] at h
  cases negative with
  | true =>
    simp only [Binary64.negative, ofCode, UInt64.toNat_ofNat', hplace, if_true, decide_eq_true_eq]
    omega
  | false =>
    simp only [Binary64.negative, ofCode, UInt64.toNat_ofNat', hplace, Bool.false_eq_true, if_false,
      decide_eq_false_iff_not]
    omega

/-- No code is beyond the one of infinity. -/
theorem code_lt_signPlace (num den : Nat) : Format.double.code num den < signPlace := by
  have hplace : Format.double.infinity < signPlace := by decide
  exact Nat.lt_of_le_of_lt (Nat.min_le_right _ _) hplace

/-- The code of a rounded quotient. -/
theorem code_ofRatio (negative : Bool) (num den : Nat) :
    (ofRatio negative num den).code = Format.double.code num den :=
  code_ofCode (code_lt_signPlace num den) negative

/-- The sign of a rounded quotient. -/
theorem negative_ofRatio (negative : Bool) (num den : Nat) :
    (ofRatio negative num den).negative = negative :=
  negative_ofCode (code_lt_signPlace num den) negative

/-- A rounded quotient depends on no more than its value. -/
theorem ofRatio_congr (negative : Bool) {num den num' den' : Nat} (hden : 0 < den) (hden' : 0 < den')
    (h : num * den' = num' * den) : ofRatio negative num den = ofRatio negative num' den' := by
  rw [ofRatio, ofRatio, Format.double.code_congr hden hden' h]

/-- Scaling an integer below `2 ^ 53` by a power of ten that is a double rounds no more than once. -/
theorem scale_ofInt {m : Nat} {e : Int} (hm : m < 2 ^ 53) (hlow : -22 ≤ e) (hhigh : e ≤ 22) :
    (ofInt m).scale e = ofRatio false (Decimal.mk m e).toRatio.1 (Decimal.mk m e).toRatio.2 := by
  have hinteger : (ofInt m).toRatio = (m * Format.double.perOne, Format.double.perOne) := by
    have hexact := (Format.double_units_code (k := 0) hm (by decide)).2
    rw [Nat.pow_zero, Nat.mul_one] at hexact
    rw [toRatio, ofInt, code_ofRatio, Int.natAbs_natCast, hexact]
  have hpower : ∀ k ≤ 22, (powerOfTen k).toRatio = (10 ^ k * Format.double.perOne, Format.double.perOne) := by
    intro k hk
    have hten : 10 ^ k = 5 ^ k * 2 ^ k := by rw [← Nat.mul_pow]
    have hfive : 5 ^ k < 2 ^ 53 :=
      Nat.lt_of_le_of_lt (Nat.pow_le_pow_right (by decide) hk) (by decide)
    have hexact := (Format.double_units_code hfive (Nat.le_trans hk (by decide))).2
    rw [toRatio, powerOfTen, code_ofRatio, Nat.pow_eq, hten, hexact]
  have hsign : (ofInt m).negative = false := by
    rw [ofInt, negative_ofRatio, decide_eq_false_iff_not]
    omega
  have hsign' : ∀ k, (powerOfTen k).negative = false := fun k => negative_ofRatio _ _ _
  have hone := Format.double.perOne_pos
  generalize Format.double.perOne = one at hinteger hpower hone
  have hten : ∀ k, 0 < 10 ^ k := fun k => Nat.pow_pos (by decide)
  cases e with
  | ofNat k =>
    rw [Int.ofNat_eq_natCast] at hhigh
    have hk : k ≤ 22 := by omega
    have hup : (Int.ofNat k).toNat = k := rfl
    have hdown : (-(Int.ofNat k)).toNat = 0 := by
      rw [Int.ofNat_eq_natCast]
      omega
    rw [scale]
    split
    · rename_i hzero
      have hunits : (ofInt m).toRatio.1 = 0 := by
        rw [toRatio, of_decide_eq_true hzero]
        rfl
      rw [hinteger] at hunits
      obtain rfl : m = 0 := (Nat.mul_eq_zero.1 hunits).resolve_right hone.ne'
      refine ofRatio_congr false Nat.one_pos (hten _) ?_
      simp [Decimal.toRatio]
    · rw [if_pos (Nat.le_trans hk (by decide)), mul, hsign, hsign', hinteger, hpower k hk]
      refine ofRatio_congr false (Nat.mul_pos hone hone) (hten _) ?_
      simp only [Decimal.toRatio, hup, hdown, Nat.pow_eq]
      ring
  | negSucc k =>
    have hk : k < 22 := by
      have := Int.negSucc_eq k
      omega
    have hless : k < largestTen := Nat.lt_of_lt_of_le hk (by decide)
    have hup : (Int.negSucc k).toNat = 0 := rfl
    have hdown : (-(Int.negSucc k)).toNat = k + 1 := rfl
    rw [scale, Nat.div_eq_of_lt hless, Nat.mod_eq_of_lt hless, lower, div, hsign, hsign', hinteger,
      hpower (k + 1) hk]
    refine ofRatio_congr false (Nat.mul_pos (hten _) hone) (hten _) ?_
    simp only [Decimal.toRatio, hup, hdown, Nat.pow_eq]
    ring

end Binary64

end BoundSql
