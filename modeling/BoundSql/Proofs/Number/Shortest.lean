import BoundSql.Proofs.Number.Exactness

/-!
# The shortest decimal stands for its number

The double nearest to the decimal that a finite number is written as is that number
(`Binary64.code_shortest`): a decimal is accepted only if it reads back, and the exact expansion, which stands
in where none was accepted, does so too.
-/

namespace BoundSql

namespace Decimal

/-- The normal form of zero is zero without an exponent. -/
theorem normalize_of_eq_zero {d : Decimal} (h : d.significand = 0) : d.normalize = ⟨0, 0⟩ := by
  rw [normalize, h, normalizePair, if_pos rfl]

/-- A decimal is its normal form with zeros at the end. -/
theorem exists_eq_normalizePair {s : Nat} (e : Int) (hs : s ≠ 0) :
    ∃ k : Nat, (normalizePair s e).significand * 10 ^ k = s ∧ (normalizePair s e).exponent = e + k := by
  induction s, e using normalizePair.induct with
  | case1 e => exact absurd rfl hs
  | case2 s e hne hten ih =>
    obtain ⟨k, hsignificand, hexponent⟩ := ih (by omega)
    rw [normalizePair, if_neg hne, if_pos hten]
    refine ⟨k + 1, ?_, ?_⟩
    · rw [Nat.pow_succ, ← Nat.mul_assoc, hsignificand]
      omega
    · rw [hexponent]
      push_cast
      ring
  | case3 s e hne hten =>
    rw [normalizePair, if_neg hne, if_neg hten]
    exact ⟨0, Nat.mul_one s, (Int.add_zero e).symm⟩

/-- If a normal form has the significand zero, its exponent is zero too. -/
theorem exponent_normalize {d : Decimal} (h : d.normalize.significand = 0) : d.normalize.exponent = 0 := by
  by_cases hs : d.significand = 0
  · rw [normalize_of_eq_zero hs]
  · obtain ⟨k, hsignificand, -⟩ := exists_eq_normalizePair d.exponent hs
    rw [normalize] at h
    rw [h, Nat.zero_mul] at hsignificand
    exact absurd hsignificand.symm hs

/-- A power of ten is not zero. -/
theorem toRatio_pos (d : Decimal) : 0 < d.toRatio.2 := Nat.pow_pos (by decide)

end Decimal

namespace Format

/-- Zeros at the end of a significand are as good as a larger exponent. -/
theorem code_zeros (f : Format) (s : Nat) (e : Int) (k : Nat) :
    f.code (Decimal.mk (s * 10 ^ k) e).toRatio.1 (Decimal.mk (s * 10 ^ k) e).toRatio.2 =
      f.code (Decimal.mk s (e + k)).toRatio.1 (Decimal.mk s (e + k)).toRatio.2 := by
  refine f.code_congr (Decimal.toRatio_pos _) (Decimal.toRatio_pos _) ?_
  have hexponent : k + e.toNat + (-(e + k)).toNat = (e + k).toNat + (-e).toNat := by omega
  simp only [Decimal.toRatio, Nat.pow_eq, Nat.mul_assoc, ← Nat.pow_add, hexponent]

/-- Decimals with the same normal form are rounded alike. -/
theorem code_normalize (f : Format) (d : Decimal) :
    f.code d.normalize.toRatio.1 d.normalize.toRatio.2 = f.code d.toRatio.1 d.toRatio.2 := by
  obtain ⟨s, e⟩ := d
  by_cases hs : s = 0
  · rw [Decimal.normalize_of_eq_zero hs]
    refine f.code_congr (Decimal.toRatio_pos _) (Decimal.toRatio_pos _) ?_
    simp [Decimal.toRatio, hs]
  · obtain ⟨k, hsignificand, hexponent⟩ := Decimal.exists_eq_normalizePair e hs
    have hzeros := f.code_zeros (Decimal.normalizePair s e).significand e k
    rw [hsignificand, ← hexponent] at hzeros
    exact hzeros.symm

end Format

namespace Binary64

/-- A decimal is taken from a grid only if it reads back. -/
theorem readsBack_of_onGrid? {x : Binary64} {g : Int} {d : Decimal} (h : x.onGrid? g = some d) :
    x.readsBack d = true := by
  rw [onGrid?] at h
  dsimp only at h
  generalize divRoundEven _ _ = nearest at h
  generalize ite (nearest = _) _ _ = other at h
  split at h
  · rename_i hreads
    exact Option.some.inj h ▸ hreads
  · split at h
    · rename_i hreads
      exact Option.some.inj h ▸ hreads
    · cases h

/-- A number is written as zero, or as the normal form of a decimal that reads back, or of its expansion. -/
theorem shortest_eq (x : Binary64) : (x.isZero = true ∧ x.shortest = ⟨0, 0⟩) ∨
    (x.isZero = false ∧
      ∃ d : Decimal, x.shortest = d.normalize ∧ (x.readsBack d = true ∨ d = x.expansion)) := by
  rw [shortest]
  by_cases hx : x.isZero = true
  · exact Or.inl ⟨hx, if_pos hx⟩
  · rw [if_neg hx]
    refine Or.inr ⟨Bool.eq_false_iff.2 hx, ?_⟩
    dsimp only
    cases hfound : (List.range 17).findSome? fun (n : Nat) => x.onGrid? (x.decimalExponent - n) with
    | none => exact ⟨x.expansion, rfl, Or.inr rfl⟩
    | some d =>
      obtain ⟨n, -, hn⟩ := List.exists_of_findSome?_eq_some hfound
      exact ⟨d, rfl, Or.inl (readsBack_of_onGrid? hn)⟩

/-- What reads back as a finite number other than zero is rounded to it. -/
theorem code_of_readsBack {x : Binary64} {d : Decimal} (hfinite : x.isFinite = true)
    (hzero : x.isZero = false) (h : x.readsBack d = true) :
    Format.double.code d.toRatio.1 d.toRatio.2 = x.code := by
  have hcode : (ofDecimal false d).code = x.code := of_decide_eq_true h
  have hne : x.code ≠ 0 := of_decide_eq_false hzero
  have hlt : x.code < Format.double.infinity := of_decide_eq_true hfinite
  have hzeroCode : (ofCode false 0).code = 0 := by decide
  have hinfinity : (infinity false).code = Format.double.infinity := by decide
  rw [ofDecimal] at hcode
  split at hcode
  · exact absurd (hcode.symm.trans hzeroCode) hne
  · split at hcode
    · exact absurd (hinfinity.symm.trans hcode) hlt.ne'
    · split at hcode
      · exact absurd (hcode.symm.trans hzeroCode) hne
      · rw [← Format.code_normalize, ← code_ofRatio false]
        exact hcode

/-- The decimal that a finite number is written as is rounded to that number. -/
theorem code_shortest {x : Binary64} (hfinite : x.isFinite = true) :
    Format.double.code x.shortest.toRatio.1 x.shortest.toRatio.2 = x.code := by
  have hlt : x.code < Format.double.infinity := of_decide_eq_true hfinite
  rcases shortest_eq x with ⟨hzero, hshortest⟩ | ⟨hzero, d, hshortest, hreads | rfl⟩
  · rw [hshortest, of_decide_eq_true hzero]
    decide +kernel
  · rw [hshortest, Format.code_normalize]
    exact code_of_readsBack hfinite hzero hreads
  · rw [hshortest, Format.code_normalize]
    -- The digits of the expansion count the units of the number, and ten is twice five.
    refine Eq.trans ?_ (Format.double.code_units hlt)
    have hone : ∀ f : Format, f.perOne = 2 ^ f.unitPlace := fun f => rfl
    refine Format.double.code_congr (Decimal.toRatio_pos _) Format.double.perOne_pos ?_
    rw [expansion, hone]
    generalize Format.double.units x.code = units
    generalize Format.double.unitPlace = place
    have hten : 10 ^ place = 5 ^ place * 2 ^ place := by rw [← Nat.mul_pow]
    have hup : (-(place : Int)).toNat = 0 := by omega
    have hdown : (-(-(place : Int))).toNat = place := by omega
    simp only [Decimal.toRatio, hup, hdown, Nat.pow_eq, Nat.pow_zero, Nat.mul_one, hten]
    ring

/-- If a number is written with the significand zero, the exponent is zero too. -/
theorem exponent_shortest {x : Binary64} (h : x.shortest.significand = 0) : x.shortest.exponent = 0 := by
  rcases shortest_eq x with ⟨-, hzero⟩ | ⟨-, d, hd, -⟩
  · rw [hzero]
  · rw [hd] at h ⊢
    exact Decimal.exponent_normalize h

end Binary64

end BoundSql
