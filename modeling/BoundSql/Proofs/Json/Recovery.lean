import BoundSql.Proofs.Json.Numerals

/-!
# Floating-point numbers that are read as they were written

The literal that a floating-point number is written as denotes the decimal that stands for the number, with
zeros at its end that do not matter (`Json.Literal.decimal_ofDecimal`).  So reading the literal undoes writing it
if its digits are scaled without an error, that is if they make an integer below `2 ^ 53` and the power of ten is
between `10 ^ -22` and `10 ^ 22` (`Json.readsExactly_of_scalesExactly`).
-/

namespace BoundSql

namespace Json

/-- A digit is less than ten. -/
theorem digitValue_lt {c : Char} (h : isDigit c = true) : digitValue c < 10 := by
  have hc : '0' ≤ c ∧ c ≤ '9' := of_decide_eq_true h
  have hle : c.toNat ≤ 57 := hc.2
  rw [digitValue]
  omega

namespace Literal

/-- A significand does not become smaller when digits are appended. -/
theorem le_appendDigits (n : Nat) (ds : List Char) : n ≤ (appendDigits n ds).1 := by
  induction ds generalizing n with
  | nil => exact Nat.le_refl n
  | cons d ds ih =>
    rw [appendDigits]
    split
    · have h : n ≤ 10 * n + digitValue d := by omega
      exact Nat.le_trans h (ih _)
    · exact Nat.le_refl n

/-- Where the significand stays small, no digit is left out. -/
theorem appendDigits_of_small {n : Nat} {ds : List Char} (hds : ∀ c ∈ ds, isDigit c = true)
    (h : (appendDigits n ds).1 < 2 ^ 53) : appendDigits n ds = (followedBy n ds, 0) := by
  induction ds generalizing n with
  | nil => rfl
  | cons d ds ih =>
    have hdigit := digitValue_lt (hds d List.mem_cons_self)
    have hrest : ∀ c ∈ ds, isDigit c = true := fun c hc => hds c (List.mem_cons_of_mem d hc)
    rw [appendDigits] at h ⊢
    split at h
    · rename_i hroom
      rw [if_pos hroom]
      exact ih hrest h
    · rename_i hfull
      rw [significandBound] at hfull
      omega

/-- A literal of a small significand denotes its digits, scaled by its exponent and the place of its point. -/
theorem decimal_eq {l : Literal} (hl : l.WellFormed) (h : l.decimal.significand < 2 ^ 53) :
    l.decimal = ⟨followedBy 0 (l.whole ++ l.fraction.getD []),
      l.exponent.getD 0 - (l.fraction.getD []).length⟩ := by
  have hfraction : ∀ c ∈ l.fraction.getD [], isDigit c = true := by
    cases hf : l.fraction with
    | none => exact nofun
    | some ds => exact hl.isDigit_fraction ds hf
  have hsignificand : (appendDigits (appendDigits 0 l.whole).1 (l.fraction.getD [])).1 < 2 ^ 53 := h
  have hwhole := appendDigits_of_small hl.isDigit_whole
    (Nat.lt_of_le_of_lt (le_appendDigits _ _) hsignificand)
  rw [hwhole] at hsignificand
  have hrest := appendDigits_of_small hfraction hsignificand
  have happend : followedBy 0 (l.whole ++ l.fraction.getD []) =
      followedBy (followedBy 0 l.whole) (l.fraction.getD []) := by
    simp only [followedBy_eq, Nat.ofDigitChars_append]
  rw [decimal, wholePart, hwhole, happend]
  simp only [hrest, Decimal.mk.injEq, true_and]
  omega

/-- The digits of a decimal with a point between them, or zeros between the point and them. -/
theorem followedBy_positional (ds : List Char) (place : Int) :
    ∃ k : Nat, followedBy 0 (wholeDigits ds place ++ fractionDigits ds place) = followedBy 0 ds * 10 ^ k ∧
      ((fractionDigits ds place).length : Int) = ds.length - place + k := by
  rw [wholeDigits, fractionDigits, followedBy_eq, followedBy_eq]
  by_cases hplace : place ≤ 0
  · refine ⟨0, ?_, ?_⟩
    · rw [if_pos hplace, if_pos hplace, Nat.ofDigitChars_append, Nat.ofDigitChars_append,
        Nat.ofDigitChars_replicate_zero, Nat.pow_zero, Nat.mul_one]
      rfl
    · rw [if_pos hplace, List.length_append, List.length_replicate]
      omega
  · rw [if_neg hplace, if_neg hplace]
    by_cases hlength : place.toNat < ds.length
    · have hzeros : place.toNat - ds.length = 0 := by omega
      refine ⟨0, ?_, ?_⟩
      · rw [if_pos hlength, hzeros, List.replicate_zero, List.append_nil, List.take_append_drop,
          Nat.pow_zero, Nat.mul_one]
      · rw [if_pos hlength, List.length_drop]
        omega
    · refine ⟨place.toNat - ds.length + 1, ?_, ?_⟩
      · have hzeros : List.replicate (place.toNat - ds.length) '0' ++ ['0'] =
            List.replicate (place.toNat - ds.length + 1) '0' := List.replicate_succ'.symm
        rw [if_neg hlength, List.take_of_length_le (Nat.le_of_not_lt hlength), List.append_assoc, hzeros,
          Nat.ofDigitChars_append, Nat.ofDigitChars_replicate_zero, Nat.mul_comm]
      · rw [if_neg hlength, List.length_singleton]
        omega

/-- The literal of a decimal denotes the decimal. -/
theorem decimal_ofDecimal {negative : Bool} {d : Decimal} (hd : d.significand = 0 → d.exponent = 0)
    (h : (ofDecimal negative d).decimal.significand < 2 ^ 53) :
    ∃ k : Nat, (ofDecimal negative d).decimal = ⟨d.significand * 10 ^ k, d.exponent - k⟩ := by
  rw [decimal_eq (wellFormed_ofDecimal negative hd) h]
  have hdigits : followedBy 0 (Decimal.digits d.significand) = d.significand := digitsValue_digits _
  rw [ofDecimal]
  split
  · obtain ⟨k, hvalue, hlength⟩ := followedBy_positional (Decimal.digits d.significand)
      (d.exponent + (Decimal.digits d.significand).length - 1 + 1)
    refine ⟨k, ?_⟩
    simp only [Option.getD_some, Option.getD_none, hvalue, hlength, hdigits, Decimal.mk.injEq, true_and]
    omega
  · obtain ⟨c, cs, hcs⟩ := List.exists_cons_of_ne_nil (digits_ne_nil d.significand)
    rw [hcs] at hdigits ⊢
    refine ⟨0, ?_⟩
    have hjoin : (c :: cs).take 1 ++ (if (c :: cs).length ≤ 1 then none else some ((c :: cs).drop 1)).getD [] =
        c :: cs := by
      cases cs <;> rfl
    have hlength : ((if (c :: cs).length ≤ 1 then none else some ((c :: cs).drop 1)).getD []).length =
        cs.length := by
      cases cs <;> rfl
    dsimp only
    rw [hjoin, hlength, hdigits, Nat.pow_zero, Nat.mul_one]
    simp only [Option.getD_some, List.length_cons, Decimal.mk.injEq, true_and]
    omega

end Literal

/-- Whether reading the literal that a floating-point number is written as undoes writing it. -/
def ReadsExactly (x : Binary64) : Prop := (Literal.ofDecimal x.negative x.shortest).toBinary64 = x

instance : DecidablePred ReadsExactly := fun _ => inferInstanceAs (Decidable (_ = _))

/-- Whether the digits that a floating-point number is written as are scaled without an error when they are
read: the significand and the power of ten are doubles. -/
def ScalesExactly (x : Binary64) : Prop :=
  let d := (Literal.ofDecimal x.negative x.shortest).decimal
  d.significand < 2 ^ 53 ∧ -22 ≤ d.exponent ∧ d.exponent ≤ 22

instance : DecidablePred ScalesExactly := fun _ => inferInstanceAs (Decidable (_ ∧ _))

/-- If its digits are scaled without an error, a number is what its literal stands for. -/
theorem readsExactly_of_scalesExactly {x : Binary64} (finite : x.isFinite = true) (h : ScalesExactly x) :
    ReadsExactly x := by
  obtain ⟨hsignificand, hlow, hhigh⟩ := h
  have hsign : (Literal.ofDecimal x.negative x.shortest).negative = x.negative := Literal.negative_ofDecimal _ _
  obtain ⟨k, hdecimal⟩ := Literal.decimal_ofDecimal Binary64.exponent_shortest hsignificand
  have hcode : Format.double.code (Literal.ofDecimal x.negative x.shortest).decimal.toRatio.1
      (Literal.ofDecimal x.negative x.shortest).decimal.toRatio.2 = x.code := by
    have hzeros := Format.double.code_zeros x.shortest.significand (x.shortest.exponent - k) k
    rw [Int.sub_add_cancel, Binary64.code_shortest finite] at hzeros
    rw [hdecimal]
    exact hzeros
  have hscaled := (Binary64.scale_ofInt hsignificand hlow hhigh).trans
    (congrArg (Binary64.ofCode false) hcode)
  have hplace : x.code < Binary64.signPlace := Nat.mod_lt _ (by decide)
  refine Eq.trans ?_ x.ofCode_code
  simp only [Literal.toBinary64, hscaled, hsign]
  cases x.negative with
  | true =>
    rw [if_pos rfl, Binary64.neg, Binary64.negative_ofCode hplace, Binary64.code_ofCode hplace]
    rfl
  | false => rfl

/-- Ten to the power of minus 23 is another number once its text was read. -/
example : ¬ ReadsExactly ⟨0x3b282db34012b251⟩ := by decide +kernel

/-- A floating-point number is read as it was written if reading its literal undoes writing it. -/
theorem Number.reread?_float_of_readsExactly {x : Binary64} (finite : x.isFinite = true)
    (h : ReadsExactly x) : (Number.float x finite).reread? = some (.float x finite) := by
  have hliteral : (Literal.ofDecimal x.negative x.shortest).toBinary64 = x := h
  rw [reread?_float, literal, hliteral]
  exact dif_pos finite

end Json

end BoundSql
