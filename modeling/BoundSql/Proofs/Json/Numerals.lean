import BoundSql.Json.Reader
import BoundSql.Proofs.Number.Shortest
import Mathlib.Data.List.TakeDrop

/-!
# Numbers as they are written and read

Every number is written as the text of a literal, `Json.Number.literal`, and from the text of a literal that
literal is read again, whatever stands behind it that does not go on with it (`Json.readLiteral_text`).  So the
number that is read is the one that the literal of the written number stands for, `Json.Number.reread?`.

For an integer that is the integer itself (`Json.Number.reread?_integer`).  A floating-point number is written
with a point or an exponent and is read as a floating-point number, if at all (`Json.Number.reread?_float`).  It
need not be the same one, because its digits are scaled in several steps, each of which rounds
(`Json.Literal.toBinary64`).
-/

namespace BoundSql

namespace Json

/-! ## Digits -/

/-- Digits are valued as those of the base that they are written in. -/
theorem followedBy_eq (n : Nat) (ds : List Char) : followedBy n ds = Nat.ofDigitChars 10 ds n := by
  induction ds generalizing n with
  | nil => rfl
  | cons d ds ih => exact ih _

/-- The digits of a number denote it. -/
theorem digitsValue_digits (n : Nat) : digitsValue (Decimal.digits n) = n := by
  rw [digitsValue, followedBy_eq]
  exact Nat.ofDigitChars_ten_toDigits

/-- The digits of a number are digits. -/
theorem isDigit_of_mem_digits {n : Nat} {c : Char} (h : c ∈ Decimal.digits n) : isDigit c = true := by
  have hdigit : c.isDigit = true := Nat.isDigit_of_mem_toDigits (by decide) (by decide) h
  rw [Char.isDigit, Bool.and_eq_true, decide_eq_true_eq, decide_eq_true_eq] at hdigit
  exact decide_eq_true hdigit

/-- A number has a digit. -/
theorem digits_ne_nil (n : Nat) : Decimal.digits n ≠ [] := Nat.toDigits_ne_nil

/-- Only zero starts with the digit zero. -/
theorem head?_digits_ne {n : Nat} (h : n ≠ 0) : (Decimal.digits n).head? ≠ some '0' := by
  induction n using Nat.strongRecOn with
  | ind n ih =>
    rw [Decimal.digits]
    by_cases hn : n < 10
    · rw [Nat.toDigits_of_lt_base hn]
      have hdigits : ∀ m < 10, m ≠ 0 → [m.digitChar].head? ≠ some '0' := by decide
      exact hdigits n hn h
    · have hten : 10 ≤ n := Nat.le_of_not_lt hn
      have hfirst := ih (n / 10) (by omega) (by omega)
      rw [Nat.toDigits_of_base_le (by decide) hten, List.head?_append]
      cases hhead : (Nat.toDigits 10 (n / 10)).head? with
      | none => exact absurd (List.head?_eq_none_iff.1 hhead) Nat.toDigits_ne_nil
      | some d =>
        rw [Decimal.digits, hhead] at hfirst
        exact hfirst

/-- Whether a text does not start with a digit. -/
def NoDigit (rest : List Char) : Prop := ∀ c ∈ rest.head?, isDigit c = false

/-- A run of digits ends where no digit follows. -/
theorem span_isDigit {ds rest : List Char} (hds : ∀ c ∈ ds, isDigit c = true) (hrest : NoDigit rest) :
    (ds ++ rest).span isDigit = (ds, rest) := by
  rw [List.span_eq_takeWhile_dropWhile, List.takeWhile_append_of_pos hds, List.dropWhile_append_of_pos hds]
  cases rest with
  | nil => rw [List.takeWhile_nil, List.append_nil, List.dropWhile_nil]
  | cons c rest =>
    have hc : ¬ isDigit c = true := by
      rw [hrest c rfl]
      exact Bool.false_ne_true
    rw [List.takeWhile_cons_of_neg hc, List.append_nil, List.dropWhile_cons_of_neg hc]

/-! ## The text of a literal -/

namespace Literal

/-- The point and the digits after it, if there are any. -/
def fractionText : Option (List Char) → List Char
  | none => []
  | some ds => '.' :: ds

/-- The exponent with its mark, if there is one. -/
def exponentText : Option Int → List Char
  | none => []
  | some e => 'e' :: floatLayout.exponentText e

/-- A literal as it is written after its sign. -/
def unsignedText (l : Literal) : List Char :=
  l.whole ++ (fractionText l.fraction ++ exponentText l.exponent)

/-- A literal as it is written. -/
def text (l : Literal) : List Char := (if l.negative then ['-'] else []) ++ l.unsignedText

/-- Whether the parts of a literal are those of a JSON number: runs of digits that are not empty, the first of
which does not start with an idle zero. -/
structure WellFormed (l : Literal) : Prop where
  whole_ne_nil : l.whole ≠ []
  isDigit_whole : ∀ c ∈ l.whole, isDigit c = true
  no_idle_zero : ∀ ds, l.whole = '0' :: ds → ds = []
  fraction_ne_nil : ∀ ds ∈ l.fraction, ds ≠ []
  isDigit_fraction : ∀ ds ∈ l.fraction, ∀ c ∈ ds, isDigit c = true

end Literal

/-- Whether a text does not go on with a number literal in front of it. -/
def Stops (rest : List Char) : Prop :=
  ∀ c ∈ rest.head?, isDigit c = false ∧ c ≠ '.' ∧ c ≠ 'e' ∧ c ≠ 'E'

/-- A text stops a number if its first character does. -/
theorem stops_cons {c : Char} (rest : List Char)
    (hc : isDigit c = false ∧ c ≠ '.' ∧ c ≠ 'e' ∧ c ≠ 'E') : Stops (c :: rest) := by
  intro d hd
  obtain rfl := Option.some.inj hd
  exact hc

/-- What stops a literal starts with no digit. -/
theorem Stops.noDigit {rest : List Char} (h : Stops rest) : NoDigit rest := fun c hc => (h c hc).1

/-- The digits before the point are read up to what follows them. -/
theorem readWhole_append {ds rest : List Char} (hne : ds ≠ []) (hds : ∀ c ∈ ds, isDigit c = true)
    (hzero : ∀ es, ds = '0' :: es → es = []) (hrest : NoDigit rest) :
    readWhole (ds ++ rest) = some (ds, rest) := by
  rw [readWhole, span_isDigit hds hrest]
  split
  · rename_i h
    exact absurd (Prod.mk.inj h).1 hne
  · rename_i h
    have hnil := hzero _ (Prod.mk.inj h).1
    cases hnil
  · rename_i h
    rw [← (Prod.mk.inj h).1, ← (Prod.mk.inj h).2]

/-- The digits after the point are read if there are any. -/
theorem readFraction_append {fraction : Option (List Char)} {rest : List Char}
    (hne : ∀ ds ∈ fraction, ds ≠ []) (hds : ∀ ds ∈ fraction, ∀ c ∈ ds, isDigit c = true)
    (hrest : ∀ c ∈ rest.head?, isDigit c = false ∧ c ≠ '.') :
    readFraction (Literal.fractionText fraction ++ rest) = some (fraction, rest) := by
  cases fraction with
  | none =>
    rw [Literal.fractionText, List.nil_append, readFraction.eq_def]
    split
    · exact absurd rfl (hrest '.' rfl).2
    · rfl
  | some ds =>
    rw [Literal.fractionText, List.cons_append, readFraction,
      span_isDigit (hds ds rfl) fun c hc => (hrest c hc).1]
    split
    · rename_i h
      exact absurd (Prod.mk.inj h).1 (hne ds rfl)
    · rename_i h
      rw [← (Prod.mk.inj h).1, ← (Prod.mk.inj h).2]

/-- The sign of an exponent and its digits are read. -/
theorem readExponentSign_exponentText (e : Int) (rest : List Char) :
    readExponentSign (floatLayout.exponentText e ++ rest) =
      (decide (e < 0), Decimal.digits e.natAbs ++ rest) := by
  rw [Decimal.Layout.exponentText]
  by_cases he : e < 0
  · rw [if_pos he, decide_eq_true he]
    rfl
  · rw [if_neg he, decide_eq_false he]
    rfl

/-- An exponent is read if there is one. -/
theorem readExponent_append {exponent : Option Int} {rest : List Char} (hrest : Stops rest) :
    readExponent (Literal.exponentText exponent ++ rest) = some (exponent, rest) := by
  cases exponent with
  | none =>
    rw [Literal.exponentText, List.nil_append]
    cases rest with
    | nil => rfl
    | cons c rest =>
      have hmark : ¬ (c = 'e' ∨ c = 'E') := fun h => h.elim (hrest c rfl).2.2.1 (hrest c rfl).2.2.2
      rw [readExponent, if_neg hmark]
  | some e =>
    have hdigits : (Decimal.digits e.natAbs ++ rest).span isDigit = (Decimal.digits e.natAbs, rest) :=
      span_isDigit (fun c => isDigit_of_mem_digits) hrest.noDigit
    rw [Literal.exponentText, List.cons_append, readExponent, if_pos (Or.inl rfl)]
    simp only [readExponentSign_exponentText, hdigits]
    split
    · rename_i h
      exact absurd (Prod.mk.inj h).1 (digits_ne_nil _)
    · rename_i h
      rw [← (Prod.mk.inj h).1, ← (Prod.mk.inj h).2, digitsValue_digits]
      have hsigned : (if decide (e < 0) = true then -(e.natAbs : Int) else e.natAbs) = e := by
        simp only [decide_eq_true_eq]
        split <;> omega
      rw [hsigned]

/-- A literal is read from its text after the sign, and what stops it is left. -/
theorem readLiteral_text {l : Literal} (hl : l.WellFormed) {rest : List Char} (hrest : Stops rest) :
    readLiteral l.negative (l.unsignedText ++ rest) = some (l, rest) := by
  have hexponent : ∀ c ∈ (Literal.exponentText l.exponent ++ rest).head?,
      isDigit c = false ∧ c ≠ '.' := by
    cases l.exponent with
    | none => exact fun c hc => ⟨(hrest c hc).1, (hrest c hc).2.1⟩
    | some e =>
      intro c hc
      obtain rfl := Option.some.inj hc
      decide
  have hfraction : NoDigit (Literal.fractionText l.fraction ++ (Literal.exponentText l.exponent ++ rest)) := by
    cases l.fraction with
    | none => exact fun c hc => (hexponent c hc).1
    | some ds =>
      intro c hc
      obtain rfl := Option.some.inj hc
      rfl
  have hwhole := readWhole_append hl.whole_ne_nil hl.isDigit_whole hl.no_idle_zero hfraction
  have hpoint := readFraction_append hl.fraction_ne_nil hl.isDigit_fraction hexponent
  rw [Literal.unsignedText, List.append_assoc, List.append_assoc, readLiteral, hwhole]
  simp only [Option.bind_eq_bind, Option.bind_some, hpoint, readExponent_append hrest]
  rfl

/-! ## The literal of a number -/

namespace Literal

/-- The digits `ds` before a point that stands after the first `place` of them. -/
def wholeDigits (ds : List Char) (place : Int) : List Char :=
  if place ≤ 0 then ['0'] else ds.take place.toNat ++ List.replicate (place.toNat - ds.length) '0'

/-- The digits `ds` after a point that stands after the first `place` of them. -/
def fractionDigits (ds : List Char) (place : Int) : List Char :=
  if place ≤ 0 then List.replicate (-place).toNat '0' ++ ds
  else if place.toNat < ds.length then ds.drop place.toNat
  else ['0']

/-- A decimal as a literal with a fraction or an exponent. -/
def ofDecimal (negative : Bool) (d : Decimal) : Literal :=
  let ds := Decimal.digits d.significand
  let top := d.exponent + ds.length - 1
  if d.significand = 0 ∨ (floatLayout.least ≤ top ∧ top < floatLayout.bound) then
    ⟨negative, wholeDigits ds (top + 1), some (fractionDigits ds (top + 1)), none⟩
  else ⟨negative, ds.take 1, if ds.length ≤ 1 then none else some (ds.drop 1), some top⟩

/-- Positional notation is a point between two runs of digits. -/
theorem positional_eq (ds : List Char) (place : Int) :
    Decimal.Layout.positional ds place = wholeDigits ds place ++ '.' :: fractionDigits ds place := by
  rw [Decimal.Layout.positional, wholeDigits, fractionDigits]
  by_cases hplace : place ≤ 0
  · simp only [if_pos hplace, List.cons_append, List.nil_append]
  · simp only [if_neg hplace]
    by_cases hlength : place.toNat < ds.length
    · have hzeros : place.toNat - ds.length = 0 := by omega
      rw [if_pos hlength, if_pos hlength, hzeros, List.replicate_zero, List.append_nil]
    · rw [if_neg hlength, if_neg hlength, List.take_of_length_le (Nat.le_of_not_lt hlength)]

/-- A decimal is laid out as the text of its literal. -/
theorem unsignedText_ofDecimal (negative : Bool) (d : Decimal) :
    (ofDecimal negative d).unsignedText = floatLayout.render d := by
  rw [Decimal.Layout.render, ofDecimal]
  split
  · rw [positional_eq, unsignedText, fractionText, exponentText, List.append_nil]
  · rw [Decimal.Layout.scientific, unsignedText, exponentText, ← List.append_assoc]
    refine congrArg (_ ++ · ++ _) ?_
    split <;> rfl

/-- A decimal keeps its sign as a literal. -/
theorem negative_ofDecimal (negative : Bool) (d : Decimal) : (ofDecimal negative d).negative = negative := by
  rw [ofDecimal]
  split <;> rfl

/-- A literal with a point or an exponent is not plain. -/
theorem isPlain_ofDecimal (negative : Bool) (d : Decimal) : (ofDecimal negative d).isPlain = false := by
  rw [ofDecimal]
  split
  · rfl
  · exact Bool.and_false _

/-- The text of a literal that is not plain shows that it is not. -/
theorem mem_text_of_isPlain {l : Literal} (h : l.isPlain = false) : '.' ∈ l.text ∨ 'e' ∈ l.text := by
  rw [text, unsignedText]
  cases hfraction : l.fraction with
  | some ds => exact Or.inl (by simp [fractionText])
  | none =>
    cases hexponent : l.exponent with
    | some e => exact Or.inr (by simp [exponentText])
    | none =>
      rw [isPlain, hfraction, hexponent] at h
      cases h

/-- Zeros are digits. -/
theorem isDigit_of_mem_replicate {n : Nat} {c : Char} (hc : c ∈ List.replicate n '0') : isDigit c = true := by
  rw [List.eq_of_mem_replicate hc]
  rfl

section Digits

variable {ds : List Char} (hne : ds ≠ []) (hds : ∀ c ∈ ds, isDigit c = true) (place : Int)

include hne in
/-- Before the point stands a zero alone, or the first of the digits. -/
theorem wholeDigits_eq_or_head? :
    wholeDigits ds place = ['0'] ∨
      (wholeDigits ds place ≠ [] ∧ (wholeDigits ds place).head? = ds.head?) := by
  rw [wholeDigits]
  split
  · exact Or.inl rfl
  · obtain ⟨d, ds, rfl⟩ := List.exists_cons_of_ne_nil hne
    obtain ⟨k, hk⟩ : ∃ k, place.toNat = k + 1 := ⟨place.toNat - 1, by omega⟩
    rw [hk, List.take_succ_cons]
    exact Or.inr ⟨List.cons_ne_nil _ _, rfl⟩

include hds in
/-- Before the point there are digits. -/
theorem isDigit_wholeDigits : ∀ c ∈ wholeDigits ds place, isDigit c = true := by
  intro c hc
  rw [wholeDigits] at hc
  split at hc
  · rw [List.mem_singleton.1 hc]
    rfl
  · rcases List.mem_append.1 hc with hc | hc
    · exact hds c (List.mem_of_mem_take hc)
    · exact isDigit_of_mem_replicate hc

include hds in
/-- After the point there are digits. -/
theorem isDigit_fractionDigits : ∀ c ∈ fractionDigits ds place, isDigit c = true := by
  intro c hc
  rw [fractionDigits] at hc
  split at hc
  · rcases List.mem_append.1 hc with hc | hc
    · exact isDigit_of_mem_replicate hc
    · exact hds c hc
  · split at hc
    · exact hds c (List.mem_of_mem_drop hc)
    · rw [List.mem_singleton.1 hc]
      rfl

include hne in
/-- After the point there is a digit. -/
theorem fractionDigits_ne_nil : fractionDigits ds place ≠ [] := by
  rw [fractionDigits]
  split
  · exact List.append_ne_nil_of_right_ne_nil _ hne
  · split
    · rename_i hlength
      exact fun h => absurd (List.drop_eq_nil_iff.1 h) (Nat.not_le_of_lt hlength)
    · exact List.cons_ne_nil _ _

end Digits

/-- The digits of a decimal in normal form make a literal that is well formed. -/
theorem wellFormed_ofDecimal (negative : Bool) {d : Decimal} (hd : d.significand = 0 → d.exponent = 0) :
    (ofDecimal negative d).WellFormed := by
  have hdigits : ∀ c ∈ Decimal.digits d.significand, isDigit c = true := fun c => isDigit_of_mem_digits
  have hne := digits_ne_nil d.significand
  rw [ofDecimal]
  split
  · refine ⟨?_, isDigit_wholeDigits hdigits _, fun es hes => ?_, ?_, ?_⟩
    · rcases wholeDigits_eq_or_head? hne (d.exponent + (Decimal.digits d.significand).length - 1 + 1) with
        hzero | hwhole
      · exact hzero ▸ List.cons_ne_nil _ _
      · exact hwhole.1
    · rcases wholeDigits_eq_or_head? hne (d.exponent + (Decimal.digits d.significand).length - 1 + 1) with
        hzero | hwhole
      · exact (List.cons.inj (hes.symm.trans hzero)).2
      · -- The digits start with a zero only if they are that zero, and then the point stands after it.
        have hsignificand : d.significand = 0 := by
          by_contra h
          exact head?_digits_ne h (hwhole.2.symm.trans (congrArg List.head? hes))
        rw [hsignificand, hd hsignificand] at hes
        exact (List.cons.inj hes).2.symm
    · rintro ds ⟨⟩
      exact fractionDigits_ne_nil hne _
    · rintro ds ⟨⟩
      exact isDigit_fractionDigits hdigits _
  · obtain ⟨c, cs, hcs⟩ := List.exists_cons_of_ne_nil hne
    rw [hcs] at hdigits ⊢
    refine ⟨List.cons_ne_nil _ _, fun c' hc' => hdigits c' (List.mem_of_mem_take hc'),
      fun es hes => (List.cons.inj hes).2.symm, fun ds hfraction => ?_, fun ds hfraction c' hc' => ?_⟩
    · cases cs with
      | nil => cases hfraction
      | cons c' cs =>
        obtain rfl := Option.some.inj hfraction
        exact List.cons_ne_nil _ _
    · cases cs with
      | nil => cases hfraction
      | cons _ cs =>
        obtain rfl := Option.some.inj hfraction
        exact hdigits c' (List.mem_cons_of_mem _ hc')

end Literal

namespace Number

/-- The literal that a number is written as. -/
def literal : Number → Literal
  | .integer n _ => ⟨decide (n < 0), Decimal.digits n.natAbs, none, none⟩
  | .float x _ => .ofDecimal x.negative x.shortest

/-- The number that is read where a number was written, if one is. -/
def reread? (n : Number) : Option Number := n.literal.number?

/-- A number is written as the text of its literal. -/
theorem render_eq (n : Number) : n.render = n.literal.text := by
  cases n with
  | integer n inRange =>
    rw [render, renderInt, literal, Literal.text, Literal.unsignedText]
    simp only [Literal.fractionText, Literal.exponentText, List.append_nil, decide_eq_true_eq]
  | float x finite =>
    rw [render, renderFloat, literal, Literal.text, Literal.unsignedText_ofDecimal]
    rw [Literal.negative_ofDecimal]

/-- The literal of a number is well formed. -/
theorem wellFormed_literal (n : Number) : n.literal.WellFormed := by
  cases n with
  | integer n inRange =>
    refine ⟨digits_ne_nil _, fun c => isDigit_of_mem_digits, fun ds hds => ?_, nofun, nofun⟩
    have hzero : n.natAbs = 0 := by
      by_contra h
      exact head?_digits_ne h (congrArg List.head? hds)
    rw [literal, hzero] at hds
    exact (List.cons.inj hds).2.symm
  | float x finite => exact Literal.wellFormed_ofDecimal _ Binary64.exponent_shortest

/-- An integer is read where it was written. -/
theorem reread?_integer (n : Int) (inRange : -0x8000000000000000 ≤ n ∧ n < 0x10000000000000000) :
    (integer n inRange).reread? = some (integer n inRange) := by
  have hbound : followedBy 0 (Decimal.digits n.natAbs) < Literal.significandBound := by
    rw [← digitsValue, digitsValue_digits, Literal.significandBound]
    omega
  have hpart : (integer n inRange).literal.wholePart = (n.natAbs, 0) := by
    rw [Literal.wholePart, literal, Literal.appendDigits_of_lt hbound, ← digitsValue, digitsValue_digits]
  have hinteger : (integer n inRange).literal.integer? = some (integer n inRange) := by
    rw [Literal.integer?, hpart]
    by_cases hn : n < 0
    · have habs : -(n.natAbs : Int) = n := by omega
      have hzero : ¬ n.natAbs = 0 := by omega
      simp only [literal, Literal.isPlain, Option.isNone_none, Bool.and_self, beq_self_eq_true, if_true,
        decide_eq_true hn, Bool.not_true, Bool.false_eq_true, if_false, hzero, habs]
      exact dif_pos inRange
    · have habs : (n.natAbs : Int) = n := by omega
      simp only [literal, Literal.isPlain, Option.isNone_none, Bool.and_self, beq_self_eq_true, if_true,
        decide_eq_false hn, Bool.not_false, habs]
      exact dif_pos inRange
  rw [reread?, Literal.number?, hinteger]
  rfl

/-- A floating-point number is read as one, if what was written is in the range of these numbers. -/
theorem reread?_float (x : Binary64) (finite : x.isFinite = true) :
    (float x finite).reread? = ofBinary64? (float x finite).literal.toBinary64 := by
  have hinteger : (float x finite).literal.integer? = none := by
    rw [Literal.integer?, literal, Literal.isPlain_ofDecimal]
    rfl
  rw [reread?, Literal.number?, hinteger]
  rfl

end Number

end Json

end BoundSql
