import BoundSql.Wire
import Mathlib.Data.List.Lex
import Mathlib.Data.String.Basic

/-!
# The bytes of texts

A text is sent as the bytes of its characters one after the other (`Wire.utf8_eq_flatMap`).  The number of a
character is written in base 64: all digits but the highest one have a byte of their own
(`Wire.continuation`), and the first byte holds the highest digit and shows how many follow.

So the bytes of characters are ordered as the characters are, whatever follows them
(`Wire.utf8EncodeChar_append_lt`), and the bytes of texts, as lists, are ordered as the texts are
(`Wire.utf8_lt_utf8_iff`).
-/

namespace BoundSql

namespace Wire

/-! ## Characters -/

/-- The lowest `count` digits of a number in base 64, the highest of them first, a byte for each. -/
def continuation : (count n : Nat) → List UInt8
  | 0, _ => []
  | count + 1, n => UInt8.ofNat (n / 64 ^ count % 64 + 0x80) :: continuation count n

/-- The number of bytes after the first one of a character with the number `n`. -/
def following (n : Nat) : Nat :=
  if n ≤ 0x7f then 0 else if n ≤ 0x7ff then 1 else if n ≤ 0xffff then 2 else 3

/-- The first byte of a character with the number `n`. -/
def leading (n : Nat) : Nat :=
  if n ≤ 0x7f then n
  else if n ≤ 0x7ff then n / 64 + 0xc0
  else if n ≤ 0xffff then n / 64 ^ 2 + 0xe0
  else n / 64 ^ 3 + 0xf0

/-- The numbers of characters have at most 21 bits. -/
theorem toNat_val_lt (c : Char) : c.val.toNat < 0x110000 := by
  rcases c.valid with h | ⟨-, h⟩
  · exact Nat.lt_trans h (by decide)
  · exact h

/-- A character has its first byte and those that follow. -/
theorem utf8EncodeChar_eq (c : Char) :
    String.utf8EncodeChar c =
      UInt8.ofNat (leading c.val.toNat) :: continuation (following c.val.toNat) c.val.toNat := by
  have hval := toNat_val_lt c
  unfold String.utf8EncodeChar leading following
  generalize c.val.toNat = n at hval ⊢
  dsimp only
  split_ifs with h1 h2 h3
  · rfl
  · have hdigit : n / 64 % 32 = n / 64 := by omega
    rw [hdigit]
    simp [continuation]
  · have hdigit : n / 4096 % 16 = n / 4096 := by omega
    rw [hdigit]
    simp [continuation]
  · have hdigit : n / 262144 % 8 = n / 262144 := by omega
    rw [hdigit]
    simp [continuation]

/-- The first bytes of characters are ordered as the characters are.  Where they are equal, as many bytes
follow, and the characters differ in these alone. -/
theorem leading_lt_or {m n : Nat} (h : m < n) (hn : n < 0x110000) :
    leading m < leading n ∧ leading n < 256 ∨
      leading m = leading n ∧ following m = following n ∧
        m / 64 ^ following m = n / 64 ^ following n := by
  unfold leading following
  split_ifs <;> omega

/-- The digits of a smaller number come first, whatever follows, if the numbers differ in these digits
alone. -/
theorem continuation_append_lt {count m n : Nat} (h : m < n)
    (hhigh : m / 64 ^ count = n / 64 ^ count) (s t : List UInt8) :
    continuation count m ++ s < continuation count n ++ t := by
  induction count with
  | zero =>
    rw [pow_zero, Nat.div_one, Nat.div_one] at hhigh
    exact absurd hhigh (Nat.ne_of_lt h)
  | succ count ih =>
    have hle : m / 64 ^ count ≤ n / 64 ^ count := Nat.div_le_div_right (Nat.le_of_lt h)
    rw [pow_succ, ← Nat.div_div_eq_div_mul, ← Nat.div_div_eq_div_mul] at hhigh
    rw [continuation, continuation, List.cons_append, List.cons_append, List.cons_lt_cons_iff]
    rcases Nat.lt_or_eq_of_le hle with hlt | heq
    · refine Or.inl ?_
      rw [UInt8.lt_iff_toNat_lt, UInt8.toNat_ofNat', UInt8.toNat_ofNat']
      omega
    · rw [heq]
      exact Or.inr ⟨rfl, ih heq⟩

/-- The bytes of a smaller character come first, whatever follows. -/
theorem utf8EncodeChar_append_lt {c d : Char} (h : c < d) (s t : List UInt8) :
    String.utf8EncodeChar c ++ s < String.utf8EncodeChar d ++ t := by
  have hval : c.val.toNat < d.val.toNat := h
  rw [utf8EncodeChar_eq, utf8EncodeChar_eq, List.cons_append, List.cons_append,
    List.cons_lt_cons_iff]
  rcases leading_lt_or hval (toNat_val_lt d) with ⟨hlt, hbound⟩ | ⟨hleading, hfollowing, hhigh⟩
  · refine Or.inl ?_
    rw [UInt8.lt_iff_toNat_lt, UInt8.toNat_ofNat', UInt8.toNat_ofNat']
    omega
  · rw [hfollowing] at hhigh ⊢
    exact Or.inr ⟨congrArg UInt8.ofNat hleading, continuation_append_lt hval hhigh s t⟩

/-! ## Texts -/

/-- The bytes of a text are those of its characters, one after the other. -/
theorem utf8_eq_flatMap (s : String) : utf8 s = s.toList.flatMap String.utf8EncodeChar := by
  have hbytes : s.toByteArray = s.toList.utf8Encode := by
    rw [← String.toByteArray_ofList, String.ofList_toList]
  rw [utf8, String.toUTF8_eq_toByteArray, hbytes, List.utf8Encode, List.toList_data_toByteArray]

/-- The bytes of a smaller list of characters come first. -/
theorem flatMap_utf8EncodeChar_lt {cs ds : List Char} (h : cs < ds) :
    cs.flatMap String.utf8EncodeChar < ds.flatMap String.utf8EncodeChar := by
  induction h with
  | @nil d ds =>
    rw [List.flatMap_nil, List.flatMap_cons, utf8EncodeChar_eq]
    exact .nil
  | @rel c cs d ds hlt =>
    rw [List.flatMap_cons, List.flatMap_cons]
    exact utf8EncodeChar_append_lt hlt _ _
  | @cons c cs ds _ ih =>
    rw [List.flatMap_cons, List.flatMap_cons]
    exact List.append_left_lt ih

/-- Texts are ordered as their bytes are. -/
theorem utf8_lt_utf8_iff {s t : String} : utf8 s < utf8 t ↔ s < t := by
  rw [utf8_eq_flatMap, utf8_eq_flatMap, String.lt_iff_toList_lt]
  constructor
  · intro h
    rcases lt_trichotomy s.toList t.toList with hlt | heq | hgt
    · exact hlt
    · rw [heq] at h
      exact absurd h (List.lt_irrefl _)
    · exact absurd h (List.lt_asymm (flatMap_utf8EncodeChar_lt hgt))
  · exact flatMap_utf8EncodeChar_lt

end Wire

end BoundSql
