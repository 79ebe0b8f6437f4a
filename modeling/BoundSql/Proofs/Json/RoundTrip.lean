import BoundSql.Proofs.Json.Numerals
import Mathlib.Tactic.SplitIfs

/-!
# JSON is read as it was written

The text of a value that is not nested too deep is read again, and what is read is the value with each number
replaced by the one that its literal stands for, `Json.reread?`.  There is none if a floating-point number is
beyond its range when it is read.  That holds in front of every text that does not go on with a number
(`Json.readValue_render`), and so for a value inside of another one as for a value alone (`Json.ofText?_toText`).
-/

namespace BoundSql

namespace Json

/-! ## Strings -/

/-- A digit below sixteen is read as it was written. -/
theorem hexValue?_hexDigit : ∀ n < 16, hexValue? (hexDigit n) = some n := by decide

/-- A control character is read from the number that it was escaped as. -/
theorem hexQuad?_control {n : Nat} (h : n < 32) :
    hexQuad? '0' '0' (hexDigit (n / 16)) (hexDigit (n % 16)) = some n := by
  have hzero : hexValue? '0' = some 0 := rfl
  have hsum : n / 16 * 16 + n % 16 = n := Nat.div_add_mod' n 16
  simp [hexQuad?, hzero, hexValue?_hexDigit (n / 16) (by omega), hexValue?_hexDigit (n % 16) (by omega), hsum]

/-- A character is read as it was escaped. -/
theorem readChars_escape (c : Char) (rest : List Char) :
    readChars (escape c ++ rest) = consTo c (readChars rest) := by
  unfold escape
  split_ifs with hquote hbackslash hnewline htab hreturn hbackspace hfeed hcontrol
  · rw [hquote]
    rfl
  · rw [hbackslash]
    rfl
  · rw [hnewline]
    rfl
  · rw [htab]
    rfl
  · rw [hreturn]
    rfl
  · rw [hbackspace]
    rfl
  · rw [hfeed]
    rfl
  · have hhigh : ¬ (0xD800 ≤ c.toNat ∧ c.toNat < 0xDC00) := by omega
    have hlow : ¬ (0xDC00 ≤ c.toNat ∧ c.toNat < 0xE000) := by omega
    simp only [List.cons_append, List.nil_append, readChars, hexQuad?_control hcontrol, if_neg hhigh,
      if_neg hlow, Char.ofNat_toNat]
  · rw [List.cons_append, List.nil_append, readChars, if_neg hcontrol]
    · exact hquote
    · exact fun _ _ _ _ _ h => absurd h hbackslash
    · exact fun _ _ h => absurd h hbackslash

/-- A string is read as it was written between its quotes. -/
theorem readString_escape (s : String) (rest : List Char) :
    readString (s.toList.flatMap escape ++ '"' :: rest) = some (s, rest) := by
  have hchars : ∀ cs : List Char, readChars (cs.flatMap escape ++ '"' :: rest) = some (cs, rest) := by
    intro cs
    induction cs with
    | nil => rfl
    | cons c cs ih => rw [List.flatMap_cons, List.append_assoc, readChars_escape, ih, consTo]
  rw [readString, hchars, Option.map_some]
  exact congrArg (fun t => some (t, rest)) String.ofList_toList

/-! ## Scalars -/

/-- A text that starts with a digit is read as a number. -/
theorem readScalar_cons {c : Char} (hc : isDigit c = true) (cs : List Char) :
    readScalar (c :: cs) = readUnsigned false (c :: cs) := by
  have hne : ∀ d, isDigit d = false → c ≠ d := by
    rintro d hd rfl
    rw [hc] at hd
    cases hd
  rw [readScalar]
  · exact fun rest h => hne 'n' rfl (List.cons.inj h).1
  · exact fun rest h => hne 't' rfl (List.cons.inj h).1
  · exact fun rest h => hne 'f' rfl (List.cons.inj h).1
  · exact fun rest h => hne '"' rfl (List.cons.inj h).1
  · exact fun rest h => hne '-' rfl (List.cons.inj h).1

/-- A number is read as its literal says. -/
theorem readScalar_number (n : Number) {rest : List Char} (hrest : Stops rest) :
    readScalar (n.render ++ rest) = n.reread?.map fun m => (.number m, rest) := by
  have hunsigned : readUnsigned n.literal.negative (n.literal.unsignedText ++ rest) =
      n.reread?.map fun m => (.number m, rest) := by
    rw [readUnsigned, readLiteral_text n.wellFormed_literal hrest, Number.reread?]
    cases hnumber : n.literal.number? with
    | none => simp [hnumber]
    | some m => simp [hnumber]
  rw [n.render_eq, Literal.text]
  cases hsign : n.literal.negative with
  | true =>
    rw [hsign] at hunsigned
    exact hunsigned
  | false =>
    rw [hsign] at hunsigned
    obtain ⟨c, cs, hwhole⟩ := List.exists_cons_of_ne_nil n.wellFormed_literal.whole_ne_nil
    have hc := n.wellFormed_literal.isDigit_whole c (hwhole ▸ List.mem_cons_self)
    rw [Literal.unsignedText, hwhole] at hunsigned ⊢
    exact (readScalar_cons hc _).trans hunsigned

/-- Whether a character is the first one of a scalar. -/
def BeginsScalar (c : Char) : Prop := isDigit c = true ∨ c ∈ ['n', 't', 'f', '"', '-']

instance : DecidablePred BeginsScalar := fun c =>
  inferInstanceAs (Decidable (isDigit c = true ∨ c ∈ ['n', 't', 'f', '"', '-']))

/-- The first character of a scalar is none that is the first one of no scalar. -/
theorem BeginsScalar.ne {c d : Char} (hc : BeginsScalar c) (hd : ¬ BeginsScalar d) : c ≠ d := by
  rintro rfl
  exact hd hc

/-- The first character of a scalar is not blank. -/
theorem BeginsScalar.isBlank {c : Char} (hc : BeginsScalar c) : isBlank c = false := by
  have hspace : c ≠ ' ' := hc.ne (by decide)
  have hnewline : c ≠ '\n' := hc.ne (by decide)
  have htab : c ≠ '\t' := hc.ne (by decide)
  have hreturn : c ≠ '\r' := hc.ne (by decide)
  simp [Json.isBlank, hspace, hnewline, htab, hreturn]

/-- Blanks are skipped up to a character that is not blank. -/
theorem skipBlanks_cons {c : Char} (hc : isBlank c = false) (cs : List Char) :
    skipBlanks (c :: cs) = c :: cs := by
  rw [skipBlanks, List.dropWhile_cons_of_neg]
  rw [hc]
  exact Bool.false_ne_true

/-- A number starts like a scalar. -/
theorem Number.exists_cons_render (n : Number) : ∃ c cs, n.render = c :: cs ∧ BeginsScalar c := by
  rw [n.render_eq, Literal.text]
  cases n.literal.negative with
  | true => exact ⟨'-', _, rfl, by decide⟩
  | false =>
    obtain ⟨c, cs, hwhole⟩ := List.exists_cons_of_ne_nil n.wellFormed_literal.whole_ne_nil
    rw [Literal.unsignedText, hwhole]
    exact ⟨c, _, rfl, Or.inl (n.wellFormed_literal.isDigit_whole c (hwhole ▸ List.mem_cons_self))⟩

/-- What starts like a scalar is read as one. -/
theorem readValue_cons {c : Char} (hc : BeginsScalar c) (room : Nat) (cs : List Char) :
    readValue room (c :: cs) = readScalar (c :: cs) := by
  cases room with
  | zero => rw [readValue, skipBlanks_cons hc.isBlank]
  | succ room =>
    rw [readValue, skipBlanks_cons hc.isBlank]
    split
    · rename_i h
      exact absurd (List.cons.inj h).1 (hc.ne (by decide))
    · rename_i h
      exact absurd (List.cons.inj h).1 (hc.ne (by decide))
    · rfl

/-! ## Lists of values -/

/-- How many values are left of a list, and its end, given how to write one value. -/
def writeTail {α : Type} (write : α → List Char → List Char) (close : Char) :
    List α → (rest : List Char) → List Char
  | [], rest => close :: rest
  | x :: xs, rest => ',' :: write x (writeTail write close xs rest)

/-- The items of an array after the first one are written one after the other. -/
theorem renderItems_eq (xs : List Json) (rest : List Char) :
    renderItems xs rest = writeTail render ']' xs rest := by
  induction xs with
  | nil => rfl
  | cons x xs ih => rw [renderItems, ih, writeTail]

/-- A member of an object, followed by `rest`. -/
def renderMember (m : String × Json) (rest : List Char) : List Char :=
  quote m.1 (':' :: m.2.render rest)

/-- The members of an object after the first one are written one after the other. -/
theorem renderMembers_eq (ms : List (String × Json)) (rest : List Char) :
    renderMembers ms rest = writeTail renderMember '\x7d' ms rest := by
  induction ms with
  | nil => rfl
  | cons m ms ih => rw [renderMembers, ih, writeTail, renderMember]

section Lists

variable {α β : Type} {write : α → List Char → List Char} {item : Reader β} {reread : α → Option β}
  {close : Char}

/-- What follows an item does not go on with a number. -/
theorem stops_writeTail (hclose : close = ']' ∨ close = '\x7d') (xs : List α) (rest : List Char) :
    Stops (writeTail write close xs rest) := by
  cases xs with
  | nil => rcases hclose with rfl | rfl <;> exact stops_cons _ (by decide)
  | cons x xs => exact stops_cons _ (by decide)

/-- If items are read as they were written, each up to what stops a number, then a list of them is. -/
theorem readItems_writeTail (hclose : close = ']' ∨ close = '\x7d') {x : α} {xs : List α}
    (hitem : ∀ y ∈ x :: xs, ∀ rest, Stops rest →
      item (write y rest) = (reread y).map fun z => (z, rest))
    {bound : Nat} (hbound : xs.length < bound) (rest : List Char) :
    readItems item close bound (write x (writeTail write close xs rest)) =
      ((x :: xs).mapM reread).map fun zs => (zs, rest) := by
  obtain ⟨b, rfl⟩ : ∃ b, bound = b + 1 := ⟨bound - 1, by omega⟩
  induction xs generalizing x b with
  | nil =>
    have hx := hitem x List.mem_cons_self (writeTail write close [] rest) (stops_writeTail hclose _ _)
    have hblank : isBlank close = false := by rcases hclose with rfl | rfl <;> rfl
    rw [readItems, hx, List.mapM_cons]
    cases reread x with
    | none => rfl
    | some z =>
      simp only [Option.map_some, writeTail, skipBlanks_cons hblank, if_true]
      rfl
  | cons y xs ih =>
    have hx := hitem x List.mem_cons_self (writeTail write close (y :: xs) rest) (stops_writeTail hclose _ _)
    have hcomma : ',' ≠ close := by rcases hclose with rfl | rfl <;> decide
    rw [List.length_cons] at hbound
    obtain ⟨b, rfl⟩ : ∃ c, b = c + 1 := ⟨b - 1, by omega⟩
    have hrest := ih (fun z hz => hitem z (List.mem_cons_of_mem x hz)) b (by omega)
    rw [readItems, hx, List.mapM_cons]
    cases reread x with
    | none => rfl
    | some z =>
      have hblank : isBlank ',' = false := rfl
      simp only [Option.map_some, writeTail, skipBlanks_cons hblank, if_neg hcomma, if_true, hrest]
      cases (y :: xs).mapM reread <;> rfl

/-- A list of items that is not empty is read behind its opening character. -/
theorem readList_writeTail (hclose : close = ']' ∨ close = '\x7d') {x : α} {xs : List α}
    (hitem : ∀ y ∈ x :: xs, ∀ rest, Stops rest →
      item (write y rest) = (reread y).map fun z => (z, rest)) {rest : List Char}
    (hlength : xs.length < (write x (writeTail write close xs rest)).length) {c : Char} {cs : List Char}
    (hfirst : write x (writeTail write close xs rest) = c :: cs) (hblank : isBlank c = false)
    (hc : c ≠ close) :
    readList item close (write x (writeTail write close xs rest)) =
      ((x :: xs).mapM reread).map fun zs => (zs, rest) := by
  have hitems := readItems_writeTail hclose hitem hlength rest
  rw [hfirst] at hitems ⊢
  rw [readList, skipBlanks_cons hblank]
  exact (if_neg hc).trans hitems

end Lists

/-! ## Depth -/

mutual

/-- How many arrays and objects are open at once in the text of a value. -/
def depth : Json → Nat
  | .array items => depthItems items + 1
  | .object members => depthMembers members + 1
  | _ => 0

/-- The greatest depth of some values. -/
def depthItems : List Json → Nat
  | [] => 0
  | x :: xs => max (depth x) (depthItems xs)

/-- The greatest depth of the values of some members. -/
def depthMembers : List (String × Json) → Nat
  | [] => 0
  | (_, v) :: ms => max (depth v) (depthMembers ms)

end

mutual

/-- The value that is read where a value was written, if one is: the numbers of it are read each for itself. -/
def reread? : Json → Option Json
  | .number n => n.reread?.map .number
  | .array items => (rereadItems? items).map .array
  | .object members => (rereadMembers? members).map ofMembers
  | j => some j

/-- The values that are read where some values were written, if all are. -/
def rereadItems? : List Json → Option (List Json)
  | [] => some []
  | x :: xs => do
    let y ← reread? x
    let ys ← rereadItems? xs
    return y :: ys

/-- The members that are read where some members were written, if all are. -/
def rereadMembers? : List (String × Json) → Option (List (String × Json))
  | [] => some []
  | (k, v) :: ms => do
    let w ← reread? v
    let ms' ← rereadMembers? ms
    return (k, w) :: ms'

end

/-- The items of an array are read each for itself. -/
theorem rereadItems?_eq (xs : List Json) : rereadItems? xs = xs.mapM reread? := by
  induction xs with
  | nil => rfl
  | cons x xs ih => rw [rereadItems?, ih, List.mapM_cons]

/-- The members of an object are read each for itself, under their names. -/
theorem rereadMembers?_eq (ms : List (String × Json)) :
    rereadMembers? ms = ms.mapM fun m => (reread? m.2).map fun v => (m.1, v) := by
  induction ms with
  | nil => rfl
  | cons m ms ih =>
    rw [rereadMembers?, ih, List.mapM_cons]
    cases reread? m.2 <;> rfl

/-- No item is deeper than all of them. -/
theorem depth_le_depthItems {x : Json} {xs : List Json} (hx : x ∈ xs) : x.depth ≤ depthItems xs := by
  induction xs with
  | nil => cases hx
  | cons y xs ih =>
    rw [depthItems]
    rcases List.mem_cons.1 hx with rfl | hx
    · exact Nat.le_max_left _ _
    · exact Nat.le_trans (ih hx) (Nat.le_max_right _ _)

/-- Items are no deeper than a bound for each of them. -/
theorem depthItems_le {xs : List Json} {bound : Nat} (h : ∀ x ∈ xs, x.depth ≤ bound) :
    depthItems xs ≤ bound := by
  induction xs with
  | nil => exact Nat.zero_le _
  | cons x xs ih =>
    exact Nat.max_le.2 ⟨h x List.mem_cons_self, ih fun y hy => h y (List.mem_cons_of_mem x hy)⟩

/-- The value of no member is deeper than all of them. -/
theorem depth_le_depthMembers {m : String × Json} {ms : List (String × Json)} (hm : m ∈ ms) :
    m.2.depth ≤ depthMembers ms := by
  induction ms with
  | nil => cases hm
  | cons m' ms ih =>
    rw [depthMembers]
    rcases List.mem_cons.1 hm with rfl | hm
    · exact Nat.le_max_left _ _
    · exact Nat.le_trans (ih hm) (Nat.le_max_right _ _)

mutual

/-- A value is written in front of what follows it. -/
theorem length_le_render : ∀ (j : Json) (rest : List Char), rest.length ≤ (j.render rest).length
  | .null, rest => Nat.le_add_right _ 4
  | .bool true, rest => Nat.le_add_right _ 4
  | .bool false, rest => Nat.le_add_right _ 5
  | .number n, rest => by
    rw [render, List.length_append]
    exact Nat.le_add_left _ _
  | .string s, rest => by
    simp only [render, quote, List.length_cons, List.length_append]
    omega
  | .array [], rest => Nat.le_add_right _ 2
  | .array (x :: xs), rest => by
    have hitems := length_lt_renderItems xs rest
    have hx := length_le_render x (renderItems xs rest)
    simp only [render, List.length_cons]
    omega
  | .object [], rest => Nat.le_add_right _ 2
  | .object ((k, v) :: ms), rest => by
    have hmembers := length_lt_renderMembers ms rest
    have hv := length_le_render v (renderMembers ms rest)
    simp only [render, quote, List.length_cons, List.length_append]
    omega

/-- Each item takes a character at least, and so does the end. -/
theorem length_lt_renderItems : ∀ (xs : List Json) (rest : List Char),
    xs.length + rest.length < (renderItems xs rest).length
  | [], rest => by
    rw [renderItems, List.length_cons, List.length_nil]
    omega
  | x :: xs, rest => by
    have hitems := length_lt_renderItems xs rest
    have hx := length_le_render x (renderItems xs rest)
    simp only [renderItems, List.length_cons]
    omega

/-- Each member takes a character at least, and so does the end. -/
theorem length_lt_renderMembers : ∀ (ms : List (String × Json)) (rest : List Char),
    ms.length + rest.length < (renderMembers ms rest).length
  | [], rest => by
    rw [renderMembers, List.length_cons, List.length_nil]
    omega
  | (k, v) :: ms, rest => by
    have hmembers := length_lt_renderMembers ms rest
    have hv := length_le_render v (renderMembers ms rest)
    simp only [renderMembers, quote, List.length_cons, List.length_append]
    omega

end

/-! ## Values -/

/-- A value starts neither with a blank nor like the end of an array. -/
theorem exists_cons_render (j : Json) (rest : List Char) :
    ∃ c cs, j.render rest = c :: cs ∧ isBlank c = false ∧ c ≠ ']' := by
  cases j with
  | null => exact ⟨'n', _, rfl, rfl, by decide⟩
  | bool b =>
    cases b with
    | true => exact ⟨'t', _, rfl, rfl, by decide⟩
    | false => exact ⟨'f', _, rfl, rfl, by decide⟩
  | number n =>
    obtain ⟨c, cs, hn, hc⟩ := n.exists_cons_render
    exact ⟨c, cs ++ rest, by rw [render, hn, List.cons_append], hc.isBlank, hc.ne (by decide)⟩
  | string s => exact ⟨'"', _, rfl, rfl, by decide⟩
  | array items => cases items <;> exact ⟨'[', _, rfl, rfl, by decide⟩
  | object members => cases members <;> exact ⟨'\x7b', _, rfl, rfl, by decide⟩

/-- A scalar is read as it was written, apart from its number. -/
theorem readValue_render_of_depth {j : Json} (hj : j.depth = 0) (room : Nat) {rest : List Char}
    (hrest : Stops rest) : readValue room (j.render rest) = j.reread?.map fun k => (k, rest) := by
  cases j with
  | null => exact readValue_cons (by decide) room _
  | bool b =>
    cases b with
    | true => exact readValue_cons (by decide) room _
    | false => exact readValue_cons (by decide) room _
  | number n =>
    obtain ⟨c, cs, hn, hc⟩ := n.exists_cons_render
    have hnumber := readScalar_number n hrest
    rw [render, reread?, Option.map_map]
    rw [hn, List.cons_append] at hnumber ⊢
    exact (readValue_cons hc room _).trans hnumber
  | string s =>
    refine (readValue_cons (by decide) room _).trans ?_
    rw [readScalar, readString_escape]
    rfl
  | array items => cases hj
  | object members => cases hj

/-- A member of an object is read as it was written, if its value is. -/
theorem readMember_renderMember {value : Reader Json} {m : String × Json} {rest : List Char}
    (hvalue : value (m.2.render rest) = m.2.reread?.map fun v => (v, rest)) :
    readMember value (renderMember m rest) = ((reread? m.2).map fun v => (m.1, v)).map fun m' => (m', rest) := by
  have hquote : isBlank '"' = false := rfl
  have hcolon : isBlank ':' = false := rfl
  rw [renderMember, quote, readMember, skipBlanks_cons hquote]
  simp only [readString_escape, skipBlanks_cons hcolon, hvalue, Option.map_map]
  rfl

/-- The text of a value that is not too deep is read as the numbers of the value are, and what stops a number
is left. -/
theorem readValue_render {room : Nat} {j : Json} (hroom : j.depth ≤ room) {rest : List Char}
    (hrest : Stops rest) : readValue room (j.render rest) = j.reread?.map fun k => (k, rest) := by
  induction room generalizing j rest with
  | zero => exact readValue_render_of_depth (Nat.le_zero.1 hroom) 0 hrest
  | succ room ih =>
    cases j with
    | array items =>
      have hopen : isBlank '[' = false := rfl
      cases items with
      | nil =>
        rw [render, readValue, skipBlanks_cons hopen]
        rfl
      | cons x xs =>
        have hitem : ∀ y ∈ x :: xs, ∀ rest, Stops rest →
            readValue room (y.render rest) = y.reread?.map fun k => (k, rest) := fun y hy rest hrest =>
          ih (Nat.le_trans (depth_le_depthItems hy) (Nat.le_of_succ_le_succ hroom)) hrest
        have hlength : xs.length < (x.render (renderItems xs rest)).length := by
          have hitems := length_lt_renderItems xs rest
          have hx := length_le_render x (renderItems xs rest)
          omega
        obtain ⟨c, cs, hfirst, hblank, hc⟩ := exists_cons_render x (renderItems xs rest)
        rw [render, readValue, skipBlanks_cons hopen]
        rw [renderItems_eq] at hlength hfirst ⊢
        simp only [readList_writeTail (Or.inl rfl) hitem hlength hfirst hblank hc, reread?, rereadItems?_eq,
          Option.map_map]
        rfl
    | object members =>
      have hopen : isBlank '\x7b' = false := rfl
      cases members with
      | nil =>
        rw [render, readValue, skipBlanks_cons hopen]
        rfl
      | cons m ms =>
        have hitem : ∀ m' ∈ m :: ms, ∀ rest, Stops rest →
            readMember (readValue room) (renderMember m' rest) =
              ((reread? m'.2).map fun v => (m'.1, v)).map fun k => (k, rest) := fun m' hm rest hrest =>
          readMember_renderMember
            (ih (Nat.le_trans (depth_le_depthMembers hm) (Nat.le_of_succ_le_succ hroom)) hrest)
        have hlength : ms.length < (renderMember m (renderMembers ms rest)).length := by
          have hmembers := length_lt_renderMembers ms rest
          have hv := length_le_render m.2 (renderMembers ms rest)
          simp only [renderMember, quote, List.length_cons, List.length_append]
          omega
        have hquote : isBlank '"' = false := rfl
        rw [render, readValue, skipBlanks_cons hopen, ← renderMember]
        rw [renderMembers_eq] at hlength ⊢
        simp only [readList_writeTail (Or.inr rfl) hitem hlength rfl hquote (by decide), reread?,
          rereadMembers?_eq, Option.map_map]
        rfl
    | _ => exact readValue_render_of_depth rfl _ hrest

/-- The text of a value is read as the numbers of the value are. -/
theorem read?_toText {j : Json} (hdepth : j.depth ≤ nestingLimit) :
    read? j.toText.toList = j.reread?.map fun k => (k, []) := by
  rw [toText, String.toList_ofList]
  exact readValue_render hdepth nofun

/-- A text that a value was written as is the text of what is read. -/
theorem ofText?_toText {j : Json} (hdepth : j.depth ≤ nestingLimit) : ofText? j.toText = j.reread? := by
  rw [ofText?, read?_toText hdepth]
  cases j.reread? <;> rfl

end Json

end BoundSql
