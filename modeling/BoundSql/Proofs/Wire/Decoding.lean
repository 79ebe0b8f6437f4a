import BoundSql.Wire
import Mathlib.Algebra.Ring.Nat
import Mathlib.Tactic.SplitIfs

/-!
# Arguments read back

The data of some arguments is the bytes of all values one after the other, without anything between them.
What belongs to which value is only known from the types and the null bits: these say how the next bytes are
to be read, and how far (`Wire.readValue`).  Reading from left to right gives back the values that were bound
and uses up the data (`BoundArguments.values?`), so the arguments determine the values
(`Statement.arguments_determine_values`).

It does not matter in which of the two ways a statement is made a query.  They bind the same parameters
(`RowQuery.query_bindValue`), and so they have the same arguments.
-/

namespace BoundSql

namespace Wire

/-! ## Numbers and lengths -/

/-- The number that some bytes make, the lowest first. -/
def ofLittleEndian : List UInt8 → Nat
  | [] => 0
  | b :: bs => b.toNat + 256 * ofLittleEndian bs

/-- A number has as many bytes as were asked for. -/
@[simp] theorem length_littleEndian (count n : Nat) : (littleEndian count n).length = count := by
  induction count generalizing n with
  | zero => rfl
  | succ count ih => rw [littleEndian, List.length_cons, ih]

/-- The bytes of a number make the number, if there are enough of them. -/
theorem ofLittleEndian_littleEndian {count n : Nat} (h : n < 256 ^ count) :
    ofLittleEndian (littleEndian count n) = n := by
  induction count generalizing n with
  | zero => exact (Nat.lt_one_iff.1 h).symm
  | succ count ih =>
    have hdiv : n / 256 < 256 ^ count := by
      rw [pow_succ, mul_comm] at h
      exact Nat.div_lt_of_lt_mul h
    rw [littleEndian, ofLittleEndian, ih hdiv, UInt8.toNat_ofNat']
    exact Nat.mod_add_div n 256

/-- Each byte of a number is the lowest one of what is left after those before. -/
theorem getElem?_littleEndian {count i : Nat} (h : i < count) (n : Nat) :
    (littleEndian count n)[i]? = some (UInt8.ofNat (n / 256 ^ i)) := by
  induction count generalizing i n with
  | zero => cases h
  | succ count ih =>
    cases i with
    | zero => rw [littleEndian, List.getElem?_cons_zero, pow_zero, Nat.div_one]
    | succ i =>
      rw [littleEndian, List.getElem?_cons_succ, ih (Nat.lt_of_succ_lt_succ h),
        Nat.div_div_eq_div_mul, pow_succ']

/-- Reads some bytes. -/
def readBytes (count : Nat) (data : List UInt8) : Option (List UInt8 × List UInt8) :=
  if count ≤ data.length then some (data.take count, data.drop count) else none

/-- Reads a number of some bytes. -/
def readNumber (count : Nat) (data : List UInt8) : Option (Nat × List UInt8) :=
  (readBytes count data).map fun (bs, rest) => (ofLittleEndian bs, rest)

/-- Reads a length, which is a byte below 251 or has its number of bytes in front. -/
def readLength : List UInt8 → Option (Nat × List UInt8)
  | [] => none
  | b :: rest =>
    if b < 251 then some (b.toNat, rest)
    else if b = 0xfc then readNumber 2 rest
    else if b = 0xfd then readNumber 3 rest
    else if b = 0xfe then readNumber 8 rest
    else none

/-- Reads bytes that have their length in front. -/
def readCounted (data : List UInt8) : Option (List UInt8 × List UInt8) := do
  let (n, rest) ← readLength data
  readBytes n rest

/-- Bytes are read up to their end. -/
theorem readBytes_append (bs rest : List UInt8) : readBytes bs.length (bs ++ rest) = some (bs, rest) := by
  have hle : bs.length ≤ (bs ++ rest).length := by simp
  rw [readBytes, if_pos hle, List.take_left, List.drop_left]

/-- A number is read back from its bytes. -/
theorem readNumber_littleEndian {count n : Nat} (h : n < 256 ^ count) (rest : List UInt8) :
    readNumber count (littleEndian count n ++ rest) = some (n, rest) := by
  have hread := readBytes_append (littleEndian count n) rest
  rw [length_littleEndian] at hread
  rw [readNumber, hread, Option.map_some]
  dsimp only
  rw [ofLittleEndian_littleEndian h]

/-- A word is read back from its eight bytes. -/
theorem readNumber_word (n : UInt64) (rest : List UInt8) :
    readNumber 8 (littleEndian 8 n.toNat ++ rest) = some (n.toNat, rest) :=
  readNumber_littleEndian n.toNat_lt rest

/-- A length is read back from its bytes. -/
theorem readLength_lengthBytes {n : Nat} (h : n < 256 ^ 8) (rest : List UInt8) :
    readLength (lengthBytes n ++ rest) = some (n, rest) := by
  unfold lengthBytes
  split_ifs with h1 h2 h3
  · have hbyte : (UInt8.ofNat n).toNat = n := by
      rw [UInt8.toNat_ofNat']
      omega
    have hsmall : UInt8.ofNat n < 251 := by
      rw [UInt8.lt_iff_toNat_lt, hbyte]
      exact h1
    rw [List.singleton_append, readLength, if_pos hsmall, hbyte]
  · have hread : readNumber 2 (littleEndian 2 n ++ rest) = some (n, rest) :=
      readNumber_littleEndian h2 rest
    exact hread
  · have hread : readNumber 3 (littleEndian 3 n ++ rest) = some (n, rest) :=
      readNumber_littleEndian h3 rest
    exact hread
  · have hread : readNumber 8 (littleEndian 8 n ++ rest) = some (n, rest) :=
      readNumber_littleEndian h rest
    exact hread

/-- Bytes are read back after their length. -/
theorem readCounted_counted {bs : List UInt8} (h : bs.length < 256 ^ 8) (rest : List UInt8) :
    readCounted (counted bs ++ rest) = some (bs, rest) := by
  rw [readCounted, counted, List.append_assoc, readLength_lengthBytes h]
  exact readBytes_append bs rest

/-! ## Null bits -/

/-- The bit at a place, where the lowest bit of the first byte comes first. -/
def bitAt (bytes : List UInt8) (i : Nat) : Bool := (bytes.getD (i / 8) 0).toNat.testBit (i % 8)

/-- The bits that make a number are its bits. -/
theorem testBit_ofBits (bits : List Bool) (i : Nat) : (ofBits bits).testBit i = bits.getD i false := by
  induction bits generalizing i with
  | nil => simp [ofBits]
  | cons b bits ih =>
    have hlow : ((if b then 1 else 0) + 2 * ofBits bits) % 2 = if b then 1 else 0 := by
      split <;> omega
    have hhigh : ((if b then 1 else 0) + 2 * ofBits bits) / 2 = ofBits bits := by
      split <;> omega
    cases i with
    | zero =>
      rw [ofBits, Nat.testBit_zero, hlow]
      cases b <;> rfl
    | succ i => rw [ofBits, Nat.testBit_add_one, hhigh, ih, List.getD_cons_succ]

/-- A bit is found in the bytes at the place that it was packed to. -/
theorem bitAt_packBits {bits : List Bool} {i : Nat} (h : i < bits.length) :
    bitAt (packBits bits) i = bits[i] := by
  have hbyte : i / 8 < (bits.length + 7) / 8 := by omega
  have hplace : i % 8 + i / 8 * 8 = i := by omega
  have hlow : i % 8 < 8 := Nat.mod_lt i (by decide)
  have hpow : (256 : Nat) ^ (i / 8) = 2 ^ (i / 8 * 8) := by
    rw [mul_comm, pow_mul]
    rfl
  calc bitAt (packBits bits) i
      = (ofBits bits / 256 ^ (i / 8) % 2 ^ 8).testBit (i % 8) := by
        rw [bitAt, packBits, List.getD_eq_getElem?_getD, getElem?_littleEndian hbyte, Option.getD_some,
          UInt8.toNat_ofNat']
    _ = (ofBits bits / 2 ^ (i / 8 * 8)).testBit (i % 8) := by
        rw [Nat.testBit_mod_two_pow, decide_eq_true hlow, Bool.true_and, hpow]
    _ = (ofBits bits).testBit i := by rw [Nat.testBit_div_two_pow, hplace]
    _ = bits[i] := by
        rw [testBit_ofBits, List.getD_eq_getElem?_getD, List.getElem?_eq_getElem h, Option.getD_some]

/-! ## Values -/

/-- The text that some bytes are. -/
def text? (bs : List UInt8) : Option String := String.fromUTF8? ⟨bs.toArray⟩

/-- A text is the text of its bytes. -/
theorem text?_utf8 (s : String) : text? (utf8 s) = some s := by
  have hbytes : (⟨(utf8 s).toArray⟩ : ByteArray) = s.toByteArray := by
    rw [utf8, Array.toArray_toList]
    rfl
  rw [text?, hbytes, String.fromUTF8?, dif_pos s.isValidUTF8]
  rfl

/-- Reads a truth value, which is a byte that is zero or one. -/
def readFlag : List UInt8 → Option (Bool × List UInt8)
  | 0 :: rest => some (false, rest)
  | 1 :: rest => some (true, rest)
  | _ => none

/-- Reads a text that has its length in front. -/
def readText (data : List UInt8) : Option (String × List UInt8) := do
  let (bs, rest) ← readCounted data
  let s ← text? bs
  return (s, rest)

/-- A truth value is read back from its byte. -/
theorem readFlag_data (b : Bool) (rest : List UInt8) :
    readFlag ((Parameter.flag b).data ++ rest) = some (b, rest) := by
  cases b <;> rfl

/-- A text is read back after its length. -/
theorem readText_counted {s : String} (h : (utf8 s).length < 256 ^ 8) (rest : List UInt8) :
    readText (counted (utf8 s) ++ rest) = some (s, rest) := by
  simp only [readText, readCounted_counted h, text?_utf8, Option.bind_eq_bind, Option.bind_some]
  rfl

/-- Reads a value of a type; null is not among them. -/
def Kind.read (kind : Kind) (data : List UInt8) : Option (Value × List UInt8) :=
  match kind with
  | .tiny => (readFlag data).map fun (b, rest) => (.bool b, rest)
  | .longLong => (readNumber 8 data).map fun (n, rest) => (.int (UInt64.ofNat n).toInt64, rest)
  | .double => (readNumber 8 data).map fun (n, rest) => (.float ⟨UInt64.ofNat n⟩, rest)
  | .varString => (readText data).map fun (s, rest) => (.text s, rest)
  | .blob => (readCounted data).map fun (bs, rest) => (.bytes bs, rest)

/-- Reads a value of a type, or null, which has no bytes. -/
def readValue (kind : Kind) (null : Bool) (data : List UInt8) : Option (Value × List UInt8) :=
  if null then some (.null, data) else kind.read data

/-- Reads values of some types, and finds no data after the last one. -/
def readValues : List (Kind × Bool) → List UInt8 → Option (List Value)
  | [], [] => some []
  | [], _ :: _ => none
  | (kind, null) :: rest, data => do
    let (v, data) ← readValue kind null data
    let vs ← readValues rest data
    return v :: vs

/-- The parameter that a value is bound as. -/
def Parameter.ofValue : Value → Parameter
  | .null => .text none
  | .bool b => .flag b
  | .int n => .integer n
  | .float x => .double x
  | .text s => .text (some s)
  | .bytes bs => .bytes bs

end Wire

/-- Whether a value that is a text or bytes is shorter than 64 KiB. -/
def Value.IsShort : Value → Prop
  | .text s => (Wire.utf8 s).length < 0x10000
  | .bytes bs => bs.length < 0x10000
  | _ => True

instance : DecidablePred Value.IsShort
  | .text s => inferInstanceAs (Decidable ((Wire.utf8 s).length < 0x10000))
  | .bytes bs => inferInstanceAs (Decidable (bs.length < 0x10000))
  | .null => isTrue trivial
  | .bool _ => isTrue trivial
  | .int _ => isTrue trivial
  | .float _ => isTrue trivial

namespace Wire

/-- A short value is read back from what it was bound as, up to its end. -/
theorem readValue_ofValue {v : Value} (h : v.IsShort) (rest : List UInt8) :
    readValue (Parameter.ofValue v).kind (Parameter.ofValue v).isNull
      ((Parameter.ofValue v).data ++ rest) = some (v, rest) := by
  cases v with
  | null => rfl
  | bool b =>
    change Kind.read .tiny ((Parameter.flag b).data ++ rest) = _
    rw [Kind.read, readFlag_data, Option.map_some]
  | int n =>
    change Kind.read .longLong (littleEndian 8 n.toUInt64.toNat ++ rest) = _
    rw [Kind.read, readNumber_word, Option.map_some]
    dsimp only
    rw [UInt64.ofNat_toNat, Int64.toInt64_toUInt64]
  | float x =>
    change Kind.read .double (littleEndian 8 x.bits.toNat ++ rest) = _
    rw [Kind.read, readNumber_word, Option.map_some]
    dsimp only
    rw [UInt64.ofNat_toNat]
  | text s =>
    have hshort : (utf8 s).length < 256 ^ 8 := Nat.lt_trans h (by decide)
    change Kind.read .varString (counted (utf8 s) ++ rest) = _
    rw [Kind.read, readText_counted hshort, Option.map_some]
  | bytes bs =>
    have hshort : bs.length < 256 ^ 8 := Nat.lt_trans h (by decide)
    change Kind.read .blob (counted bs ++ rest) = _
    rw [Kind.read, readCounted_counted hshort, Option.map_some]

/-- Short values are read back from what they were bound as, and nothing is left. -/
theorem readValues_ofValue {values : List Value} (h : ∀ v ∈ values, v.IsShort) :
    readValues (values.map fun v => ((Parameter.ofValue v).kind, (Parameter.ofValue v).isNull))
      (values.flatMap fun v => (Parameter.ofValue v).data) = some values := by
  induction values with
  | nil => rfl
  | cons v values ih =>
    have hrest := ih fun w hw => h w (List.mem_cons_of_mem v hw)
    rw [List.map_cons, List.flatMap_cons, readValues, readValue_ofValue (h v List.mem_cons_self)]
    change ((readValues _ _).bind _ : Option (List Value)) = _
    rw [hrest]
    rfl

end Wire

/-! ## Arguments -/

namespace BoundArguments

/-- Reads the values of some arguments: the types and the null bits say how to read the data. -/
def values? (a : BoundArguments) : Option (List Value) :=
  Wire.readValues (a.kinds.zipIdx.map fun (kind, i) => (kind, Wire.bitAt a.nulls i)) a.data

/-- The null bit of an argument says whether its parameter was null. -/
theorem zipIdx_kinds_ofParameters (parameters : List Wire.Parameter) :
    ((ofParameters parameters).kinds.zipIdx.map fun (kind, i) =>
      (kind, Wire.bitAt (ofParameters parameters).nulls i)) =
        parameters.map fun p => (p.kind, p.isNull) := by
  refine List.ext_getElem (by simp [ofParameters]) ?_
  intro i hi hi'
  have hbits : i < (parameters.map Wire.Parameter.isNull).length := by simpa using hi'
  have hbit : Wire.bitAt (ofParameters parameters).nulls i =
      (parameters.map Wire.Parameter.isNull)[i] := Wire.bitAt_packBits hbits
  simp only [List.getElem_map, List.getElem_zipIdx, Nat.zero_add, hbit]
  simp [ofParameters]

/-- Short values are read back from the arguments that they are bound as. -/
theorem values?_ofParameters {values : List Value} (h : ∀ v ∈ values, v.IsShort) :
    (ofParameters (values.map Wire.Parameter.ofValue)).values? = some values := by
  have hread := Wire.readValues_ofValue h
  rw [values?, zipIdx_kinds_ofParameters, List.map_map, ofParameters, List.flatMap_map]
  exact hread

end BoundArguments

/-! ## Queries -/

/-- A value is bound as its parameter. -/
theorem Query.bindValue_eq (q : Query) (v : Value) :
    q.bindValue v = q.bind (Wire.Parameter.ofValue v) := by
  cases v <;> rfl

/-- Values are bound as their parameters, in order, after those that were bound before. -/
theorem Query.foldl_bindValue (q : Query) (values : List Value) :
    values.foldl Query.bindValue q =
      ⟨q.sql, q.parameters ++ values.map Wire.Parameter.ofValue⟩ := by
  induction values generalizing q with
  | nil => rw [List.foldl_nil, List.map_nil, List.append_nil]
  | cons v values ih =>
    rw [List.foldl_cons, ih, bindValue_eq, bind, List.map_cons, List.append_assoc,
      List.singleton_append]

/-- A value is bound to a query whose rows are read in the same way as to one whose rows are not. -/
theorem RowQuery.query_bindValue {α : Type} (q : RowQuery α) (v : Value) :
    (q.bindValue v).query = q.query.bindValue v := by
  cases v <;> rfl

/-- The same of values one after the other. -/
theorem RowQuery.query_foldl_bindValue {α : Type} (q : RowQuery α) (values : List Value) :
    (values.foldl RowQuery.bindValue q).query = values.foldl Query.bindValue q.query := by
  induction values generalizing q with
  | nil => rfl
  | cons v values ih => rw [List.foldl_cons, ih, query_bindValue, List.foldl_cons]

namespace Statement

/-- The query of a statement has its SQL, and its values as parameters. -/
theorem query_eq (s : Statement) : s.query = ⟨s.sql, s.values.map Wire.Parameter.ofValue⟩ := by
  rw [query, Query.foldl_bindValue]
  rfl

/-- A statement makes the same query whether or not the rows are read as something. -/
theorem query_queryAs (α : Type) (s : Statement) : (s.queryAs α).query = s.query :=
  RowQuery.query_foldl_bindValue _ s.values

/-- The arguments of a statement with short values have its values. -/
theorem values?_arguments {s : Statement} (h : ∀ v ∈ s.values, v.IsShort) :
    s.arguments.values? = some s.values := by
  rw [arguments, query_eq]
  exact BoundArguments.values?_ofParameters h

/-- In both of its ways a statement is sent with its SQL and with the same arguments, one for each value.  If
its texts and bytes are short, its values can be read back from the arguments, in order and with nothing left
of the data; so no other values have these arguments. -/
theorem arguments_determine_values (s : Statement) :
    (s.query.sql = s.sql ∧ s.query.arguments = s.arguments) ∧
    (∀ α : Type, (s.queryAs α).query.sql = s.sql ∧ (s.queryAs α).query.arguments = s.arguments) ∧
    s.arguments.count = s.values.length ∧
    ((∀ v ∈ s.values, v.IsShort) →
      s.arguments.values? = some s.values ∧
      ∀ t : Statement, (∀ v ∈ t.values, v.IsShort) → s.values ≠ t.values →
        s.arguments ≠ t.arguments) := by
  refine ⟨?_, ?_, ?_, ?_⟩
  · rw [arguments, query_eq]
    exact ⟨rfl, rfl⟩
  · intro α
    rw [query_queryAs, arguments, query_eq]
    exact ⟨rfl, rfl⟩
  · rw [arguments, query_eq]
    simp [Query.arguments, BoundArguments.count, BoundArguments.ofParameters]
  · intro hs
    refine ⟨values?_arguments hs, ?_⟩
    intro t ht hne hsame
    have hread : some s.values = some t.values := by
      rw [← values?_arguments hs, ← values?_arguments ht, hsame]
    exact hne (Option.some.inj hread)

/-- Nine values, so that the null bits fill more than a byte: they are read back in order.  Null, the empty text
and the empty bytes have different arguments, and so have true and the number one. -/
theorem arguments_determine_values_of_kinds :
    let s : Statement := ⟨"select ?, ?, ?, ?, ?, ?, ?, ?, ?", [.null, .text "", .bytes [], .bool true, .int 1,
      .float ⟨0x8000000000000000⟩, .text "é", .null, .null]⟩
    let one (v : Value) : Statement := ⟨"select ?", [v]⟩
    (∀ v ∈ s.values, v.IsShort) ∧
    s.arguments.nulls = [0x81, 0x01] ∧
    s.arguments.values? = some s.values ∧
    (one .null).arguments ≠ (one (.text "")).arguments ∧
    (one .null).arguments ≠ (one (.bytes [])).arguments ∧
    (one (.text "")).arguments ≠ (one (.bytes [])).arguments ∧
    (one (.bool true)).arguments ≠ (one (.int 1)).arguments := by
  intro s one
  have hs : ∀ v ∈ s.values, v.IsShort := by decide
  have hone : ∀ v : Value, v.IsShort → ∀ w ∈ (one v).values, w.IsShort := by
    intro v hv w hw
    rwa [List.mem_singleton.1 hw]
  have hdistinct : ∀ v w : Value, v.IsShort → w.IsShort → v ≠ w →
      (one v).arguments ≠ (one w).arguments := by
    intro v w hv hw hne
    obtain ⟨-, -, -, hshort⟩ := arguments_determine_values (one v)
    exact (hshort (hone v hv)).2 (one w) (hone w hw) fun h => hne (List.singleton_inj.1 h)
  obtain ⟨-, -, -, hshort⟩ := arguments_determine_values s
  refine ⟨hs, by decide, (hshort hs).1, ?_, ?_, ?_, ?_⟩
  · exact hdistinct _ _ (by decide) (by decide) (by decide)
  · exact hdistinct _ _ (by decide) (by decide) (by decide)
  · exact hdistinct _ _ (by decide) (by decide) (by decide)
  · exact hdistinct _ _ (by decide) (by decide) (by decide)

end Statement

end BoundSql
