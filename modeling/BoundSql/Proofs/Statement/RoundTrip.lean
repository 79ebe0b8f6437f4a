import BoundSql.Proofs.Json.Recovery
import BoundSql.Proofs.Json.RoundTrip
import BoundSql.Proofs.Json.Scalars
import BoundSql.Statement

/-!
# Statements as JSON

A statement is written as an object with its SQL and its values.  Whoever reads that text finds the SQL again,
and in place of each value what the text of the value alone is read as (`Statement.reread?_toText`).  A value
that JSON has a scalar for is found again, with one proviso: a floating-point number is found again where
reading its digits undoes writing them (`Statement.text_loses_nothing`).  Bytes are refused, and an infinity or
a NaN has become null.
-/

namespace BoundSql

namespace Value

/-- What the JSON of a value is read as, once its text was read. -/
def asRead : Value → Except Error Value
  | .float x => if x.isFinite then .ok (.float x) else .ok .null
  | .bytes _ => .error .notAValue
  | v => .ok v

/-- A value that JSON has a scalar for stays what it is. -/
theorem asRead_of_expressible {v : Value} (h : v.Expressible) : v.asRead = .ok v := by
  cases v with
  | float x =>
    have hfinite : x.isFinite = true := h
    rw [asRead, if_pos hfinite]
  | bytes bs => exact h.elim
  | _ => rfl

/-- What is read from the JSON text of a value, if it can be read. -/
def reread? (v : Value) : Option (Except Error Value) := (Json.ofText? v.toJson.toText).map ofJson

/-- The JSON of a value is a scalar or an array of scalars. -/
theorem depth_toJson_le (v : Value) : v.toJson.depth ≤ 1 := by
  cases v with
  | float x =>
    rw [toJson]
    split <;> exact Nat.zero_le _
  | bytes bs =>
    rw [toJson, Json.depth]
    refine Nat.succ_le_succ (Json.depthItems_le fun j hj => ?_)
    obtain ⟨b, -, rfl⟩ := List.mem_map.1 hj
    exact Nat.zero_le _
  | _ => exact Nat.zero_le _

/-- The text of a value is read as its numbers are. -/
theorem ofText?_toText_toJson (v : Value) : Json.ofText? v.toJson.toText = v.toJson.reread? :=
  Json.ofText?_toText (Nat.le_trans v.depth_toJson_le (by decide))

/-- A value that is no finite floating-point number is read as expected. -/
theorem reread?_eq {v : Value} (h : ∀ x, v = .float x → x.isFinite = false) :
    v.reread? = some v.asRead := by
  rw [reread?, ofText?_toText_toJson]
  cases v with
  | null => rfl
  | bool b => rfl
  | int n =>
    rw [toJson, Json.reread?, Json.Number.ofInt64, Json.Number.reread?_integer]
    exact congrArg (fun v => some (Except.ok v)) (ofNumber_ofInt64 n)
  | float x =>
    have hnumber : Json.Number.ofBinary64? x = none := dif_neg (by simp [h x rfl])
    rw [toJson, hnumber, asRead, h x rfl]
    rfl
  | text s => rfl
  | bytes bs =>
    have hitems : Json.rereadItems? (bs.map fun b => .number (.ofUInt8 b)) =
        some (bs.map fun b => .number (.ofUInt8 b)) := by
      induction bs with
      | nil => rfl
      | cons b bs ih =>
        rw [List.map_cons, Json.rereadItems?, ih (by rintro x ⟨⟩), Json.reread?, Json.Number.ofUInt8,
          Json.Number.reread?_integer]
        rfl
    rw [toJson, Json.reread?, hitems]
    rfl

/-- A finite floating-point number is written as a number. -/
theorem toJson_float {x : Binary64} (h : x.isFinite = true) :
    (Value.float x).toJson = .number (.float x h) := by
  have hnumber : Json.Number.ofBinary64? x = some (.float x h) := dif_pos h
  rw [toJson, hnumber]

/-- A floating-point number is read as one, if at all. -/
theorem reread?_float {x : Binary64} (h : x.isFinite = true) {r : Except Error Value}
    (hr : (Value.float x).reread? = some r) : ∃ y, r = .ok (.float y) := by
  rw [reread?, ofText?_toText_toJson, toJson_float h, Json.reread?, Json.Number.reread?_float,
    Json.Number.ofBinary64?] at hr
  split at hr
  · obtain rfl := Option.some.inj hr
    exact ⟨_, rfl⟩
  · cases hr

/-- A floating-point number is read as it was written if reading its literal undoes writing it. -/
theorem reread?_float_of_readsExactly {x : Binary64} (h : x.isFinite = true) (hx : Json.ReadsExactly x) :
    (Value.float x).reread? = some (.ok (.float x)) := by
  rw [reread?, ofText?_toText_toJson, toJson_float h, Json.reread?,
    Json.Number.reread?_float_of_readsExactly h hx]
  rfl

/-- The text of a finite floating-point number has a point or an exponent. -/
theorem mem_toText_float {x : Binary64} (h : x.isFinite = true) :
    '.' ∈ (Value.float x).toJson.toText.toList ∨ 'e' ∈ (Value.float x).toJson.toText.toList := by
  rw [toJson_float h, Json.toText, String.toList_ofList, Json.render, List.append_nil,
    Json.Number.render_eq]
  exact Json.Literal.mem_text_of_isPlain (Json.Literal.isPlain_ofDecimal _ _)

end Value

/-- What is made of the results of fallible steps may be made of each of them. -/
theorem mapM_map_option {α β γ : Type} (f : α → Option β) (g : β → γ) (xs : List α) :
    (xs.mapM fun x => (f x).map g) = (xs.mapM f).map (List.map g) := by
  induction xs with
  | nil => rfl
  | cons x xs ih =>
    rw [List.mapM_cons, List.mapM_cons, ih]
    cases f x with
    | none => rfl
    | some y => cases xs.mapM f <;> rfl

namespace Statement

/-- The SQL and the values that are read from the text of a statement: the member `sql` and the items of the
member `values`, each read as a value. -/
def reread? (text : String) : Option (String × List (Except Error Value)) :=
  match Json.ofText? text with
  | some (.object members) =>
    match Table.get? members "sql", Table.get? members "values" with
    | some (.string sql), some (.array items) => some (sql, items.map Value.ofJson)
    | _, _ => none
  | _ => none

/-- The JSON of a statement is read as the numbers among its values are. -/
theorem ofText?_toText (s : Statement) :
    Json.ofText? s.toText = (s.values.mapM fun v : Value => v.toJson.reread?).map fun items =>
      Json.ofMembers [("sql", .string s.sql), ("values", .array items)] := by
  have hvalues : Json.depthItems (s.values.map Value.toJson) ≤ 1 := by
    refine Json.depthItems_le fun j hj => ?_
    obtain ⟨v, -, rfl⟩ := List.mem_map.1 hj
    exact v.depth_toJson_le
  have hdepth : (Json.object [("sql", .string s.sql), ("values", .array (s.values.map Value.toJson))]).depth ≤
      Json.nestingLimit := by
    simp only [Json.depth, Json.depthMembers, Json.nestingLimit]
    omega
  rw [toText, Json.ofText?_toText hdepth]
  have hitems : (s.values.map Value.toJson).mapM Json.reread? =
      s.values.mapM fun v : Value => v.toJson.reread? := List.mapM_map
  simp only [Json.reread?, Json.rereadMembers?, Json.rereadItems?_eq, hitems]
  cases s.values.mapM fun v : Value => v.toJson.reread? <;> rfl

/-- The members of a statement are found again under their names. -/
theorem get?_ofPairs (sql items : Json) :
    (Table.ofPairs [("sql", sql), ("values", items)]).get? "sql" = some sql ∧
      (Table.ofPairs [("sql", sql), ("values", items)]).get? "values" = some items := by
  simp [Table.ofPairs, Table.get?_insert]

/-- From the text of a statement its SQL is read, and what the texts of its values are read as. -/
theorem reread?_toText (s : Statement) :
    reread? s.toText = (s.values.mapM Value.reread?).map fun vs => (s.sql, vs) := by
  have hvalues : s.values.mapM Value.reread? =
      (s.values.mapM fun v : Value => v.toJson.reread?).map (List.map Value.ofJson) := by
    rw [← mapM_map_option]
    refine congrArg (s.values.mapM ·) (funext fun v => ?_)
    rw [Value.reread?, v.ofText?_toText_toJson]
  rw [reread?, ofText?_toText, hvalues]
  cases s.values.mapM fun v : Value => v.toJson.reread? with
  | none => rfl
  | some items =>
    obtain ⟨hsql, hitems⟩ := get?_ofPairs (.string s.sql) (.array items)
    simp only [Option.map_some, Json.ofMembers, hsql, hitems]

/-- If each value is read from its own text as expected, the values are read from the text of the statement. -/
theorem reread?_toText_of_forall {s : Statement} {f : Value → Except Error Value}
    (h : ∀ v ∈ s.values, v.reread? = some (f v)) : reread? s.toText = some (s.sql, s.values.map f) := by
  have hvalues : ∀ vs : List Value, (∀ v ∈ vs, v.reread? = some (f v)) →
      vs.mapM Value.reread? = some (vs.map f) := by
    intro vs
    induction vs with
    | nil => exact fun _ => rfl
    | cons v vs ih =>
      intro h
      rw [List.mapM_cons, h v List.mem_cons_self, ih fun w hw => h w (List.mem_cons_of_mem v hw)]
      rfl
  rw [reread?_toText, hvalues s.values h]
  rfl

/-- From the text of a statement its SQL is read, and in place of each value what the text of the value alone is
read as: the value itself, an error for bytes and null for what is not finite.  A finite floating-point number
is read as one, if at all.  Where reading the literals of such numbers undoes writing them, as it does where their
digits are scaled without an error, nothing that JSON has a scalar for is lost. -/
theorem text_loses_nothing (s : Statement) :
    reread? s.toText = (s.values.mapM Value.reread?).map (fun vs => (s.sql, vs)) ∧
    (∀ v : Value, (∀ x, v = .float x → x.isFinite = false) → v.reread? = some v.asRead) ∧
    (∀ x : Binary64, x.isFinite = true →
      ('.' ∈ (Value.float x).toJson.toText.toList ∨ 'e' ∈ (Value.float x).toJson.toText.toList) ∧
      (∀ r, (Value.float x).reread? = some r → ∃ y, r = .ok (.float y)) ∧
      (Json.ReadsExactly x → (Value.float x).reread? = some (.ok (.float x))) ∧
      (Json.ScalesExactly x → Json.ReadsExactly x)) ∧
    ((∀ x : Binary64, .float x ∈ s.values → x.isFinite = true → Json.ReadsExactly x) →
      reread? s.toText = some (s.sql, s.values.map Value.asRead) ∧
      ((∀ v ∈ s.values, v.Expressible) → reread? s.toText = some (s.sql, s.values.map .ok))) := by
  refine ⟨reread?_toText s, fun v => Value.reread?_eq, fun x hx => ⟨Value.mem_toText_float hx,
    fun r => Value.reread?_float hx, Value.reread?_float_of_readsExactly hx,
    Json.readsExactly_of_scalesExactly hx⟩, fun hfloats => ?_⟩
  have hasRead : ∀ v ∈ s.values, v.reread? = some v.asRead := by
    intro v hv
    by_cases hfinite : ∃ x : Binary64, v = .float x ∧ x.isFinite = true
    · obtain ⟨x, rfl, hx⟩ := hfinite
      rw [Value.reread?_float_of_readsExactly hx (hfloats x hv hx), Value.asRead, if_pos hx]
    · refine Value.reread?_eq fun x hx => ?_
      rw [Bool.eq_false_iff]
      exact fun hfin => hfinite ⟨x, hx, hfin⟩
  refine ⟨reread?_toText_of_forall hasRead, fun hexpressible => reread?_toText_of_forall fun v hv => ?_⟩
  rw [hasRead v hv, Value.asRead_of_expressible (hexpressible v hv)]

/-- A statement whose values look like others: texts of a number, of null and of a truth value and one of
characters that are escaped, the limits of the integers, minus zero, and numbers that are written with an
exponent, with a fraction and as integers.  All of them are found again. -/
theorem text_loses_nothing_of_lookalikes :
    let s : Statement := ⟨"select '?' -- \\ \" \n",
      [.null, .bool true, .text "true", .text "null", .text "-1.0", .text "\x00\x1f\n\t\\\"/\u2028é",
        .int (-9223372036854775808), .int 9223372036854775807, .int 0, .float ⟨0x8000000000000000⟩,
        .float ⟨0x3fb999999999999a⟩, .float ⟨0x4024000000000000⟩, .float ⟨0x4480f0cf064dd592⟩,
        .float ⟨0x3e8421f5f40d8376⟩]⟩
    (∀ x : Binary64, .float x ∈ s.values → x.isFinite = true → Json.ReadsExactly x) ∧
    (∀ v ∈ s.values, v.Expressible) ∧ Statement.reread? s.toText = some (s.sql, s.values.map .ok) := by
  intro s
  have hfloats : ∀ x : Binary64, .float x ∈ s.values → x.isFinite = true → Json.ReadsExactly x := by
    intro x hx hfinite
    refine Json.readsExactly_of_scalesExactly hfinite ?_
    simp only [s, List.mem_cons, List.not_mem_nil, Value.float.injEq, reduceCtorEq, false_or, or_false] at hx
    rcases hx with rfl | rfl | rfl | rfl | rfl <;> decide +kernel
  have hexpressible : ∀ v ∈ s.values, v.Expressible := by
    simp only [s, List.forall_mem_cons, Value.Expressible, true_and]
    exact ⟨by decide, by decide, by decide, by decide, by decide, nofun⟩
  exact ⟨hfloats, hexpressible, ((text_loses_nothing s).2.2.2 hfloats).2 hexpressible⟩

end Statement

end BoundSql
