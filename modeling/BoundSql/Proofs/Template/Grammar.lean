import BoundSql.Proofs.Json.Denotation

/-!
# The grammar of templates

Which JSON values denote a template, and which, and what is wrong with the others.  A template is an array
of elements, and an element is a string, an object with a member `param`, or an object without it that
has a member `sql` (`Segment.Denotes`, `Segment.Rejected`).  Values of fragments have rules of their own
(`Argument.Denotes`, `Argument.Rejected`): there a default that is null is the value null, while a block
with such a default has none.

Where an element has several faults the first one counts: of an object with `param` the key, then the
default; of an object with `sql` the text, then the shape of `values`, then its items from left to right,
and the number of marks last.  Templates are loaded as the grammar says (`Template.loading_is_exact`).
-/

namespace BoundSql

/-! ## Values of fragments -/

namespace Argument

/-- The arguments that the items of `values` denote. -/
inductive Denotes : Json → Argument → Prop
  | value {j : Json} {v : Value} (hv : Value.Denotes j v) : Denotes j (.value v)
  | placeholder {ms : Table String Json} {param : Json} {key : Key}
      (hparam : ms.get? "param" = some param) (hkey : Key.Denotes param key)
      (hdefault : ms.get? "default" = none) : Denotes (.object ms) (.placeholder ⟨key, none⟩)
  | placeholderWithDefault {ms : Table String Json} {param j : Json} {key : Key} {v : Value}
      (hparam : ms.get? "param" = some param) (hkey : Key.Denotes param key)
      (hdefault : ms.get? "default" = some j) (hv : Value.Denotes j v) :
      Denotes (.object ms) (.placeholder ⟨key, some v⟩)

/-- What is wrong with the items of `values` that denote no argument. -/
inductive Rejected : Json → Error → Prop
  | array (items : List Json) : Rejected (.array items) .notAValue
  | object {ms : Table String Json} (hparam : ms.get? "param" = none) :
      Rejected (.object ms) .notAValue
  | key {ms : Table String Json} {param : Json} (hparam : ms.get? "param" = some param)
      (hkey : ∀ key, ¬ Key.Denotes param key) : Rejected (.object ms) (.badSegment (.notAKey param))
  | default {ms : Table String Json} {param j : Json} {key : Key}
      (hparam : ms.get? "param" = some param) (hkey : Key.Denotes param key)
      (hdefault : ms.get? "default" = some j) (hj : ¬ j.IsScalar) : Rejected (.object ms) .notAValue

/-- What is no object is read as a value. -/
theorem ofJson_of_ne_object {j : Json} (h : ∀ ms, j ≠ .object ms) :
    ofJson j = (Value.ofJson j).map .value := by
  cases j with
  | object ms => exact absurd rfl (h ms)
  | _ => rfl

/-- An object with the member `param` is read as a placeholder. -/
theorem ofJson_object {ms : Table String Json} {param : Json} (h : ms.get? "param" = some param) :
    ofJson (.object ms) = placeholderOfMembers param ms := by
  simp only [ofJson, h]

/-- The items of `values` are read as the grammar says. -/
theorem follows : Follows ofJson Denotes Rejected where
  ok_of_denotes := by
    intro j a h
    cases h with
    | value hv =>
      have hobject : ∀ ms, j ≠ .object ms := by
        rintro ms rfl
        exact Value.isScalar_of_denotes hv
      rw [ofJson_of_ne_object hobject, Value.follows.ok_of_denotes hv]
      rfl
    | placeholder hparam hkey hdefault =>
      rw [ofJson_object hparam, placeholderOfMembers, Key.follows.ok_of_denotes hkey,
        Outcome.ok_bind, hdefault]
      rfl
    | placeholderWithDefault hparam hkey hdefault hv =>
      rw [ofJson_object hparam, placeholderOfMembers, Key.follows.ok_of_denotes hkey,
        Outcome.ok_bind, hdefault]
      simp only
      rw [Value.follows.ok_of_denotes hv]
      rfl
  error_of_rejected := by
    intro j e h
    cases h with
    | array items => rfl
    | object hparam =>
      simp only [ofJson, hparam]
      rfl
    | key hparam hkey =>
      rw [ofJson_object hparam, placeholderOfMembers, Key.follows.error_of_rejected ⟨hkey, rfl⟩,
        Outcome.error_bind]
    | default hparam hkey hdefault hj =>
      rw [ofJson_object hparam, placeholderOfMembers, Key.follows.ok_of_denotes hkey,
        Outcome.ok_bind, hdefault]
      simp only
      rw [Value.follows.error_of_rejected ⟨hj, rfl⟩]
      rfl
  denotes_or_rejected := by
    intro j
    cases j with
    | array items => exact Or.inr ⟨_, .array items⟩
    | object ms =>
      cases hparam : Table.get? ms "param" with
      | none => exact Or.inr ⟨_, .object hparam⟩
      | some param =>
        by_cases hkey : ∃ key, Key.Denotes param key
        · obtain ⟨key, hkey⟩ := hkey
          cases hdefault : Table.get? ms "default" with
          | none => exact Or.inl ⟨_, .placeholder hparam hkey hdefault⟩
          | some j =>
            by_cases hj : j.IsScalar
            · obtain ⟨v, hv⟩ := Value.exists_denotes hj
              exact Or.inl ⟨_, .placeholderWithDefault hparam hkey hdefault hv⟩
            · exact Or.inr ⟨_, .default hparam hkey hdefault hj⟩
        · exact Or.inr ⟨_, .key hparam (not_exists.1 hkey)⟩
    | null => exact Or.inl ⟨_, .value .null⟩
    | bool b => exact Or.inl ⟨_, .value (.bool b)⟩
    | string s => exact Or.inl ⟨_, .value (.text s)⟩
    | number n =>
      obtain ⟨v, hv⟩ := Value.exists_denotes (j := .number n) trivial
      exact Or.inl ⟨_, .value hv⟩

end Argument

/-! ## Elements of templates -/

/-- A text has no marks if no mark is among its characters. -/
theorem markCount_eq_zero_iff {sql : String} : markCount sql = 0 ↔ '?' ∉ sql.toList :=
  List.count_eq_zero

namespace Segment

/-- The arguments that the member `values` of an element denotes; where it is absent there are none. -/
inductive ValuesDenote (ms : Table String Json) : List Argument → Prop
  | absent (hvalues : ms.get? "values" = none) : ValuesDenote ms []
  | array {items : List Json} {args : List Argument} (hvalues : ms.get? "values" = some (.array items))
      (hargs : List.Forall₂ Argument.Denotes items args) : ValuesDenote ms args

/-- What is wrong with the member `values` of an element. -/
inductive ValuesRejected (ms : Table String Json) : Error → Prop
  | shape {j : Json} (hvalues : ms.get? "values" = some j) (hj : ∀ items, j ≠ .array items) :
      ValuesRejected ms (.badSegment (.fragmentValues j))
  | item {before after : List Json} {x : Json} {e : Error}
      (hvalues : ms.get? "values" = some (.array (before ++ x :: after)))
      (hbefore : ∀ y ∈ before, ∃ a, Argument.Denotes y a) (hx : Argument.Rejected x e) :
      ValuesRejected ms e

/-- The segments that the elements of a template denote. -/
inductive Denotes : Json → Segment → Prop
  | literal {sql : String} (hmarks : '?' ∉ sql.toList) : Denotes (.string sql) (.fragment ⟨sql, []⟩)
  | block {ms : Table String Json} {param : Json} {key : Key} (hparam : ms.get? "param" = some param)
      (hkey : Key.Denotes param key)
      (hdefault : ms.get? "default" = none ∨ ms.get? "default" = some .null) :
      Denotes (.object ms) (.block ⟨key, none⟩)
  | blockWithDefault {ms : Table String Json} {param : Json} {key : Key} {sql : String}
      (hparam : ms.get? "param" = some param) (hkey : Key.Denotes param key)
      (hdefault : ms.get? "default" = some (.string sql)) (hmarks : '?' ∉ sql.toList) :
      Denotes (.object ms) (.block ⟨key, some ⟨sql, []⟩⟩)
  | fragment {ms : Table String Json} {sql : String} {args : List Argument}
      (hparam : ms.get? "param" = none) (hsql : ms.get? "sql" = some (.string sql))
      (hvalues : ValuesDenote ms args) (hmarks : markCount sql = args.length) :
      Denotes (.object ms) (.fragment ⟨sql, args⟩)

/-- What is wrong with the elements of a template that denote no segment. -/
inductive Rejected : Json → Error → Prop
  | literal {sql : String} (hmarks : '?' ∈ sql.toList) :
      Rejected (.string sql) (.countMismatch (markCount sql) 0)
  | shape {j : Json} (hstring : ∀ sql, j ≠ .string sql) (hobject : ∀ ms, j ≠ .object ms) :
      Rejected j (.badSegment (.notASegment j))
  | object {ms : Table String Json} (hparam : ms.get? "param" = none) (hsql : ms.get? "sql" = none) :
      Rejected (.object ms) (.badSegment (.notASegment (.object ms)))
  | key {ms : Table String Json} {param : Json} (hparam : ms.get? "param" = some param)
      (hkey : ∀ key, ¬ Key.Denotes param key) : Rejected (.object ms) (.badSegment (.notAKey param))
  | default {ms : Table String Json} {param j : Json} {key : Key}
      (hparam : ms.get? "param" = some param) (hkey : Key.Denotes param key)
      (hdefault : ms.get? "default" = some j) (hnull : j ≠ .null) (hstring : ∀ sql, j ≠ .string sql) :
      Rejected (.object ms) (.badSegment (.blockDefault j))
  | defaultMarks {ms : Table String Json} {param : Json} {key : Key} {sql : String}
      (hparam : ms.get? "param" = some param) (hkey : Key.Denotes param key)
      (hdefault : ms.get? "default" = some (.string sql)) (hmarks : '?' ∈ sql.toList) :
      Rejected (.object ms) (.countMismatch (markCount sql) 0)
  | text {ms : Table String Json} {j : Json} (hparam : ms.get? "param" = none)
      (hsql : ms.get? "sql" = some j) (hstring : ∀ sql, j ≠ .string sql) :
      Rejected (.object ms) (.badSegment (.fragmentText j))
  | values {ms : Table String Json} {sql : String} {e : Error} (hparam : ms.get? "param" = none)
      (hsql : ms.get? "sql" = some (.string sql)) (hvalues : ValuesRejected ms e) :
      Rejected (.object ms) e
  | marks {ms : Table String Json} {sql : String} {args : List Argument}
      (hparam : ms.get? "param" = none) (hsql : ms.get? "sql" = some (.string sql))
      (hvalues : ValuesDenote ms args) (hmarks : markCount sql ≠ args.length) :
      Rejected (.object ms) (.countMismatch (markCount sql) args.length)

/-- A text without marks is taken. -/
theorem plain_eq_ok {sql : String} (h : '?' ∉ sql.toList) : Fragment.plain sql = .ok ⟨sql, []⟩ :=
  Fragment.checked_eq_ok_iff.2 ⟨markCount_eq_zero_iff.2 h, rfl⟩

/-- A text with marks is not taken without arguments. -/
theorem plain_eq_error {sql : String} (h : '?' ∈ sql.toList) :
    Fragment.plain sql = .error (.countMismatch (markCount sql) 0) := by
  have hne : markCount sql ≠ 0 := fun hzero => markCount_eq_zero_iff.1 hzero h
  exact if_neg hne

/-- The member `values` is read as the grammar says. -/
theorem values_follow : Follows argsOfMembers ValuesDenote ValuesRejected where
  ok_of_denotes := by
    intro ms args h
    cases h with
    | absent hvalues => rw [argsOfMembers, hvalues]
    | array hvalues hargs =>
      rw [argsOfMembers, hvalues]
      exact Argument.follows.list.ok_of_denotes hargs
  error_of_rejected := by
    intro ms e h
    cases h with
    | @shape j hvalues hj =>
      rw [argsOfMembers, hvalues]
      cases j with
      | array items => exact absurd rfl (hj items)
      | _ => rfl
    | item hvalues hbefore hx =>
      rw [argsOfMembers, hvalues]
      exact Argument.follows.list.error_of_rejected ⟨_, _, _, rfl, hbefore, hx⟩
  denotes_or_rejected := by
    intro ms
    cases hvalues : Table.get? ms "values" with
    | none => exact Or.inl ⟨[], .absent hvalues⟩
    | some j =>
      cases j with
      | array items =>
        rcases Argument.follows.list.denotes_or_rejected items with
          ⟨args, hargs⟩ | ⟨e, before, x, after, rfl, hbefore, hx⟩
        · exact Or.inl ⟨args, .array hvalues hargs⟩
        · exact Or.inr ⟨e, .item hvalues hbefore hx⟩
      | _ => exact Or.inr ⟨_, .shape hvalues nofun⟩

/-- An object with the member `param` is read as a block. -/
theorem ofJson_of_param {ms : Table String Json} {param : Json} (h : ms.get? "param" = some param) :
    ofJson (.object ms) = blockOfMembers param ms := by
  simp only [ofJson, h]

/-- An object without `param` that has the member `sql` is read as a fragment. -/
theorem ofJson_of_sql {ms : Table String Json} {sql : Json} (hparam : ms.get? "param" = none)
    (hsql : ms.get? "sql" = some sql) : ofJson (.object ms) = fragmentOfMembers sql ms := by
  simp only [ofJson, hparam, hsql]

/-- An object with the member `param` denotes a segment or is rejected. -/
theorem denotes_or_rejected_of_param {ms : Table String Json} {param : Json}
    (hparam : ms.get? "param" = some param) :
    (∃ s, Denotes (.object ms) s) ∨ ∃ e, Rejected (.object ms) e := by
  by_cases hkey : ∃ key, Key.Denotes param key
  · obtain ⟨key, hkey⟩ := hkey
    cases hdefault : ms.get? "default" with
    | none => exact Or.inl ⟨_, .block hparam hkey (Or.inl hdefault)⟩
    | some j =>
      cases j with
      | null => exact Or.inl ⟨_, .block hparam hkey (Or.inr hdefault)⟩
      | string sql =>
        by_cases hmarks : '?' ∈ sql.toList
        · exact Or.inr ⟨_, .defaultMarks hparam hkey hdefault hmarks⟩
        · exact Or.inl ⟨_, .blockWithDefault hparam hkey hdefault hmarks⟩
      | _ => exact Or.inr ⟨_, .default hparam hkey hdefault nofun nofun⟩
  · exact Or.inr ⟨_, .key hparam (not_exists.1 hkey)⟩

/-- An object without `param` that has the member `sql` denotes a segment or is rejected. -/
theorem denotes_or_rejected_of_sql {ms : Table String Json} {j : Json}
    (hparam : ms.get? "param" = none) (hsql : ms.get? "sql" = some j) :
    (∃ s, Denotes (.object ms) s) ∨ ∃ e, Rejected (.object ms) e := by
  cases j with
  | string sql =>
    rcases values_follow.denotes_or_rejected ms with ⟨args, hvalues⟩ | ⟨e, hvalues⟩
    · by_cases hmarks : markCount sql = args.length
      · exact Or.inl ⟨_, .fragment hparam hsql hvalues hmarks⟩
      · exact Or.inr ⟨_, .marks hparam hsql hvalues hmarks⟩
    · exact Or.inr ⟨e, .values hparam hsql hvalues⟩
  | _ => exact Or.inr ⟨_, .text hparam hsql nofun⟩

/-- Elements are read as the grammar says. -/
theorem follows : Follows ofJson Denotes Rejected where
  ok_of_denotes := by
    intro j s h
    cases h with
    | literal hmarks =>
      rw [ofJson, plain_eq_ok hmarks]
      rfl
    | block hparam hkey hdefault =>
      rw [ofJson_of_param hparam, blockOfMembers, Key.follows.ok_of_denotes hkey, Outcome.ok_bind]
      rcases hdefault with hdefault | hdefault
      · rw [hdefault]
        rfl
      · rw [hdefault]
        rfl
    | blockWithDefault hparam hkey hdefault hmarks =>
      rw [ofJson_of_param hparam, blockOfMembers, Key.follows.ok_of_denotes hkey, Outcome.ok_bind,
        hdefault]
      simp only
      rw [plain_eq_ok hmarks]
      rfl
    | fragment hparam hsql hvalues hmarks =>
      rw [ofJson_of_sql hparam hsql, fragmentOfMembers, values_follow.ok_of_denotes hvalues,
        Outcome.ok_bind, Fragment.checked_eq_ok_iff.2 ⟨hmarks, rfl⟩]
      rfl
  error_of_rejected := by
    intro j e h
    cases h with
    | literal hmarks =>
      rw [ofJson, plain_eq_error hmarks]
      rfl
    | shape hstring hobject =>
      cases j with
      | string sql => exact absurd rfl (hstring sql)
      | object ms => exact absurd rfl (hobject ms)
      | _ => rfl
    | object hparam hsql => simp only [ofJson, hparam, hsql]
    | key hparam hkey =>
      rw [ofJson_of_param hparam, blockOfMembers, Key.follows.error_of_rejected ⟨hkey, rfl⟩,
        Outcome.error_bind]
    | @default ms param j key hparam hkey hdefault hnull hstring =>
      rw [ofJson_of_param hparam, blockOfMembers, Key.follows.ok_of_denotes hkey, Outcome.ok_bind,
        hdefault]
      cases j with
      | null => exact absurd rfl hnull
      | string sql => exact absurd rfl (hstring sql)
      | _ => rfl
    | defaultMarks hparam hkey hdefault hmarks =>
      rw [ofJson_of_param hparam, blockOfMembers, Key.follows.ok_of_denotes hkey, Outcome.ok_bind,
        hdefault]
      simp only
      rw [plain_eq_error hmarks, Outcome.error_bind]
    | @text ms j hparam hsql hstring =>
      rw [ofJson_of_sql hparam hsql]
      cases j with
      | string sql => exact absurd rfl (hstring sql)
      | _ => rfl
    | values hparam hsql hvalues =>
      rw [ofJson_of_sql hparam hsql, fragmentOfMembers, values_follow.error_of_rejected hvalues,
        Outcome.error_bind]
    | @marks ms sql args hparam hsql hvalues hmarks =>
      have hchecked : Fragment.checked sql args = .error (.countMismatch (markCount sql) args.length) :=
        if_neg hmarks
      rw [ofJson_of_sql hparam hsql, fragmentOfMembers, values_follow.ok_of_denotes hvalues,
        Outcome.ok_bind, hchecked, Outcome.error_bind]
  denotes_or_rejected := by
    intro j
    cases j with
    | string sql =>
      by_cases hmarks : '?' ∈ sql.toList
      · exact Or.inr ⟨_, .literal hmarks⟩
      · exact Or.inl ⟨_, .literal hmarks⟩
    | object ms =>
      cases hparam : Table.get? ms "param" with
      | some param => exact denotes_or_rejected_of_param hparam
      | none =>
        cases hsql : Table.get? ms "sql" with
        | none => exact Or.inr ⟨_, .object hparam hsql⟩
        | some sql => exact denotes_or_rejected_of_sql hparam hsql
    | _ => exact Or.inr ⟨_, .shape nofun nofun⟩

end Segment

namespace Template

/-- What is loaded has the segments that the elements of an array denote, and stores nothing. -/
theorem ofJson_eq_ok_iff {j : Json} {t : Template} :
    ofJson j = .ok t ↔
      ∃ elements, j = .array elements ∧ List.Forall₂ Segment.Denotes elements t.segments ∧
        t = ofSegments t.segments := by
  constructor
  · intro h
    cases j with
    | array elements =>
      obtain ⟨segments, hread, rfl⟩ := Outcome.map_eq_ok_iff.1 h
      exact ⟨elements, rfl, Segment.follows.list.eq_ok_iff.1 hread, rfl⟩
    | _ => cases h
  · rintro ⟨elements, rfl, hsegments, ht⟩
    rw [ofJson, Segment.follows.list.ok_of_denotes hsegments]
    exact congrArg Except.ok ht.symm

/-- What is not loaded is no array, or has an element that is rejected. -/
theorem ofJson_eq_error_iff {j : Json} {e : Error} :
    ofJson j = .error e ↔
      ((∀ elements, j ≠ .array elements) ∧ e = .badSegment (.notAnArray j)) ∨
        ∃ elements, j = .array elements ∧ FirstRejected Segment.Denotes Segment.Rejected elements e := by
  cases j with
  | array elements =>
    rw [ofJson, Outcome.map_eq_error_iff, Segment.follows.list.eq_error_iff]
    simp
  | _ => simp [ofJson, eq_comm]

/-- A JSON value is loaded as a template when it is an array and all of its elements denote segments.  The
template has these segments in their order and nothing stored.  Otherwise the error is that of a value
that is no array, or of the first element that denotes no segment. -/
theorem loading_is_exact (j : Json) :
    ((∃ t, ofJson j = .ok t) ↔
      ∃ elements, j = .array elements ∧ ∀ x ∈ elements, ∃ s, Segment.Denotes x s) ∧
    (∀ t, ofJson j = .ok t ↔
      ∃ elements, j = .array elements ∧ List.Forall₂ Segment.Denotes elements t.segments ∧
        t = ofSegments t.segments) ∧
    ∀ e, ofJson j = .error e ↔
      ((∀ elements, j ≠ .array elements) ∧ e = .badSegment (.notAnArray j)) ∨
        ∃ elements, j = .array elements ∧
          ∃ before x after, elements = before ++ x :: after ∧
            (∀ y ∈ before, ∃ s, Segment.Denotes y s) ∧ Segment.Rejected x e := by
  refine ⟨?_, ?_, ?_⟩
  · constructor
    · rintro ⟨t, ht⟩
      obtain ⟨elements, hj, hsegments, -⟩ := ofJson_eq_ok_iff.1 ht
      exact ⟨elements, hj, exists_forall₂_iff.1 ⟨t.segments, hsegments⟩⟩
    · rintro ⟨elements, hj, helements⟩
      obtain ⟨segments, hsegments⟩ := exists_forall₂_iff.2 helements
      exact ⟨ofSegments segments, ofJson_eq_ok_iff.2 ⟨elements, hj, hsegments, rfl⟩⟩
  · intro t
    exact ofJson_eq_ok_iff
  · intro e
    exact ofJson_eq_error_iff

/-- One object with a null default, as an element and as an item of `values`: the block has no default, and
the value has the default null. -/
example :
    let j : Json := .object [("default", .null), ("param", .string "a")]
    ofJson (.array [j]) = .ok (ofSegments [.block ⟨.name "a", none⟩]) ∧
      Argument.ofJson j = .ok (.placeholder ⟨.name "a", some .null⟩) := by
  exact ⟨rfl, rfl⟩

end Template

end BoundSql
