import BoundSql.Proofs.Template.Staging

/-!
# What segments bring into a statement

Under given bindings a segment brings a piece into a statement: its text, and a value for each of its
arguments (`Segment.Brings`).  A piece is not counted; only the marks of the whole statement are.

The templates of the library put texts around the segments that they are given (`Template.Framed`).  These
texts bring no values and leave nothing open.  So a generation succeeds only if all given segments bring
something (`Template.isClosed_of_outcome_generate`), and then it is left to count the marks; the values are
those of the pieces in order (`Template.outcome_generate_of_isClosed`).
-/

namespace BoundSql

namespace Segment

/-- Whether a segment brings a text and values into a statement: those of its fragment, or of the fragment
that stands for its block. -/
def Brings (b : Bindings) (s : Segment) (piece : Statement) : Prop :=
  ∃ f, (s.expand b.block?).outcome = .ok f ∧
    (f.args.mapM (Argument.fill b.value?)).outcome = .ok piece.values ∧ piece.sql = f.text

/-- The text of a segment and the values of those of its arguments that something stands for. -/
def piece (b : Bindings) (s : Segment) : Statement :=
  ⟨Template.textOf b.block? [s], Template.valuesOf b.value? (Template.argsOf b.block? [s])⟩

/-- Whether something stands for the block of a segment, and for each of its arguments. -/
def IsClosed (b : Bindings) (s : Segment) : Prop :=
  Template.openBlock? b.block? [s] = none ∧
    Template.openValue? b.value? (Template.argsOf b.block? [s]) = none

end Segment

namespace Template

variable {blocks : Key → Option Fragment} {values : Key → Option Value} {b : Bindings}

/-! ## Segments one after the other -/

/-- Segments miss what the first of them misses, else what the others miss. -/
theorem openBlock?_cons (s : Segment) (segments : List Segment) :
    openBlock? blocks (s :: segments) = (openBlock? blocks [s]).or (openBlock? blocks segments) :=
  openBlock?_append [s] segments

/-- The text of segments is that of the first of them and that of the others. -/
theorem textOf_cons (s : Segment) (segments : List Segment) :
    textOf blocks (s :: segments) = textOf blocks [s] ++ textOf blocks segments :=
  textOf_append [s] segments

/-- The arguments of segments are those of the first of them and those of the others. -/
theorem argsOf_cons (s : Segment) (segments : List Segment) :
    argsOf blocks (s :: segments) = argsOf blocks [s] ++ argsOf blocks segments :=
  argsOf_append [s] segments

@[simp] theorem textOf_nil : textOf blocks [] = "" := rfl

@[simp] theorem openBlock?_text_cons (sql : String) (segments : List Segment) :
    openBlock? blocks (.text sql :: segments) = openBlock? blocks segments := rfl

@[simp] theorem argsOf_text_cons (sql : String) (segments : List Segment) :
    argsOf blocks (.text sql :: segments) = argsOf blocks segments := by
  rw [argsOf_cons]
  rfl

@[simp] theorem textOf_text_cons (sql : String) (segments : List Segment) :
    textOf blocks (.text sql :: segments) = sql ++ textOf blocks segments := by
  rw [textOf_cons]
  exact congrArg (· ++ textOf blocks segments) (textOf_fragment (.raw sql))

/-- Segments miss nothing when none of them does. -/
theorem open_eq_none_iff {segments : List Segment} :
    (openBlock? b.block? segments = none ∧ openValue? b.value? (argsOf b.block? segments) = none) ↔
      ∀ s ∈ segments, s.IsClosed b := by
  induction segments with
  | nil => exact iff_of_true ⟨rfl, rfl⟩ nofun
  | cons s segments ih =>
    rw [List.forall_mem_cons, ← ih, Segment.IsClosed, openBlock?_cons, argsOf_cons, openValue?_append,
      Option.or_eq_none_iff, Option.or_eq_none_iff, and_and_and_comm]

/-- The values of segments are those of each. -/
theorem valuesOf_argsOf (segments : List Segment) :
    valuesOf b.value? (argsOf b.block? segments) = segments.flatMap fun s => (s.piece b).values := by
  induction segments with
  | nil => rfl
  | cons s segments ih => rw [argsOf_cons, valuesOf_append, ih, List.flatMap_cons, Segment.piece]

end Template

namespace Segment

variable {b : Bindings} {s : Segment} {p : Statement}

/-- A segment brings its piece, if nothing of it is open, and nothing else. -/
theorem brings_iff : s.Brings b p ↔ s.IsClosed b ∧ p = s.piece b := by
  have hblock : Template.openBlock? b.block? [s] = s.openKey? b.block? := List.findSome?_singleton
  unfold Brings IsClosed
  rw [hblock]
  cases hopen : s.openKey? b.block? with
  | some key => simp [outcome_expand_of_openKey? hopen]
  | none =>
    obtain ⟨f, hpart, hexpand⟩ := outcome_expand_of_openKey?_eq_none hopen
    rw [hexpand, piece, Template.textOf_singleton hpart, Template.argsOf_singleton hpart]
    obtain ⟨sql, values⟩ := p
    simp only [Except.ok.injEq, exists_eq_left', Template.outcome_mapM_fill, true_and,
      Statement.mk.injEq]
    cases Template.openValue? b.value? f.args with
    | some key => simp
    | none => simp [and_comm, eq_comm]

/-- A fragment brings its own text. -/
theorem brings_fragment_iff {f : Fragment} :
    (fragment f).Brings b p ↔
      Template.openValue? b.value? f.args = none ∧ p = ⟨f.text, Template.valuesOf b.value? f.args⟩ := by
  have hblock : Template.openBlock? b.block? [fragment f] = none := rfl
  rw [brings_iff, IsClosed, piece, Template.textOf_fragment, Template.argsOf_fragment, hblock]
  exact and_congr_left' (and_iff_right rfl)

/-- A block brings what the fragment brings that stands for it. -/
theorem brings_block_iff {q : Placeholder Fragment} :
    (block q).Brings b p ↔ ∃ f, q.filled? b.block? = some f ∧ (fragment f).Brings b p := by
  unfold Brings
  constructor
  · rintro ⟨f, hexpand, hp⟩
    rw [expand, Placeholder.outcome_fill] at hexpand
    cases hf : q.filled? b.block? with
    | none =>
      rw [hf] at hexpand
      cases hexpand
    | some g =>
      rw [hf] at hexpand
      obtain rfl := Except.ok.inj hexpand
      exact ⟨g, rfl, g, rfl, hp⟩
  · rintro ⟨f, hf, g, hg, hp⟩
    obtain rfl := Except.ok.inj hg
    refine ⟨f, ?_, hp⟩
    rw [expand, Placeholder.outcome_fill, hf]

/-- A single mark brings the value of its placeholder. -/
theorem brings_mark_iff {q : Placeholder Value} :
    (fragment q.mark).Brings b p ↔ ∃ v, q.filled? b.value? = some v ∧ p = ⟨"?", [v]⟩ := by
  have hopen : Template.openValue? b.value? q.mark.args = q.openKey? b.value? := List.findSome?_singleton
  have hvalue : ∀ v, q.filled? b.value? = some v →
      Template.valuesOf b.value? q.mark.args = [v] := fun v hv => List.filterMap_cons_some hv
  rw [brings_fragment_iff, hopen, Placeholder.openKey?_eq_none_iff]
  constructor
  · rintro ⟨⟨v, hv⟩, rfl⟩
    exact ⟨v, hv, congrArg (Statement.mk "?") (hvalue v hv)⟩
  · rintro ⟨v, hv, rfl⟩
    exact ⟨⟨v, hv⟩, congrArg (Statement.mk "?") (hvalue v hv).symm⟩

/-- Nothing of a plain text is open. -/
theorem isClosed_text (sql : String) : (text sql).IsClosed b := ⟨rfl, rfl⟩

/-- The piece of a plain text is the text. -/
theorem piece_text (sql : String) : (text sql).piece b = ⟨sql, []⟩ := by
  rw [piece, Template.textOf_text_cons, Template.argsOf_text_cons, Template.textOf_nil,
    String.append_empty]
  rfl

/-- A plain text brings itself. -/
theorem brings_text_iff {sql : String} : (text sql).Brings b p ↔ p = ⟨sql, []⟩ := by
  rw [brings_iff, piece_text]
  exact and_iff_right (isClosed_text sql)

end Segment

namespace Template

variable {b : Bindings} {s : Statement}

/-- The text of some segments and the values of those of their arguments that something stands for. -/
def pieceOf (b : Bindings) (segments : List Segment) : Statement :=
  ⟨textOf b.block? segments, segments.flatMap fun x => (x.piece b).values⟩

/-- Without segments there is no text and no value. -/
theorem pieceOf_nil : pieceOf b [] = ⟨"", []⟩ := rfl

/-- The pieces of segments follow one another. -/
theorem pieceOf_cons (x : Segment) (segments : List Segment) :
    pieceOf b (x :: segments) =
      ⟨(x.piece b).sql ++ (pieceOf b segments).sql, (x.piece b).values ++ (pieceOf b segments).values⟩ := by
  rw [pieceOf, textOf_cons, List.flatMap_cons]
  rfl

/-! ## Given segments with texts around them -/

/-- Whether segments are the given ones in their order, with texts around them. -/
inductive Framed : List Segment → List Segment → Prop
  | nil : Framed [] []
  | text (sql : String) {given segments : List Segment} (h : Framed given segments) :
      Framed given (.text sql :: segments)
  | given (x : Segment) {given segments : List Segment} (h : Framed given segments) :
      Framed (x :: given) (x :: segments)

namespace Framed

variable {blocks : Key → Option Fragment} {given segments given' segments' : List Segment}

/-- Segments may stand without texts. -/
theorem refl : ∀ xs : List Segment, Framed xs xs
  | [] => .nil
  | x :: xs => .given x (refl xs)

/-- Neighbours are framed one by one. -/
theorem append (h : Framed given segments) (h' : Framed given' segments') :
    Framed (given ++ given') (segments ++ segments') := by
  induction h with
  | nil => exact h'
  | text sql _ ih => exact .text sql ih
  | given x _ ih => exact .given x ih

/-- Texts around segments are no blocks. -/
theorem openBlock?_eq (h : Framed given segments) :
    openBlock? blocks segments = openBlock? blocks given := by
  induction h with
  | nil => rfl
  | text sql _ ih => exact ih
  | given x _ ih => rw [openBlock?_cons, ih, ← openBlock?_cons]

/-- Texts around segments have no arguments. -/
theorem argsOf_eq (h : Framed given segments) : argsOf blocks segments = argsOf blocks given := by
  induction h with
  | nil => rfl
  | text sql _ ih => rw [argsOf_text_cons, ih]
  | given x _ ih => rw [argsOf_cons, ih, ← argsOf_cons]

/-- Texts around segments leave nothing open. -/
theorem forall_isClosed_iff (h : Framed given segments) :
    (∀ x ∈ segments, x.IsClosed b) ↔ ∀ x ∈ given, x.IsClosed b := by
  rw [← open_eq_none_iff, ← open_eq_none_iff, h.openBlock?_eq, h.argsOf_eq]

end Framed

variable {given segments : List Segment}

/-- If all given segments bring something, only the marks are left to be counted. -/
theorem outcome_generate_of_isClosed (h : Framed given segments) (hgiven : ∀ x ∈ given, x.IsClosed b) :
    ((ofSegments segments).generate b).outcome =
      Statement.checked (textOf b.block? segments) (given.flatMap fun x => (x.piece b).values) := by
  obtain ⟨hblocks, hvalues⟩ := open_eq_none_iff.2 hgiven
  rw [outcome_generate_ofSegments, statementOf, h.openBlock?_eq, h.argsOf_eq, hblocks, hvalues,
    valuesOf_argsOf]
  rfl

/-- If a generation succeeds, all given segments bring something. -/
theorem isClosed_of_outcome_generate (h : Framed given segments)
    (hs : ((ofSegments segments).generate b).outcome = .ok s) : ∀ x ∈ given, x.IsClosed b := by
  rw [outcome_generate_ofSegments, statementOf_eq_ok_iff, h.openBlock?_eq, h.argsOf_eq] at hs
  exact open_eq_none_iff.1 ⟨hs.1, hs.2.1⟩

end Template

end BoundSql
