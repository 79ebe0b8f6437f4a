import BoundSql.Proofs.Condition.Traversal
import BoundSql.Proofs.Template.Alignment

/-!
# Where marks without arguments come from

A `Composition` is a tree of operations of the library, and `Composition.fragment` carries it out.  The
tree tells which joiners get into the text of its fragment (`Composition.joiners`) and which columns
(`Composition.columns`).  These are the only strings that are put into a text unseen, so their marks are
what the text has beyond one mark for each argument (`Composition.marks_accounted`).  A text that is empty
has none of them, and so no argument is ever lost with an operand that is dropped for its empty text.
-/

namespace BoundSql

namespace Condition

/-- The column that a condition itself puts into the text. -/
def column? (allowed : AllowList) : Condition → Option String
  | .compare field _ _ => allowed.column? field
  | _ => none

/-- The columns in the text of a condition, from left to right. -/
def columns (allowed : AllowList) (c : Condition) : List String :=
  c.preorder.filterMap (column? allowed)

mutual

/-- The marks in the columns of a condition, column by column. -/
theorem sum_markCount_columns (allowed : AllowList) (c : Condition) :
    ((c.columns allowed).map markCount).sum = c.columnMarks allowed := by
  cases c with
  | empty => rfl
  | compare field word value =>
    rw [columns, preorder, columnMarks, List.filterMap_cons, column?]
    cases allowed.column? field with
    | none => rfl
    | some column => exact Nat.add_zero _
  | group word children => exact sum_markCount_columnsOfAll allowed children

/-- The same for the columns of some conditions. -/
theorem sum_markCount_columnsOfAll (allowed : AllowList) (cs : List Condition) :
    (((preorderOfAll cs).filterMap (column? allowed)).map markCount).sum =
      columnMarksOfAll allowed cs := by
  cases cs with
  | nil => rfl
  | cons c cs =>
    rw [preorderOfAll, columnMarksOfAll, List.filterMap_append, List.map_append, List.sum_append,
      sum_markCount_columnsOfAll allowed cs, ← sum_markCount_columns allowed c]
    rfl

end

end Condition

namespace Fragment

/-- The number of marks that a fragment has beyond its arguments. -/
def surplus (f : Fragment) : Nat := markCount f.text - f.args.length

/-- A composed fragment has the surplus that it is composed with. -/
theorem Composed.surplus_eq {f : Fragment} {n : Nat} (h : Composed f n) : f.surplus = n := by
  rw [surplus, h.markCount_eq, Nat.add_sub_cancel_left]

end Fragment

/-- Operations of the library, composed as a tree.  A statement that is filled from a composition belongs
to the tree; that of a template is a leaf of it, and hides no surplus of what it was made of
(`Composition.surplus_eq_zero_of_generate`). -/
inductive Composition
  | checked (sql : String) (args : List Argument)
  | plain (sql : String)
  | empty
  | mark (a : Argument)
  | named (sql : String)
  | wrap (p : Placeholder Value) (sql : String)
  | slot (p : Placeholder Value)
  | join (joiner : String) (parts : List Composition)
  | asWhere (e : Composition)
  | render (c : Comparison) (column : String) (v : Value)
  | comparison (column word : String) (v : Value)
  | connect (c : Connective) (operands : List Composition)
  | group (word : String) (operands : List Composition)
  | compile (c : Condition) (allowed : AllowList)
  | clause (o : SortOrder)
  | fill (e : Composition) (b : Bindings)
  | generate (t : Template) (b : Bindings)

namespace Composition

mutual

/-- The fragment that a composition makes. -/
def fragment : Composition → Except Error Fragment
  | .checked sql args => Fragment.checked sql args
  | .plain sql => Fragment.plain sql
  | .empty => .ok .empty
  | .mark a => .ok (.mark a)
  | .named sql => Fragment.ofNamed sql
  | .wrap p sql => p.wrap sql
  | .slot p => .ok p.mark
  | .join joiner parts => do
    let fs ← fragments parts
    return .join joiner fs
  | .asWhere e => do
    let f ← e.fragment
    return f.asWhere
  | .render c column v => .ok (c.render column v)
  | .comparison column word v => Fragment.comparison column word v
  | .connect c operands => do
    let fs ← fragments operands
    return c.join fs
  | .group word operands => do
    let fs ← fragments operands
    Fragment.group word fs
  | .compile c allowed => (c.compile allowed).outcome
  | .clause o => .ok o.clause
  | .fill e b => do
    let f ← e.fragment
    let s ← (f.fill b).outcome
    return s.toFragment
  | .generate t b => do
    let s ← (t.generate b).outcome
    return s.toFragment

/-- The fragments that some compositions make. -/
def fragments : List Composition → Except Error (List Fragment)
  | [] => .ok []
  | e :: es => do
    let f ← e.fragment
    let fs ← fragments es
    return f :: fs

end

mutual

/-- The joiners that a composition puts into its text.  Those of connectives are not among them: they are
fixed and have no mark. -/
def joiners : Composition → List String
  | .join joiner parts =>
    joinersOfAll parts ++
      match fragments parts with
      | .ok fs => Fragment.insertedJoiners joiner "" (fs.map Fragment.text)
      | .error _ => []
  | .asWhere e => e.joiners
  | .connect _ operands => joinersOfAll operands
  | .group _ operands => joinersOfAll operands
  | .fill e _ => e.joiners
  | _ => []

/-- The joiners of some compositions. -/
def joinersOfAll : List Composition → List String
  | [] => []
  | e :: es => e.joiners ++ joinersOfAll es

end

mutual

/-- The columns that a composition puts into its text. -/
def columns : Composition → List String
  | .join _ parts => columnsOfAll parts
  | .asWhere e => e.columns
  | .render _ column _ => [column]
  | .comparison column _ _ => [column]
  | .connect _ operands => columnsOfAll operands
  | .group _ operands => columnsOfAll operands
  | .compile c allowed => c.columns allowed
  | .clause o => o.columns
  | .fill e _ => e.columns
  | _ => []

/-- The columns of some compositions. -/
def columnsOfAll : List Composition → List String
  | [] => []
  | e :: es => e.columns ++ columnsOfAll es

end

/-! ## Marks beyond arguments -/

/-- The marks in the joiners and the columns of a composition. -/
def surplus (e : Composition) : Nat :=
  (e.joiners.map markCount).sum + (e.columns.map markCount).sum

/-- The marks in the joiners and the columns of some compositions. -/
def surplusOfAll (es : List Composition) : Nat :=
  ((joinersOfAll es).map markCount).sum + ((columnsOfAll es).map markCount).sum

/-- The surplus of some compositions is that of the first and that of the others. -/
theorem surplusOfAll_cons (e : Composition) (es : List Composition) :
    surplusOfAll (e :: es) = e.surplus + surplusOfAll es := by
  simp only [surplusOfAll, surplus, joinersOfAll, columnsOfAll, List.map_append, List.sum_append]
  omega

/-- Joining adds the marks of the joiners between the parts. -/
theorem surplus_join {parts : List Composition} {fs : List Fragment} (h : fragments parts = .ok fs)
    (joiner : String) :
    (join joiner parts).surplus =
      surplusOfAll parts + Fragment.joinerCount (fs.map Fragment.text) * markCount joiner := by
  simp only [surplus, surplusOfAll, joiners, columns, h, Fragment.insertedJoiners_empty,
    List.map_append, List.sum_append, List.map_replicate, List.sum_replicate_nat]
  omega

mutual

/-- The fragment of a composition is composed, with the surplus of the composition. -/
theorem composed {e : Composition} {f : Fragment} (h : e.fragment = .ok f) :
    Fragment.Composed f e.surplus := by
  cases e with
  | checked sql args => exact .checked h
  | plain sql => exact .plain h
  | empty =>
    obtain rfl := Except.ok.inj h
    exact .empty
  | mark a =>
    obtain rfl := Except.ok.inj h
    exact .mark a
  | named sql => exact .ofNamed h
  | wrap p sql => exact .wrap h
  | slot p =>
    obtain rfl := Except.ok.inj h
    exact .slot p
  | join joiner parts =>
    obtain ⟨fs, hfs, hf⟩ := Outcome.bind_eq_ok_iff.1 h
    obtain rfl := Except.ok.inj hf
    obtain ⟨hparts, hsum⟩ := composedAll hfs
    rw [surplus_join hfs, ← hsum]
    exact .join joiner fs Fragment.surplus hparts
  | asWhere e =>
    obtain ⟨g, hg, hf⟩ := Outcome.bind_eq_ok_iff.1 h
    obtain rfl := Except.ok.inj hf
    have hsurplus : (asWhere e).surplus = e.surplus := rfl
    rw [hsurplus]
    exact .asWhere (composed hg)
  | render c column v =>
    obtain rfl := Except.ok.inj h
    have hcolumn : (render c column v).surplus = markCount column := Nat.zero_add _
    rw [hcolumn]
    exact .render c column v
  | comparison column word v =>
    have hcolumn : (comparison column word v).surplus = markCount column := Nat.zero_add _
    rw [hcolumn]
    exact .comparison h
  | connect c operands =>
    obtain ⟨fs, hfs, hf⟩ := Outcome.bind_eq_ok_iff.1 h
    obtain rfl := Except.ok.inj hf
    obtain ⟨hoperands, hsum⟩ := composedAll hfs
    have hsurplus : (connect c operands).surplus = surplusOfAll operands := rfl
    rw [hsurplus, ← hsum]
    exact .connect c fs Fragment.surplus hoperands
  | group word operands =>
    obtain ⟨fs, hfs, hf⟩ := Outcome.bind_eq_ok_iff.1 h
    obtain ⟨hoperands, hsum⟩ := composedAll hfs
    have hsurplus : (group word operands).surplus = surplusOfAll operands := rfl
    rw [hsurplus, ← hsum]
    exact .group fs Fragment.surplus hoperands hf
  | compile c allowed =>
    have hcolumns : (compile c allowed).surplus = c.columnMarks allowed :=
      (Nat.zero_add _).trans (Condition.sum_markCount_columns allowed c)
    rw [hcolumns]
    exact .compile h
  | clause o =>
    obtain rfl := Except.ok.inj h
    have hcolumns : (clause o).surplus = (o.columns.map markCount).sum := Nat.zero_add _
    rw [hcolumns]
    exact .clause o
  | fill e b =>
    obtain ⟨g, hg, hrest⟩ := Outcome.bind_eq_ok_iff.1 h
    obtain ⟨s, hs, hf⟩ := Outcome.bind_eq_ok_iff.1 hrest
    obtain rfl := Except.ok.inj hf
    -- The marks of what is filled were counted, so there is no surplus.
    obtain ⟨-, hmarks, -⟩ := Template.outcome_fillWith_eq_ok_iff.1 hs
    have hsurplus : (fill e b).surplus = 0 := by
      have heq := (composed hg).markCount_eq
      rw [hmarks] at heq
      exact Nat.left_eq_add.1 heq
    rw [hsurplus]
    exact .fill hs
  | generate t b =>
    obtain ⟨s, hs, hf⟩ := Outcome.bind_eq_ok_iff.1 h
    obtain rfl := Except.ok.inj hf
    exact .generate hs

/-- The same for some compositions, whose surplus is that of their fragments. -/
theorem composedAll {es : List Composition} {fs : List Fragment} (h : fragments es = .ok fs) :
    (∀ f ∈ fs, Fragment.Composed f f.surplus) ∧ (fs.map Fragment.surplus).sum = surplusOfAll es := by
  cases es with
  | nil =>
    obtain rfl := Except.ok.inj h
    exact ⟨fun f hf => absurd hf List.not_mem_nil, rfl⟩
  | cons e es =>
    obtain ⟨f, hf, hrest⟩ := Outcome.bind_eq_ok_iff.1 h
    obtain ⟨gs, hgs, hfs⟩ := Outcome.bind_eq_ok_iff.1 hrest
    obtain rfl := Except.ok.inj hfs
    have hfirst := composed hf
    obtain ⟨hall, hsum⟩ := composedAll hgs
    have hsurplus := hfirst.surplus_eq
    refine ⟨?_, ?_⟩
    · intro g hg
      rcases List.mem_cons.1 hg with rfl | hg
      · rw [hsurplus]
        exact hfirst
      · exact hall g hg
    · rw [List.map_cons, List.sum_cons, surplusOfAll_cons, hsum, hsurplus]

end

/-- What a composition makes is composed. -/
theorem isComposed {e : Composition} {f : Fragment} (h : e.fragment = .ok f) : f.IsComposed :=
  ⟨e.surplus, composed h⟩

/-- If a template has a statement and its parts are plain texts and fragments of compositions, these
compositions have no surplus. -/
theorem surplus_eq_zero_of_generate {t : Template} {b : Bindings} {s : Statement}
    {parts : List Fragment} (hs : (t.generate b).outcome = .ok s)
    (hparts : (t.segments.mapM (Segment.expand (t.block? b))).outcome = .ok parts)
    (hmade : ∀ p ∈ parts, (∃ sql, p = .raw sql) ∨ ∃ e : Composition, e.fragment = .ok p)
    {e : Composition} {f : Fragment} (hf : f ∈ parts) (he : e.fragment = .ok f) : e.surplus = 0 := by
  have hassemble : (t.assemble b).outcome = .ok (.join "" parts) := by
    rw [Template.assemble, Traced.outcome_bind, hparts]
    rfl
  rw [Template.outcome_generate_eq_bind, hassemble, Outcome.ok_bind] at hs
  obtain ⟨-, hmarks, -⟩ := Template.outcome_fillWith_eq_ok_iff.1 hs
  have hle : ∀ p ∈ parts, p.args.length ≤ markCount p.text := by
    intro p hp
    rcases hmade p hp with ⟨sql, rfl⟩ | ⟨e', he'⟩
    · exact Nat.zero_le _
    · exact (isComposed he').length_args_le
  have hsum : (parts.map fun p => markCount p.text).sum = (parts.map fun p => p.args.length).sum := by
    rw [← Fragment.markCount_join_empty, ← Fragment.length_args_join ""]
    exact hmarks
  have heq := (composed he).markCount_eq
  rw [Template.markCount_eq_of_sum_eq hle hsum f hf] at heq
  exact Nat.left_eq_add.1 heq

/-- The marks of a composition are one for each argument and those of its joiners and columns.  So the
arguments never outnumber the marks, both are equally many if no joiner and no column has a mark, and
without a text there is no argument: a `where` clause that vanishes had none, and a connective keeps the
arguments of all operands, those that it drops for their empty text included. -/
theorem marks_accounted {e : Composition} {f : Fragment} (h : e.fragment = .ok f) :
    markCount f.text =
      f.args.length + ((e.joiners.map markCount).sum + (e.columns.map markCount).sum) ∧
    f.args.length ≤ markCount f.text ∧
    ((∀ s ∈ e.joiners ++ e.columns, markCount s = 0) → markCount f.text = f.args.length) ∧
    (f.isEmpty → f.args = []) ∧
    (f.asWhere.args = f.args ∧ (f.asWhere.isEmpty → f.args = [])) ∧
    ∀ (c : Connective) (es : List Composition) (fs : List Fragment), fragments es = .ok fs →
      (c.join fs).args = fs.flatMap Fragment.args := by
  have hmarks : markCount f.text = f.args.length + e.surplus := (composed h).markCount_eq
  have hle : f.args.length ≤ markCount f.text := (isComposed h).length_args_le
  have hwhere : f.asWhere.args.length ≤ markCount f.asWhere.text := by
    rw [Fragment.args_asWhere, Fragment.markCount_asWhere]
    exact hle
  refine ⟨hmarks, hle, ?_, Fragment.args_eq_nil_of_isEmpty hle, ⟨Fragment.args_asWhere f, ?_⟩, ?_⟩
  · intro hunmarked
    have hsurplus : ((e.joiners ++ e.columns).map markCount).sum = 0 := by
      refine List.sum_eq_zero fun n hn => ?_
      obtain ⟨s, hs, rfl⟩ := List.mem_map.1 hn
      exact hunmarked s hs
    rw [List.map_append, List.sum_append] at hsurplus
    rw [hmarks, surplus, hsurplus, Nat.add_zero]
  · intro hvanishes
    rw [← Fragment.args_asWhere f]
    exact Fragment.args_eq_nil_of_isEmpty hwhere hvanishes
  · intro c es fs hfs
    have hoperands : ∀ g ∈ fs, g.args.length ≤ markCount g.text := by
      intro g hg
      exact Fragment.IsComposed.length_args_le ⟨g.surplus, (composedAll hfs).1 g hg⟩
    exact Fragment.args_connective_join c hoperands

/-- A joiner and a column with a mark, joined between parts that are empty at both ends: the joiner stands
in the text twice, and the statement could not be filled. -/
theorem marks_accounted_of_marked_joiner :
    let operands : List Composition := [.empty, .comparison "doc ? tag" "=" (.int 1)]
    let e : Composition := .join " ? " [.empty, .plain "a", .asWhere (.connect .and operands), .empty]
    let f : Fragment := ⟨"a ? where ((doc ? tag) = ?) ? ", [.value (.int 1)]⟩
    e.fragment = .ok f ∧ e.joiners = [" ? ", " ? "] ∧ e.columns = ["doc ? tag"] ∧
      markCount f.text = f.args.length + (2 + 1) := by
  intro operands e f
  have h : e.fragment = .ok f := rfl
  have hjoiners : e.joiners = [" ? ", " ? "] := rfl
  have hcolumns : e.columns = ["doc ? tag"] := rfl
  have hmarks := (marks_accounted h).1
  rw [hjoiners, hcolumns] at hmarks
  exact ⟨h, hjoiners, hcolumns, hmarks⟩

end Composition

end BoundSql
