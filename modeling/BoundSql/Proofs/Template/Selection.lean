import BoundSql.Proofs.Template.Pieces
import BoundSql.Template.Commands
import Mathlib.Data.List.Induction

/-!
# Queries and the calls that make them

A query may be put together in any order of calls.  What comes of them are the columns in the order in which
they were added, whether distinct rows were asked for, and of everything else what was asked for last
(`Selection.Request`).  The query after some calls is the one that their request describes
(`Selection.afterAll_eq`), so calls with the same request make the same template.

The statement of that template lists the columns and then writes down what the table, the join, the
condition, the order and the paging part bring, each on a line of its own (`Statement.selected`).
-/

namespace BoundSql

/-- The statement that selects columns of the rows of a table, with what the join, the condition, the order and
the paging part bring. -/
def Statement.selected (distinct : Bool) (columns : List String)
    (table join condition order page : Statement) : Statement where
  sql := "select " ++ (if distinct then "distinct " else "") ++ ", ".intercalate columns ++ "\n" ++
    "from " ++ table.sql ++ "\n" ++ join.sql ++ "\n" ++ condition.sql ++ "\n" ++ order.sql ++ "\n" ++
    page.sql
  values := table.values ++ join.values ++ condition.values ++ order.values ++ page.values

namespace RowQuantity

/-- What a number of rows brings into a statement: its digits, what the fragment of its block brings, or a
mark and its value. -/
inductive Gives (b : Bindings) : RowQuantity → Statement → Prop
  | rows (n : UInt64) : Gives b (.rows n) ⟨toString n.toNat, []⟩
  | block {p : Placeholder Fragment} {f : Fragment} {piece : Statement} (hf : p.filled? b.block? = some f)
      (hpiece : (Segment.fragment f).Brings b piece) : Gives b (.block p) piece
  | value {p : Placeholder Value} {v : Value} (hv : p.filled? b.value? = some v) :
      Gives b (.value p) ⟨"?", [v]⟩

/-- The segment of a number of rows brings what the number gives. -/
theorem brings_toSegment_iff {b : Bindings} {q : RowQuantity} {piece : Statement} :
    q.toSegment.Brings b piece ↔ q.Gives b piece := by
  cases q with
  | rows n =>
    rw [toSegment, Segment.brings_text_iff]
    constructor
    · rintro rfl
      exact .rows n
    · intro h
      cases h
      rfl
  | block p =>
    rw [toSegment, Segment.brings_block_iff]
    constructor
    · rintro ⟨f, hf, hpiece⟩
      exact .block hf hpiece
    · intro h
      cases h with
      | block hf hpiece => exact ⟨_, hf, hpiece⟩
  | value p =>
    rw [toSegment, Segment.brings_mark_iff]
    constructor
    · rintro ⟨v, hv, rfl⟩
      exact .value hv
    · intro h
      cases h with
      | value hv => exact ⟨_, hv, rfl⟩

/-- A number of rows gives the piece of its segment, if nothing of it is open, and nothing else. -/
theorem gives_iff {b : Bindings} {q : RowQuantity} {piece : Statement} :
    q.Gives b piece ↔ q.toSegment.IsClosed b ∧ piece = q.toSegment.piece b :=
  brings_toSegment_iff.symm.trans Segment.brings_iff

end RowQuantity

namespace Selection

/-! ## Calls -/

/-- A call that adds something to a query or changes something of it. -/
inductive Call
  | column (expr : String)
  | columnAs (expr label : String)
  | columns (exprs : List String)
  | distinct
  | join (s : Segment)
  | condition (s : Segment)
  | order (s : Segment)
  | offset (n : RowQuantity)
  | count (n : RowQuantity)

namespace Call

/-- The columns that a call adds. -/
def addedColumns : Call → List String
  | .column expr => [expr]
  | .columnAs expr label => [expr ++ " as " ++ label]
  | .columns exprs => exprs
  | _ => []

/-- Whether a call asks for distinct rows. -/
def asksDistinct : Call → Bool
  | .distinct => true
  | _ => false

/-- The join that a call asks for. -/
def join? : Call → Option Segment
  | .join s => some s
  | _ => none

/-- The condition that a call asks for. -/
def condition? : Call → Option Segment
  | .condition s => some s
  | _ => none

/-- The order that a call asks for. -/
def order? : Call → Option Segment
  | .order s => some s
  | _ => none

/-- The number of rows that a call skips. -/
def offset? : Call → Option RowQuantity
  | .offset n => some n
  | _ => none

/-- The number of rows that a call limits a query to. -/
def count? : Call → Option RowQuantity
  | .count n => some n
  | _ => none

end Call

/-- The query after a call. -/
def after (s : Selection) : Call → Selection
  | .column expr => s.addColumn expr
  | .columnAs expr label => s.addColumnAs expr label
  | .columns exprs => s.addColumns exprs
  | .distinct => s.setDistinct
  | .join j => s.setJoin j
  | .condition c => s.setCondition c
  | .order o => s.setOrder o
  | .offset n => s.setOffset n
  | .count n => s.setCount n

/-- The query after some calls. -/
def afterAll (s : Selection) (calls : List Call) : Selection := calls.foldl after s

/-- What calls ask for, whatever the order in which they do. -/
structure Request where
  columns : List String
  distinct : Bool
  join? : Option Segment
  condition? : Option Segment
  order? : Option Segment
  offset? : Option RowQuantity
  count? : Option RowQuantity
  deriving DecidableEq

namespace Request

/-- All columns in order, whether distinct rows were asked for, and of everything else the last. -/
def ofCalls (calls : List Call) : Request where
  columns := calls.flatMap Call.addedColumns
  distinct := calls.any Call.asksDistinct
  join? := (calls.filterMap Call.join?).getLast?
  condition? := (calls.filterMap Call.condition?).getLast?
  order? := (calls.filterMap Call.order?).getLast?
  offset? := (calls.filterMap Call.offset?).getLast?
  count? := (calls.filterMap Call.count?).getLast?

/-- The query on a table that a request describes; what was not asked for is empty. -/
def select (r : Request) (table : Segment) : Selection where
  table := table
  columns := r.columns
  distinct := r.distinct
  join := r.join?.getD (.text "")
  condition := r.condition?.getD (.text "")
  order := r.order?.getD (.text "")
  offset? := r.offset?
  count? := r.count?

/-- One more call makes a query into the one that is described with this call too. -/
theorem select_after (calls : List Call) (c : Call) (table : Segment) :
    ((ofCalls calls).select table).after c = (ofCalls (calls ++ [c])).select table := by
  cases c <;> simp [ofCalls, select, after, addColumn, addColumnAs, addColumns, setDistinct, setJoin,
    setCondition, setOrder, setOffset, setCount, Call.addedColumns, Call.asksDistinct, Call.join?,
    Call.condition?, Call.order?, Call.offset?, Call.count?]

end Request

/-- The query after some calls is the one that is asked for. -/
theorem afterAll_eq (calls : List Call) (table : Segment) :
    (ofTable table).afterAll calls = (Request.ofCalls calls).select table := by
  induction calls using List.reverseRecOn with
  | nil => rfl
  | append_singleton calls c ih =>
    have hlast : (ofTable table).afterAll (calls ++ [c]) = ((ofTable table).afterAll calls).after c :=
      List.foldl_concat ..
    rw [hlast, ih, Request.select_after]

/-! ## Statements -/

/-- What an offset and a count bring into a statement.  Without both there is nothing, and a count without an
offset starts at row zero. -/
inductive Pages (b : Bindings) : Option RowQuantity → Option RowQuantity → Statement → Prop
  | nothing : Pages b none none ⟨"", []⟩
  | offset {x : RowQuantity} {start : Statement} (hx : x.Gives b start) :
      Pages b (some x) none ⟨"offset " ++ start.sql ++ " rows", start.values⟩
  | limited {x? : Option RowQuantity} {y : RowQuantity} {start limit : Statement}
      (hx : (x?.getD (.rows 0)).Gives b start) (hy : y.Gives b limit) :
      Pages b x? (some y)
        ⟨"offset " ++ start.sql ++ " rows" ++ "\n" ++ "fetch next " ++ limit.sql ++ " rows only",
          start.values ++ limit.values⟩

variable {b : Bindings} {s : Selection} {p : Statement}

/-- With a count there is a row to start at. -/
theorem paging_of_count {y : RowQuantity} (h : s.count? = some y) :
    s.paging = [.text "offset ", (s.offset?.getD (.rows 0)).toSegment, .text " rows", .text "\n",
      .text "fetch next ", y.toSegment, .text " rows only"] := by
  unfold paging startingRow?
  rw [h]
  cases s.offset? <;> rfl

/-- Without a count the offset decides whether there is a paging part. -/
theorem paging_of_no_count (h : s.count? = none) :
    s.paging = match s.offset? with
      | none => []
      | some x => [.text "offset ", x.toSegment, .text " rows"] := by
  unfold paging startingRow?
  rw [h]
  cases s.offset? <;> rfl

/-- Without a count the paging part is empty or brings what its offset gives. -/
theorem pages_iff_of_no_count (hcount : s.count? = none) :
    Pages b s.offset? none p ↔ (∀ x ∈ s.paging, x.IsClosed b) ∧ p = Template.pieceOf b s.paging := by
  rw [paging_of_no_count hcount]
  cases s.offset? with
  | none =>
    constructor
    · intro h
      cases h
      exact ⟨nofun, rfl⟩
    · rintro ⟨-, rfl⟩
      exact .nothing
  | some x =>
    have hframed : Template.Framed [x.toSegment] [.text "offset ", x.toSegment, .text " rows"] :=
      .text _ (.given _ (.text _ .nil))
    have hpiece : Template.pieceOf b [.text "offset ", x.toSegment, .text " rows"] =
        ⟨"offset " ++ (x.toSegment.piece b).sql ++ " rows", (x.toSegment.piece b).values⟩ := by
      simp only [Template.pieceOf_cons, Template.pieceOf_nil, Segment.piece_text, List.nil_append,
        List.append_nil, String.append_empty, String.append_assoc]
    rw [hframed.forall_isClosed_iff, List.forall_mem_singleton, hpiece]
    constructor
    · intro h
      cases h with
      | offset hx =>
        obtain ⟨hstart, rfl⟩ := RowQuantity.gives_iff.1 hx
        exact ⟨hstart, rfl⟩
    · rintro ⟨hstart, rfl⟩
      exact .offset (RowQuantity.gives_iff.2 ⟨hstart, rfl⟩)

/-- With a count the paging part brings what its offset and its count give. -/
theorem pages_iff_of_count {y : RowQuantity} (hcount : s.count? = some y) :
    Pages b s.offset? (some y) p ↔
      (∀ x ∈ s.paging, x.IsClosed b) ∧ p = Template.pieceOf b s.paging := by
  rw [paging_of_count hcount]
  generalize s.offset? = x?
  have hframed : Template.Framed [(x?.getD (.rows 0)).toSegment, y.toSegment]
      [.text "offset ", (x?.getD (.rows 0)).toSegment, .text " rows", .text "\n", .text "fetch next ",
        y.toSegment, .text " rows only"] :=
    .text _ (.given _ (.text _ (.text _ (.text _ (.given _ (.text _ .nil))))))
  have hpiece : Template.pieceOf b [.text "offset ", (x?.getD (.rows 0)).toSegment, .text " rows",
      .text "\n", .text "fetch next ", y.toSegment, .text " rows only"] =
      ⟨"offset " ++ ((x?.getD (.rows 0)).toSegment.piece b).sql ++ " rows" ++ "\n" ++ "fetch next " ++
        (y.toSegment.piece b).sql ++ " rows only",
        ((x?.getD (.rows 0)).toSegment.piece b).values ++ (y.toSegment.piece b).values⟩ := by
    simp only [Template.pieceOf_cons, Template.pieceOf_nil, Segment.piece_text, List.nil_append,
      List.append_nil, String.append_empty, String.append_assoc]
  rw [hframed.forall_isClosed_iff, List.forall_mem_cons, List.forall_mem_singleton, hpiece]
  constructor
  · intro h
    cases h with
    | limited hx hy =>
      obtain ⟨hstart, rfl⟩ := RowQuantity.gives_iff.1 hx
      obtain ⟨hlimit, rfl⟩ := RowQuantity.gives_iff.1 hy
      exact ⟨⟨hstart, hlimit⟩, rfl⟩
  · rintro ⟨⟨hstart, hlimit⟩, rfl⟩
    exact .limited (RowQuantity.gives_iff.2 ⟨hstart, rfl⟩) (RowQuantity.gives_iff.2 ⟨hlimit, rfl⟩)

/-- The paging part brings its piece, if nothing of it is open, and nothing else. -/
theorem pages_iff :
    Pages b s.offset? s.count? p ↔
      (∀ x ∈ s.paging, x.IsClosed b) ∧ p = Template.pieceOf b s.paging := by
  cases hcount : s.count? with
  | none => exact pages_iff_of_no_count hcount
  | some y => exact pages_iff_of_count hcount

/-- Nothing is written for the paging part exactly if neither an offset nor a count was asked for. -/
theorem Pages.sql_eq_empty_iff {offset? count? : Option RowQuantity} (h : Pages b offset? count? p) :
    p.sql = "" ↔ offset? = none ∧ count? = none := by
  cases h with
  | nothing => exact iff_of_true rfl ⟨rfl, rfl⟩
  | offset hx => simp
  | limited hx hy => simp

/-- The segments of a query of which something may be open, in the order in which they are written. -/
def parts (s : Selection) : List Segment := s.table :: s.join :: s.condition :: s.order :: s.paging

/-- The template of a query is made of its parts, with texts around them. -/
theorem framed_build (s : Selection) : Template.Framed s.parts s.build.segments :=
  .text _ (.text _ (.text _ (.text _ (.text _ (.given s.table (.text _ (.given s.join (.text _
    (.given s.condition (.text _ (.given s.order (.text _ (.refl s.paging)))))))))))))

/-- The text of a query. -/
theorem textOf_build (s : Selection) (b : Bindings) :
    Template.textOf b.block? s.build.segments =
      (Statement.selected s.distinct s.columns (s.table.piece b) (s.join.piece b) (s.condition.piece b)
        (s.order.piece b) (Template.pieceOf b s.paging)).sql := by
  unfold build Template.ofSegments Statement.selected Segment.piece Template.pieceOf
  simp only [List.cons_append, List.nil_append, Template.textOf_text_cons]
  rw [Template.textOf_cons s.table, Template.textOf_text_cons, Template.textOf_cons s.join,
    Template.textOf_text_cons, Template.textOf_cons s.condition, Template.textOf_text_cons,
    Template.textOf_cons s.order, Template.textOf_text_cons]
  simp only [String.append_assoc]

/-- A query of what its parts bring is left to be counted. -/
theorem outcome_generate_build {t j c o page : Statement} (ht : s.table.Brings b t)
    (hj : s.join.Brings b j) (hc : s.condition.Brings b c) (ho : s.order.Brings b o)
    (hpage : Pages b s.offset? s.count? page) :
    (s.build.generate b).outcome =
      Statement.checked (Statement.selected s.distinct s.columns t j c o page).sql
        (Statement.selected s.distinct s.columns t j c o page).values := by
  obtain ⟨htable, rfl⟩ := Segment.brings_iff.1 ht
  obtain ⟨hjoin, rfl⟩ := Segment.brings_iff.1 hj
  obtain ⟨hcondition, rfl⟩ := Segment.brings_iff.1 hc
  obtain ⟨horder, rfl⟩ := Segment.brings_iff.1 ho
  obtain ⟨hpaging, rfl⟩ := pages_iff.1 hpage
  have hparts : ∀ x ∈ s.parts, x.IsClosed b := by
    rw [parts, List.forall_mem_cons, List.forall_mem_cons, List.forall_mem_cons, List.forall_mem_cons]
    exact ⟨htable, hjoin, hcondition, horder, hpaging⟩
  refine (Template.outcome_generate_of_isClosed (framed_build s) hparts).trans ?_
  rw [textOf_build, parts, List.flatMap_cons, List.flatMap_cons, List.flatMap_cons, List.flatMap_cons]
  unfold Statement.selected Template.pieceOf
  simp only [List.append_assoc]

/-- A query gives a statement if all its parts bring something and the marks are as many as the values; the
statement is made of what they bring. -/
theorem outcome_generate_build_eq_ok_iff {r : Statement} :
    (s.build.generate b).outcome = .ok r ↔
      ∃ t j c o page, s.table.Brings b t ∧ s.join.Brings b j ∧ s.condition.Brings b c ∧
        s.order.Brings b o ∧ Pages b s.offset? s.count? page ∧ markCount r.sql = r.values.length ∧
        r = .selected s.distinct s.columns t j c o page := by
  constructor
  · intro h
    have hparts := Template.isClosed_of_outcome_generate (framed_build s) h
    rw [parts, List.forall_mem_cons, List.forall_mem_cons, List.forall_mem_cons, List.forall_mem_cons]
      at hparts
    obtain ⟨htable, hjoin, hcondition, horder, hpaging⟩ := hparts
    have ht : s.table.Brings b (s.table.piece b) := Segment.brings_iff.2 ⟨htable, rfl⟩
    have hj : s.join.Brings b (s.join.piece b) := Segment.brings_iff.2 ⟨hjoin, rfl⟩
    have hc : s.condition.Brings b (s.condition.piece b) := Segment.brings_iff.2 ⟨hcondition, rfl⟩
    have ho : s.order.Brings b (s.order.piece b) := Segment.brings_iff.2 ⟨horder, rfl⟩
    have hpage : Pages b s.offset? s.count? (Template.pieceOf b s.paging) := pages_iff.2 ⟨hpaging, rfl⟩
    rw [outcome_generate_build ht hj hc ho hpage, Statement.checked_eq_ok_iff] at h
    obtain ⟨hmarks, rfl⟩ := h
    exact ⟨_, _, _, _, _, ht, hj, hc, ho, hpage, hmarks, rfl⟩
  · rintro ⟨t, j, c, o, page, ht, hj, hc, ho, hpage, hmarks, rfl⟩
    rw [outcome_generate_build ht hj hc ho hpage, Statement.checked_eq_ok_iff]
    exact ⟨hmarks, rfl⟩

/-- A query depends on what is asked for, not on the order of the calls that ask.  Calls with the same request
make the same template.  It gives a statement if the table, the join, the condition, the order and the paging
part bring something and the marks are as many as the values; text and values are those of these parts in
this order, after the columns in the order in which they were added.  The paging part is empty exactly if
neither an offset nor a count was asked for. -/
theorem build_depends_only_on_request (table : Segment) :
    (∀ calls calls' : List Call, Request.ofCalls calls = Request.ofCalls calls' →
      ((ofTable table).afterAll calls).build = ((ofTable table).afterAll calls').build) ∧
    ∀ (calls : List Call) (b : Bindings) (s : Statement),
      let r := Request.ofCalls calls
      (((ofTable table).afterAll calls).build.generate b).outcome = .ok s ↔
        ∃ t j c o page, table.Brings b t ∧ (r.join?.getD (.text "")).Brings b j ∧
          (r.condition?.getD (.text "")).Brings b c ∧ (r.order?.getD (.text "")).Brings b o ∧
          Pages b r.offset? r.count? page ∧ (page.sql = "" ↔ r.offset? = none ∧ r.count? = none) ∧
          markCount s.sql = s.values.length ∧ s = .selected r.distinct r.columns t j c o page := by
  refine ⟨fun calls calls' h => ?_, fun calls b s => ?_⟩
  · rw [afterAll_eq, afterAll_eq, h]
  · rw [afterAll_eq, outcome_generate_build_eq_ok_iff]
    constructor
    · rintro ⟨t, j, c, o, page, ht, hj, hc, ho, hpage, hs⟩
      exact ⟨t, j, c, o, page, ht, hj, hc, ho, hpage, hpage.sql_eq_empty_iff, hs⟩
    · rintro ⟨t, j, c, o, page, ht, hj, hc, ho, hpage, -, hs⟩
      exact ⟨t, j, c, o, page, ht, hj, hc, ho, hpage, hs⟩

/-- A query with a count that is bound later, and the same query asked for in another order. -/
theorem build_depends_only_on_request_of_bound_count :
    let limit : Placeholder Value := .ofKey (.name "limit")
    let condition : Segment := .fragment ⟨"where a = ?", [.value (.int 3)]⟩
    let calls : List Call :=
      [.count (.rows 10), .column "id", .distinct, .condition condition, .columnAs "name" "n",
        .count (.value limit)]
    let calls' : List Call :=
      [.condition (.text "where b"), .count (.value limit), .columns ["id", "name as n"],
        .condition condition, .distinct, .distinct]
    let b := Bindings.empty.bindValue (.name "limit") (.int 7)
    let s : Statement :=
      ⟨"select distinct id, name as n\nfrom t\n\nwhere a = ?\n\noffset 0 rows\nfetch next ? rows only",
        [.int 3, .int 7]⟩
    Request.ofCalls calls = Request.ofCalls calls' ∧
      ((ofTable (.text "t")).afterAll calls).build = ((ofTable (.text "t")).afterAll calls').build ∧
      (((ofTable (.text "t")).afterAll calls').build.generate b).outcome = .ok s := by
  intro limit condition calls calls' b s
  have hsame : Request.ofCalls calls = Request.ofCalls calls' := rfl
  obtain ⟨hbuild, hgenerate⟩ := build_depends_only_on_request (.text "t")
  have hzero : RowQuantity.Gives b (.rows 0) ⟨"0", []⟩ := .rows 0
  have hlimit : RowQuantity.Gives b (.value limit) ⟨"?", [.int 7]⟩ := .value rfl
  have hcondition : condition.Brings b ⟨"where a = ?", [.int 3]⟩ :=
    Segment.brings_fragment_iff.2 ⟨rfl, rfl⟩
  have hmarks : markCount s.sql = s.values.length := by decide +kernel
  obtain ⟨page, hpage, hs⟩ : ∃ page, Pages b none (some (.value limit)) page ∧
      s = .selected true ["id", "name as n"] ⟨"t", []⟩ ⟨"", []⟩ ⟨"where a = ?", [.int 3]⟩ ⟨"", []⟩ page :=
    ⟨_, .limited hzero hlimit, by decide +kernel⟩
  refine ⟨hsame, hbuild calls calls' hsame, (hgenerate calls' b s).2 ?_⟩
  exact ⟨⟨"t", []⟩, ⟨"", []⟩, _, ⟨"", []⟩, _, Segment.brings_text_iff.2 rfl,
    Segment.brings_text_iff.2 rfl, hcondition, Segment.brings_text_iff.2 rfl, hpage,
    hpage.sql_eq_empty_iff, hmarks, hs⟩

end Selection

end BoundSql
