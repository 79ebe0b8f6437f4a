import BoundSql.Proofs.Fragment.NamedSql

/-!
# The positional text of a SQL text

`NamedSql.toPositional` goes over a text once.  Nothing that it leaves behind can be read as a placeholder,
so going over the result changes nothing more.

What it does is said twice.  Every text can be cut at its placeholders (`NamedSql.IsCut`): the names are as
long as they can be and no placeholder is left in the stretches of text around them.  The positional text
has the same stretches with marks in the places of the placeholders, whichever cut is taken
(`NamedSql.IsCut.toList_toPositional`).  And texts that are put together may be treated one by one, unless
a placeholder of the first, or a colon at its end, goes on in the second
(`NamedSql.toPositional_append_iff`).
-/

namespace BoundSql

namespace NamedSql

/-! ## Where a name ends -/

/-- Where nothing comes next no name goes on. -/
theorem endsName_nil : EndsName [] := nofun

/-- The character that comes next decides whether a name goes on. -/
theorem endsName_cons_iff {c : Char} {cs : List Char} : EndsName (c :: cs) ↔ isNameChar c = false := by
  constructor
  · exact fun h => h c rfl
  · intro h d hd
    obtain rfl := Option.some.inj hd
    exact h

instance decidableEndsName : (cs : List Char) → Decidable (EndsName cs)
  | [] => isTrue endsName_nil
  | _ :: _ => decidable_of_iff _ endsName_cons_iff.symm

/-- A colon ends a name. -/
theorem endsName_colon (cs : List Char) : EndsName (':' :: cs) :=
  endsName_cons_iff.2 (by decide)

/-- What is appended to a text decides where a name ends only if the text is empty. -/
theorem endsName_append {cs ds : List Char} (hcs : EndsName cs) (hds : cs = [] → EndsName ds) :
    EndsName (cs ++ ds) := by
  cases cs with
  | nil => exact hds rfl
  | cons c cs => exact hcs

/-- A beginning of a text ends a name if the text does. -/
theorem endsName_of_append {cs ds : List Char} (h : EndsName (cs ++ ds)) : EndsName cs := by
  cases cs with
  | nil => exact endsName_nil
  | cons c cs => exact h

/-- Where no name goes on, a longest run of name characters is empty. -/
theorem takeWhile_of_endsName {cs : List Char} (h : EndsName cs) : cs.takeWhile isNameChar = [] := by
  cases cs with
  | nil => rfl
  | cons c cs => exact List.takeWhile_cons_of_neg (Bool.not_eq_true _ ▸ endsName_cons_iff.1 h)

/-- Where no name goes on, nothing is left out. -/
theorem dropWhile_of_endsName {cs : List Char} (h : EndsName cs) : cs.dropWhile isNameChar = cs := by
  cases cs with
  | nil => rfl
  | cons c cs => exact List.dropWhile_cons_of_neg (Bool.not_eq_true _ ▸ endsName_cons_iff.1 h)

/-- A longest run of name characters is a name that does not go on. -/
theorem takeWhile_append_of_endsName {name rest : List Char} (hchars : ∀ c ∈ name, isNameChar c = true)
    (hends : EndsName rest) : (name ++ rest).takeWhile isNameChar = name := by
  rw [List.takeWhile_append_of_pos hchars, takeWhile_of_endsName hends, List.append_nil]

/-- What follows a longest run of name characters is what follows the name. -/
theorem dropWhile_append_of_endsName {name rest : List Char} (hchars : ∀ c ∈ name, isNameChar c = true)
    (hends : EndsName rest) : (name ++ rest).dropWhile isNameChar = rest := by
  rw [List.dropWhile_append_of_pos hchars, dropWhile_of_endsName hends]

/-- A text splits in one way only, namely into its pieces. -/
theorem Splits.eq_pieces {cs : List Char} {ps : List Piece} (h : Splits cs ps) : ps = pieces cs := by
  induction h with
  | nil => rw [pieces]
  | @named name rest ps hname hchars hends hrest ih =>
    have htake := takeWhile_append_of_endsName hchars hends
    rw [pieces, if_pos ⟨rfl, by rwa [htake]⟩, htake, dropWhile_append_of_endsName hchars hends, ← ih]
  | @plain c rest ps hcolon hrest ih =>
    have hplain : ¬(c = ':' ∧ rest.takeWhile isNameChar ≠ []) := fun hnamed =>
      hnamed.2 (takeWhile_of_endsName (hcolon hnamed.1))
    rw [pieces, if_neg hplain, ← ih]

/-! ## Text without placeholders -/

/-- Whether no colon of a text stands before a name character. -/
def HasNoName (cs : List Char) : Prop := ∀ left right, cs = left ++ ':' :: right → EndsName right

/-- Whether a text has a placeholder is seen character by character. -/
theorem hasNoName_cons_iff {c : Char} {cs : List Char} :
    HasNoName (c :: cs) ↔ (c = ':' → EndsName cs) ∧ HasNoName cs := by
  constructor
  · intro h
    refine ⟨fun hc => h [] cs (by rw [hc, List.nil_append]), fun left right hcs => ?_⟩
    exact h (c :: left) right (by rw [hcs, List.cons_append])
  · rintro ⟨hc, hcs⟩ left right hsplit
    cases left with
    | nil =>
      obtain ⟨rfl, rfl⟩ := List.cons.inj hsplit
      exact hc rfl
    | cons d left => exact hcs left right (List.cons.inj hsplit).2

/-- The empty text has no placeholder. -/
theorem hasNoName_nil : HasNoName [] := by
  intro left right hsplit
  cases left <;> cases hsplit

instance decidableHasNoName : (cs : List Char) → Decidable (HasNoName cs)
  | [] => isTrue hasNoName_nil
  | _ :: cs =>
    have := decidableHasNoName cs
    decidable_of_iff _ hasNoName_cons_iff.symm

/-- A run of name characters has no placeholder. -/
theorem hasNoName_of_forall {name : List Char} (hchars : ∀ c ∈ name, isNameChar c = true) :
    HasNoName name := by
  rintro left right rfl
  exact absurd (hchars ':' List.mem_append_cons_self) (by decide)

/-- Text without placeholders in front of a split stays plain. -/
theorem Splits.text_append {text rest : List Char} {ps : List Piece} (htext : HasNoName text)
    (hends : EndsName rest) (hrest : Splits rest ps) :
    Splits (text ++ rest) (text.map .plain ++ ps) := by
  induction text with
  | nil => exact hrest
  | cons c text ih =>
    obtain ⟨hcolon, htext⟩ := hasNoName_cons_iff.1 htext
    exact .plain (fun hc => endsName_append (hcolon hc) fun _ => hends) (ih htext)

/-- Plain pieces are their own positional text. -/
theorem positionalOf_text_append (text : List Char) (ps : List Piece) :
    positionalOf (text.map .plain ++ ps) = text ++ positionalOf ps := by
  induction text with
  | nil => rfl
  | cons c text ih => exact congrArg (c :: ·) ih

/-- Plain pieces have no names. -/
theorem namesOf_text_append (text : List Char) (ps : List Piece) :
    namesOf (text.map .plain ++ ps) = namesOf ps := by
  induction text with
  | nil => rfl
  | cons c text ih => exact ih

/-- Text without placeholders is its own positional text. -/
theorem positionalOf_pieces_of_hasNoName {text : List Char} (htext : HasNoName text) :
    positionalOf (pieces text) = text := by
  have hsplit := Splits.text_append htext endsName_nil .nil
  rw [List.append_nil] at hsplit
  rw [← hsplit.eq_pieces, positionalOf_text_append]
  exact List.append_nil text

/-- No placeholder is left in a positional text. -/
theorem hasNoName_toPositional (sql : String) : HasNoName (toPositional sql).toList := by
  intro left right hsplit
  rw [toList_toPositional] at hsplit
  exact (splits_pieces sql.toList).endsName_of_colon hsplit

/-! ## Texts cut at their placeholders -/

/-- A text is cut at its placeholders: `before` stands before the first of them, and each of `parts` is a
name together with the text that stands after it. -/
structure IsCut (cs before : List Char) (parts : List (List Char × List Char)) : Prop where
  source : cs = before ++ parts.flatMap fun p => ':' :: (p.1 ++ p.2)
  isName : ∀ p ∈ parts, p.1 ≠ [] ∧ ∀ c ∈ p.1, isNameChar c = true
  longest : ∀ p ∈ parts, EndsName p.2
  noneBefore : HasNoName before
  noneAfter : ∀ p ∈ parts, HasNoName p.2

/-- A text that has been split can be cut. -/
theorem Splits.exists_isCut {cs : List Char} {ps : List Piece} (h : Splits cs ps) :
    ∃ before parts, IsCut cs before parts := by
  induction h with
  | nil => exact ⟨[], [], rfl, nofun, nofun, hasNoName_nil, nofun⟩
  | @named name rest ps hname hchars hends hrest ih =>
    obtain ⟨before, parts, rfl, hnames, hlongest, hbefore, hafter⟩ := ih
    refine ⟨[], (name, before) :: parts, ?_, ?_, ?_, hasNoName_nil, ?_⟩
    · rw [List.flatMap_cons, List.nil_append, List.cons_append, List.append_assoc]
    · exact List.forall_mem_cons.2 ⟨⟨hname, hchars⟩, hnames⟩
    · exact List.forall_mem_cons.2 ⟨endsName_of_append hends, hlongest⟩
    · exact List.forall_mem_cons.2 ⟨hbefore, hafter⟩
  | @plain c rest ps hcolon hrest ih =>
    obtain ⟨before, parts, rfl, hnames, hlongest, hbefore, hafter⟩ := ih
    have hfirst : HasNoName (c :: before) :=
      hasNoName_cons_iff.2 ⟨fun hc => endsName_of_append (hcolon hc), hbefore⟩
    exact ⟨c :: before, parts, rfl, hnames, hlongest, hfirst, hafter⟩

/-- What begins with a placeholder, or is empty, ends a name. -/
theorem endsName_flatMap_parts (parts : List (List Char × List Char)) :
    EndsName (parts.flatMap fun p => ':' :: (p.1 ++ p.2)) := by
  cases parts with
  | nil => exact endsName_nil
  | cons p parts => exact endsName_colon _

/-- A cut says what the pieces of a text are. -/
theorem IsCut.splits {cs before : List Char} {parts : List (List Char × List Char)}
    (h : IsCut cs before parts) :
    Splits cs (before.map .plain ++ parts.flatMap fun p => .named p.1 :: p.2.map .plain) := by
  obtain ⟨rfl, hnames, hlongest, hbefore, hafter⟩ := h
  refine .text_append hbefore (endsName_flatMap_parts parts) ?_
  clear hbefore
  induction parts with
  | nil => exact .nil
  | cons p parts ih =>
    obtain ⟨⟨hname, hchars⟩, hnames⟩ := List.forall_mem_cons.1 hnames
    obtain ⟨hends, hlongest⟩ := List.forall_mem_cons.1 hlongest
    obtain ⟨htext, hafter⟩ := List.forall_mem_cons.1 hafter
    have hnext := endsName_flatMap_parts parts
    have hsplit := Splits.named hname hchars (endsName_append hends fun _ => hnext)
      (.text_append htext hnext (ih hnames hlongest hafter))
    rw [← List.append_assoc] at hsplit
    exact hsplit

/-- The names of a text are those at which it is cut. -/
theorem IsCut.names_eq {sql : String} {before : List Char} {parts : List (List Char × List Char)}
    (h : IsCut sql.toList before parts) : names sql = parts.map fun p => String.ofList p.1 := by
  have hnames : names sql = namesOf (pieces sql.toList) := rfl
  rw [hnames, ← h.splits.eq_pieces, namesOf_text_append]
  clear h hnames
  induction parts with
  | nil => rfl
  | cons p parts ih =>
    have hstep : namesOf ((p :: parts).flatMap fun p => .named p.1 :: p.2.map .plain) =
        String.ofList p.1 ::
          namesOf (p.2.map .plain ++ parts.flatMap fun p => .named p.1 :: p.2.map .plain) := rfl
    rw [hstep, namesOf_text_append, ih, List.map_cons]

/-- The positional text keeps the stretches of a cut and has a mark for each name. -/
theorem IsCut.toList_toPositional {sql : String} {before : List Char}
    {parts : List (List Char × List Char)} (h : IsCut sql.toList before parts) :
    (toPositional sql).toList = before ++ parts.flatMap fun p => '?' :: p.2 := by
  rw [NamedSql.toList_toPositional, ← h.splits.eq_pieces, positionalOf_text_append]
  clear h
  refine congrArg (before ++ ·) ?_
  induction parts with
  | nil => rfl
  | cons p parts ih =>
    have hstep : positionalOf ((p :: parts).flatMap fun p => .named p.1 :: p.2.map .plain) =
        '?' :: positionalOf (p.2.map .plain ++ parts.flatMap fun p => .named p.1 :: p.2.map .plain) :=
      rfl
    rw [hstep, positionalOf_text_append, ih, List.flatMap_cons, List.cons_append]

/-! ## Texts put together -/

/-- Whether a text ends in a colon, or in a colon and a run of name characters. -/
def EndsOpen (cs : List Char) : Prop :=
  ∃ left run, cs = left ++ ':' :: run ∧ ∀ c ∈ run, isNameChar c = true

/-- A text ends as its last part does. -/
theorem EndsOpen.append {cs : List Char} (h : EndsOpen cs) (front : List Char) :
    EndsOpen (front ++ cs) := by
  obtain ⟨left, run, rfl, hrun⟩ := h
  exact ⟨front ++ left, run, (List.append_assoc ..).symm, hrun⟩

/-- Splits of two texts make one of both, unless the end of the first goes on in the second. -/
theorem Splits.append {cs ds : List Char} {ps qs : List Piece} (hcs : Splits cs ps) (hds : Splits ds qs)
    (hcut : EndsOpen cs → EndsName ds) : Splits (cs ++ ds) (ps ++ qs) := by
  induction hcs with
  | nil => exact hds
  | @named name rest ps hname hchars hends hrest ih =>
    have hnext : EndsName (rest ++ ds) := by
      refine endsName_append hends fun hempty => hcut ⟨[], name, ?_, hchars⟩
      rw [hempty, List.append_nil, List.nil_append]
    have hsplit := Splits.named hname hchars hnext (ih fun hopen => hcut (hopen.append (':' :: name)))
    rw [← List.append_assoc] at hsplit
    exact hsplit
  | @plain c rest ps hcolon hrest ih =>
    refine .plain (fun hc => ?_) (ih fun hopen => hcut (hopen.append [c]))
    refine endsName_append (hcolon hc) fun hempty => hcut ⟨[], [], ?_, nofun⟩
    rw [hc, hempty, List.nil_append]

/-- The pieces of two texts are those of both, unless the end of the first goes on in the second. -/
theorem pieces_append {cs ds : List Char} (hcut : EndsOpen cs → EndsName ds) :
    pieces (cs ++ ds) = pieces cs ++ pieces ds :=
  ((splits_pieces cs).append (splits_pieces ds) hcut).eq_pieces.symm

/-- The positional text of some pieces after others. -/
theorem positionalOf_append (ps qs : List Piece) :
    positionalOf (ps ++ qs) = positionalOf ps ++ positionalOf qs :=
  List.flatMap_append

/-- A colon and name characters, be there any or none, make a single piece. -/
theorem length_positionalOf_pieces_colon {run : List Char} (hrun : ∀ c ∈ run, isNameChar c = true) :
    (positionalOf (pieces (':' :: run))).length = 1 := by
  by_cases hempty : run = []
  · rw [hempty, ← (Splits.plain (fun _ => endsName_nil) .nil).eq_pieces]
    rfl
  · have hsplit := Splits.named hempty hrun endsName_nil .nil
    rw [List.append_nil] at hsplit
    rw [← hsplit.eq_pieces]
    rfl

/-- If the end of a text goes on in the next one, then both together have a shorter positional text than
one by one: the characters that go on are taken for a name in the first case and kept in the second. -/
theorem length_positionalOf_append_lt {cs ds : List Char} (hopen : EndsOpen cs) (hds : ¬EndsName ds) :
    (positionalOf (pieces (cs ++ ds))).length <
      (positionalOf (pieces cs)).length + (positionalOf (pieces ds)).length := by
  obtain ⟨left, run, rfl, hrun⟩ := hopen
  obtain ⟨name, rest, rfl, hchars, hends, hname⟩ : ∃ name rest, ds = name ++ rest ∧
      (∀ c ∈ name, isNameChar c = true) ∧ EndsName rest ∧ name ≠ [] :=
    ⟨_, _, List.takeWhile_append_dropWhile.symm, fun c hc => List.mem_takeWhile_imp hc,
      endsName_dropWhile ds, fun hnil => hds (endsName_of_takeWhile_eq_nil hnil)⟩
  -- Up to the colon both texts have the same pieces.
  have hleft : ∀ tail, pieces (left ++ ':' :: tail) = pieces left ++ pieces (':' :: tail) :=
    fun tail => pieces_append fun _ => endsName_colon tail
  have htogether : pieces (':' :: (run ++ (name ++ rest))) = .named (run ++ name) :: pieces rest := by
    have hall : ∀ c ∈ run ++ name, isNameChar c = true := List.forall_mem_append.2 ⟨hrun, hchars⟩
    have hsplit := Splits.named (by simp [hname]) hall hends (splits_pieces rest)
    rw [List.append_assoc] at hsplit
    exact hsplit.eq_pieces.symm
  have hkept : pieces (name ++ rest) = name.map .plain ++ pieces rest :=
    (Splits.text_append (hasNoName_of_forall hchars) hends (splits_pieces rest)).eq_pieces.symm
  have hmark : (positionalOf (.named (run ++ name) :: pieces rest)).length =
      (positionalOf (pieces rest)).length + 1 := rfl
  have hpos : 0 < name.length := List.length_pos_iff.2 hname
  rw [List.append_assoc, List.cons_append, hleft, hleft, htogether, hkept, positionalOf_append,
    positionalOf_append, positionalOf_text_append, List.length_append, List.length_append,
    List.length_append, hmark, length_positionalOf_pieces_colon hrun]
  omega

/-- Two texts may be made positional one by one exactly if the end of the first does not go on in the
second. -/
theorem toPositional_append_iff {sql more : String} :
    toPositional (sql ++ more) = toPositional sql ++ toPositional more ↔
      (EndsOpen sql.toList → EndsName more.toList) := by
  rw [← String.toList_inj, String.toList_append, toList_toPositional, toList_toPositional,
    toList_toPositional, String.toList_append]
  constructor
  · intro heq hopen
    by_contra hgoes
    have hlt := length_positionalOf_append_lt hopen hgoes
    rw [heq, List.length_append] at hlt
    exact absurd hlt (Nat.lt_irrefl _)
  · intro hcut
    rw [pieces_append hcut, positionalOf_append]

/-- A positional text has no placeholder any more, so making it positional again changes nothing; it has the
marks of the text and one for each name.  The text can be cut at its placeholders, and whichever cut is
taken, its names are the names of the text and its stretches are kept with marks between them.  Two texts
may be made positional one by one if the first does not end in a colon or a placeholder, and if it does,
exactly if the second does not go on with a name character. -/
theorem toPositional_normalizes (sql : String) :
    HasNoName (toPositional sql).toList ∧
    toPositional (toPositional sql) = toPositional sql ∧
    markCount (toPositional sql) = markCount sql + (names sql).length ∧
    (∃ before parts, IsCut sql.toList before parts) ∧
    (∀ before parts, IsCut sql.toList before parts →
      names sql = parts.map (fun p => String.ofList p.1) ∧
      (toPositional sql).toList = before ++ parts.flatMap fun p => '?' :: p.2) ∧
    ∀ more : String, toPositional (sql ++ more) = toPositional sql ++ toPositional more ↔
      (EndsOpen sql.toList → EndsName more.toList) := by
  have hnone := hasNoName_toPositional sql
  refine ⟨hnone, ?_, markCount_toPositional sql, (splits_pieces sql.toList).exists_isCut, ?_, ?_⟩
  · rw [← String.toList_inj, toList_toPositional]
    exact positionalOf_pieces_of_hasNoName hnone
  · exact fun before parts hcut => ⟨hcut.names_eq, hcut.toList_toPositional⟩
  · exact fun more => toPositional_append_iff

/-- A cast by two colons, placeholders back to back, a colon before a letter that is not ASCII, and an open
end: the cut of the text, and what may be appended to it. -/
theorem toPositional_normalizes_of_cast :
    let sql := "x::int = :a:b + :é ?:"
    let parts := [("int".toList, " = ".toList), ("a".toList, []), ("b".toList, " + :é ?:".toList)]
    IsCut sql.toList "x:".toList parts ∧ names sql = ["int", "a", "b"] ∧
      toPositional sql = "x:? = ?? + :é ?:" ∧ markCount (toPositional sql) = 1 + 3 ∧
      EndsOpen sql.toList ∧ toPositional (sql ++ "9") ≠ toPositional sql ++ toPositional "9" ∧
      toPositional (sql ++ ":9") = toPositional sql ++ toPositional ":9" := by
  intro sql parts
  obtain ⟨-, -, hmarks, -, hcuts, happend⟩ := toPositional_normalizes sql
  have hname : parts.all (fun p => !p.1.isEmpty && p.1.all isNameChar) = true := by decide +kernel
  have hcut : IsCut sql.toList "x:".toList parts := by
    refine ⟨by decide +kernel, fun p hp => ?_, by decide +kernel, by decide +kernel, by decide +kernel⟩
    have hp := List.all_eq_true.1 hname p hp
    rwa [Bool.and_eq_true, Bool.not_eq_true', List.isEmpty_eq_false_iff, List.all_eq_true] at hp
  obtain ⟨hnames, htext⟩ := hcuts _ _ hcut
  have hopen : EndsOpen sql.toList := ⟨"x::int = :a:b + :é ?".toList, [], by decide +kernel, nofun⟩
  have hgoes : ¬EndsName "9".toList := by decide +kernel
  have hends : EndsName ":9".toList := by decide +kernel
  refine ⟨hcut, hnames, ?_, ?_, hopen, ?_, ?_⟩
  · rw [← String.toList_inj, htext]
    decide +kernel
  · rw [hmarks, hnames]
    decide +kernel
  · exact fun heq => hgoes ((happend "9").1 heq hopen)
  · exact (happend ":9").2 fun _ => hends

end NamedSql

end BoundSql
