import Schemata.Proofs.Code.Sql.Script
import Schemata.Proofs.Plan.Instant
import Schemata.Proofs.Text.Lines

/-!
# Where names can end a remark or a block

A script opens with remarks that have names and comments of the schema in them, and PostgreSQL adds a
key in a block between two dollar marks that has names in it. Comments are cut into lines before they
are written, names are written as they are. `text_contained` says when that matters: all lines before
the first statement are remarks exactly when the lines of the names in them go on as remarks, and a
block has no dollar mark in it exactly when no name in it has one.
-/

namespace Schemata.Code.Sql

open Text

/-! ## Lines that are remarks -/

/-- What makes the rest of a line a remark. -/
def remarkMark : List Char := ['-', '-']

/-- A text all of whose lines are remarks. -/
def AllRemarks (s : List Char) : Prop := ∀ l ∈ lines s, remarkMark <+: l

/-- A text that can stand in a remark: its lines behind the first one are remarks by themselves. -/
def StaysRemark (s : List Char) : Prop := ∀ l ∈ (lines s).tail, remarkMark <+: l

theorem allRemarks_append_newline (s r : List Char) :
    AllRemarks (s ++ '\n' :: r) ↔ AllRemarks (s ++ ['\n']) ∧ AllRemarks r := by
  unfold AllRemarks
  rw [lines_append_cons, List.forall_mem_append]

/-- Only what stands behind the mark of a remark decides whether it goes on. -/
theorem allRemarks_remark (s : List Char) :
    AllRemarks ("-- ".toList ++ (s ++ ['\n'])) ↔ StaysRemark (s ++ ['\n']) := by
  obtain ⟨l, ls, hl⟩ := List.exists_cons_of_ne_nil (lines_ne_nil (s := s ++ ['\n']) (by simp))
  have hmark : remarkMark <+: "-- ".toList ++ l := ⟨' ' :: l, rfl⟩
  unfold AllRemarks StaysRemark
  rw [lines_append_of_no_break (by decide) hl, hl, List.forall_mem_cons, List.tail_cons]
  exact and_iff_right hmark

theorem staysRemark_append {p s : List Char} (hp : ∀ c ∈ p, isLineBreak c = false) (hs : s ≠ []) :
    StaysRemark (p ++ s) ↔ StaysRemark s := by
  obtain ⟨l, ls, hl⟩ := List.exists_cons_of_ne_nil (lines_ne_nil hs)
  unfold StaysRemark
  rw [lines_append_of_no_break hp hl, hl]
  rfl

theorem staysRemark_of_no_break {s : List Char} (hs : ∀ c ∈ s, isLineBreak c = false) :
    StaysRemark (s ++ ['\n']) := by
  unfold StaysRemark
  rw [lines_append_newline hs]
  simp [lines]

/-- A line that goes on behind a colon is a remark exactly when it is one up to the colon. -/
theorem staysRemark_colon {s u : List Char} (hu : ∀ c ∈ u, isLineBreak c = false) :
    StaysRemark (s ++ ':' :: (u ++ ['\n'])) ↔ StaysRemark (s ++ [':']) := by
  -- both texts have the same lines, up to the last one, in which the colon stands
  obtain ⟨before, last, h⟩ := exists_lines_append s (c := ':') (by decide)
  have hlong : lines (s ++ ':' :: (u ++ ['\n'])) = before ++ [last ++ ':' :: u] :=
    h _ _ _ (lines_append_newline (List.forall_mem_cons.2 ⟨by decide, hu⟩) [])
  have hshort : lines (s ++ [':']) = before ++ [last ++ [':']] := h _ _ _ rfl
  have hlast : remarkMark <+: last ++ ':' :: u ↔ remarkMark <+: last ++ [':'] := by
    unfold remarkMark
    match last with
    | [] | [_] | _ :: _ :: _ => simp [List.cons_prefix_cons]
  unfold StaysRemark
  rw [hlong, hshort]
  cases before with
  | nil => simp
  | cons b before => simp [or_imp, forall_and, hlast]

/-! ## Scripts that open with remarks -/

namespace Statement

def isRemark : Statement → Bool
  | remark _ => true
  | _ => false

end Statement

/-- The remarks of a script before its first statement. -/
def Script.preamble (s : Script) : Script := s.takeWhile Statement.isRemark

theorem preamble_append {texts : List String} {s : Script} (hs : ∀ x ∈ s.head?, x.isRemark = false) :
    Script.preamble (texts.map .remark ++ s) = texts.map .remark := by
  have hnext : s.takeWhile Statement.isRemark = [] := by
    cases s with
    | nil => rfl
    | cons x s =>
      have hx : x.isRemark = false := hs x (List.head?_cons ▸ Option.mem_some_self x)
      rw [List.takeWhile_cons_of_neg (by simp [hx])]
  unfold Script.preamble
  rw [List.takeWhile_append_of_pos (List.forall_mem_map.2 fun _ _ => rfl), hnext, List.append_nil]

/-- Remarks are remarks in all their lines exactly when each of them goes on as one. -/
theorem allRemarks_text (e : Engine) (texts : List String) :
    AllRemarks (Script.text e (texts.map .remark)).toList ↔
      ∀ s ∈ texts, StaysRemark (s.toList ++ ['\n']) := by
  induction texts with
  | nil => simp [Script.text, AllRemarks, lines]
  | cons s texts ih =>
    have hsplit : (Script.text e ((s :: texts).map .remark)).toList =
        ("-- ".toList ++ s.toList) ++ '\n' :: (Script.text e (texts.map .remark)).toList := by
      show (String.join (("-- " ++ s ++ "\n") :: _)).toList = _
      rw [String.join_cons, String.toList_append, String.toList_append, String.toList_append,
        List.append_assoc]
      rfl
    rw [hsplit, allRemarks_append_newline, ih, List.append_assoc, allRemarks_remark,
      List.forall_mem_cons]

/-! ## The remarks of a task -/

theorem isLineBreak_of_isDigit {c : Char} (h : c.isDigit = true ∨ c = '_') :
    isLineBreak c = false := by
  rcases h with h | rfl
  · simp only [Char.isDigit, Bool.and_eq_true, decide_eq_true_eq, ge_iff_le, UInt32.le_iff_toNat_le]
      at h
    simp only [isLineBreak, Char.toNat, Bool.or_eq_false_iff, Bool.and_eq_false_iff,
      decide_eq_false_iff_not, beq_eq_false_iff_ne]
    have h₁ : 48 ≤ c.val.toNat := h.1
    have h₂ : c.val.toNat ≤ 57 := h.2
    omega
  · decide

/-- The texts of the remarks at the head of a file. -/
def headTexts (verb : String) (t : Task) : List String :=
  [verb ++ " " ++ t.table.name, "Sequence: " ++ t.stamp.token]

/-- The remarks at the head of a file go on as remarks exactly when the name of the table does. -/
theorem staysRemark_headTexts {verb : String} (hverb : ∀ c ∈ verb.toList, isLineBreak c = false)
    (t : Task) : (∀ s ∈ headTexts verb t, StaysRemark (s.toList ++ ['\n'])) ↔
      StaysRemark (t.table.name.toList ++ ['\n']) := by
  have hfront : ∀ c ∈ verb.toList ++ " ".toList, isLineBreak c = false :=
    List.forall_mem_append.2 ⟨hverb, by decide⟩
  have htoken : StaysRemark (("Sequence: " ++ t.stamp.token).toList ++ ['\n']) := by
    refine staysRemark_of_no_break ?_
    rw [String.toList_append]
    exact List.forall_mem_append.2
      ⟨by decide, fun c hc => isLineBreak_of_isDigit (Civil.forall_mem_token _ c hc)⟩
  rw [headTexts, List.forall_mem_cons, List.forall_mem_singleton, and_iff_left htoken,
    String.toList_append, String.toList_append, List.append_assoc, staysRemark_append hfront (by simp)]

/-- The columns of a table whose comments are remarks. -/
def remarkedColumns (e : Engine) (o : Options) (t : Table) : List Field :=
  if o.comments ∧ (e = .sqlite ∨ e = .mssql) then t.fields.filter (·.comment ≠ "") else []

theorem no_break_linesOf (s : String) :
    ∀ l ∈ linesOf s, ∀ c ∈ l.toList, isLineBreak c = false := by
  unfold linesOf
  refine List.forall_mem_map.2 fun l hl => ?_
  rw [String.toList_ofList]
  exact no_break_of_mem_lines hl

/-- The lines of a text with spaces between them are one line. -/
theorem no_break_intercalate (s : String) :
    ∀ c ∈ (" ".intercalate (linesOf s)).toList, isLineBreak c = false := by
  rw [String.toList_intercalate]
  have hlines := no_break_linesOf s
  generalize linesOf s = ls at hlines ⊢
  induction ls with
  | nil => simp
  | cons l ls ih =>
    obtain ⟨hl, hls⟩ := List.forall_mem_cons.1 hlines
    cases ls with
    | nil => simpa using hl
    | cons m ls =>
      rw [List.map_cons, List.map_cons, List.intercalate_cons_cons]
      exact List.forall_mem_append.2 ⟨List.forall_mem_append.2 ⟨hl, by decide⟩, ih hls⟩

/-- The comments of a table go on as remarks: those of the table are cut into lines, and in those of
the columns only the names of the columns can hold a line break. -/
theorem exists_remarks (e : Engine) (o : Options) (t : Table) :
    ∃ texts : List String, remarks e o t = texts.map .remark ∧
      ((∀ s ∈ texts, StaysRemark (s.toList ++ ['\n'])) ↔
        ∀ f ∈ remarkedColumns e o t, StaysRemark (f.name.toList ++ [':'])) := by
  unfold remarks remarkedColumns
  split
  case isFalse => exact ⟨[], rfl, by simp⟩
  case isTrue =>
    refine ⟨linesOf t.comment ++ (t.fields.filter (·.comment ≠ "")).map fun f =>
      f.name ++ ": " ++ " ".intercalate (linesOf f.comment), ?_, ?_⟩
    · rw [List.map_append, List.map_map]
      rfl
    · have htable : ∀ s ∈ linesOf t.comment, StaysRemark (s.toList ++ ['\n']) := fun s hs =>
        staysRemark_of_no_break (no_break_linesOf t.comment s hs)
      have hfield : ∀ f : Field, StaysRemark
          ((f.name ++ ": " ++ " ".intercalate (linesOf f.comment)).toList ++ ['\n']) ↔
            StaysRemark (f.name.toList ++ [':']) := fun f => by
        rw [← staysRemark_colon (u := ' ' :: (" ".intercalate (linesOf f.comment)).toList)
          (List.forall_mem_cons.2 ⟨by decide, no_break_intercalate f.comment⟩)]
        simp
      rw [List.forall_mem_append, and_iff_right htable, List.forall_mem_map]
      simp only [hfield]

theorem allRemarks_preamble (e : Engine) (texts : List String) {s : Script}
    (hs : ∀ x ∈ s.head?, x.isRemark = false) :
    AllRemarks ((Script.preamble (texts.map .remark ++ s)).text e).toList ↔
      ∀ x ∈ texts, StaysRemark (x.toList ++ ['\n']) := by
  rw [preamble_append hs, allRemarks_text]

/-- A script with the head of a file and something else behind it. -/
theorem allRemarks_header (e : Engine) {verb : String}
    (hverb : ∀ c ∈ verb.toList, isLineBreak c = false) (t : Task) {s : Script}
    (hs : ∀ x ∈ s.head?, x.isRemark = false) :
    AllRemarks ((Script.preamble (header verb t ++ s)).text e).toList ↔
      StaysRemark (t.table.name.toList ++ ['\n']) := by
  rw [← staysRemark_headTexts hverb]
  exact allRemarks_preamble e (headTexts verb t) hs

theorem allRemarks_create (e : Engine) (o : Options) (t : Task) :
    AllRemarks ((Script.preamble (create e o t).value).text e).toList ↔
      StaysRemark (t.table.name.toList ++ ['\n']) ∧
        ∀ f ∈ remarkedColumns e o t.table, StaysRemark (f.name.toList ++ [':']) := by
  obtain ⟨texts, htexts, hiff⟩ := exists_remarks e o t.table
  have hvalue : (create e o t).value = (headTexts "Create table" t ++ texts).map .remark ++
      ([.createTable true t.table.name (clauses e o t.table (typedColumns e o t.table).value [])
        (storage e o t.table)] ++ indexStatements e o t.table ++ descriptions e o t.table) := by
    rw [List.map_append, ← htexts]
    show header "Create table" t ++ remarks e o t.table ++ [_] ++ indexStatements e o t.table ++
      descriptions e o t.table = header "Create table" t ++ remarks e o t.table ++ _
    simp only [List.append_assoc]
  rw [hvalue, allRemarks_preamble e _ (by simp [Statement.isRemark]), List.forall_mem_append, hiff,
    staysRemark_headTexts (by decide)]

/-- What follows the head of a file that makes a table anew is a statement. -/
theorem head_rebuild (e : Engine) (o : Options) (t : Table) (columns : List (Field × Rendered))
    (edges : List Edge) : ∀ x ∈ (rebuild e o t columns edges).head?, x.isRemark = false := by
  simp [rebuild, Statement.isRemark]

theorem head_map {f : Edge → Statement} (hf : ∀ k, (f k).isRemark = false) (edges : List Edge) :
    ∀ x ∈ (edges.map f).head?, x.isRemark = false := by
  intro x hx
  obtain ⟨k, -, rfl⟩ := List.mem_map.1 (List.mem_of_mem_head? hx)
  exact hf k

theorem allRemarks_attach (e : Engine) (o : Options) (t : Task) :
    AllRemarks ((attach e o t).preamble.text e).toList ↔
      StaysRemark (t.table.name.toList ++ ['\n']) := by
  unfold attach
  refine allRemarks_header e (by decide) t ?_
  split
  · exact head_rebuild _ _ _ _ _
  · exact head_map (fun _ => rfl) t.edges

theorem allRemarks_undoScript (e : Engine) (o : Options) (t : Task) :
    AllRemarks ((undoScript e o t).preamble.text e).toList ↔
      StaysRemark (t.table.name.toList ++ ['\n']) := by
  unfold undoScript
  cases t.phase with
  | createTable => exact allRemarks_header e (by decide) t (by simp [Statement.isRemark])
  | attachForeignKeys =>
    show AllRemarks ((Script.preamble (detach e o t).value).text e).toList ↔ _
    unfold detach
    dsimp only
    split
    · exact allRemarks_header e (by decide) t (head_rebuild _ _ _ _ _)
    · exact allRemarks_header e (by decide) t (head_map (fun _ => rfl) t.edges)

/-! ## Blocks between dollar marks -/

/-- What opens and closes a block in PostgreSQL. -/
def dollarMark : List Char := ['$', '$']

theorem dollarMark_infix_cons {c : Char} (hc : c ≠ '$') (s : List Char) :
    dollarMark <:+: c :: s ↔ dollarMark <:+: s := by
  rw [List.infix_cons_iff, or_iff_right]
  rw [dollarMark, List.cons_prefix_cons]
  exact fun h => hc h.1.symm

theorem dollarMark_infix_append {p : List Char} (hp : '$' ∉ p) (s : List Char) :
    dollarMark <:+: p ++ s ↔ dollarMark <:+: s := by
  induction p with
  | nil => rfl
  | cons c p ih =>
    rw [List.mem_cons, not_or] at hp
    rw [List.cons_append, dollarMark_infix_cons (Ne.symm hp.1), ih hp.2]

/-- A mark that does not begin with a dollar keeps two texts apart. -/
theorem dollarMark_infix_append_cons {c : Char} (hc : c ≠ '$') (s r : List Char) :
    dollarMark <:+: s ++ c :: r ↔ dollarMark <:+: s ∨ dollarMark <:+: r := by
  induction s with
  | nil =>
    rw [List.nil_append, dollarMark_infix_cons hc]
    simp [dollarMark]
  | cons d s ih =>
    have hfront : dollarMark <+: d :: (s ++ c :: r) ↔ dollarMark <+: d :: s := by
      unfold dollarMark
      cases s with
      | nil => simp [List.cons_prefix_cons, Ne.symm hc]
      | cons x s => simp [List.cons_prefix_cons]
    rw [List.cons_append, List.infix_cons_iff, ih, List.infix_cons_iff, hfront, or_assoc]

theorem dollarMark_infix_double {q : Char} (hq : q ≠ '$') (s : List Char) :
    dollarMark <:+: double q s ↔ dollarMark <:+: s := by
  induction s with
  | nil => rfl
  | cons c s ih =>
    rw [double]
    split
    · next h =>
      rw [h, dollarMark_infix_cons hq, dollarMark_infix_cons hq, dollarMark_infix_cons hq, ih]
    · have hfront : dollarMark <+: c :: double q s ↔ dollarMark <+: c :: s := by
        unfold dollarMark
        cases s with
        | nil => rfl
        | cons d s =>
          rw [double]
          split
          · next h => simp [List.cons_prefix_cons, h, Ne.symm hq]
          · simp [List.cons_prefix_cons]
      rw [List.infix_cons_iff, ih, List.infix_cons_iff, hfront]

/-- Quoting does not make a dollar mark, and keeps a name apart from what stands behind it. -/
theorem dollarMark_infix_enclose {q : Char} (hq : q ≠ '$') (s r : List Char) :
    dollarMark <:+: enclose q q (double q s) ++ r ↔ dollarMark <:+: s ∨ dollarMark <:+: r := by
  rw [enclose, List.cons_append, dollarMark_infix_cons hq, List.append_assoc, List.singleton_append,
    dollarMark_infix_append_cons hq, dollarMark_infix_double hq]

theorem dollarMark_infix_quoted (name : String) (r : List Char) :
    dollarMark <:+: (quoted .postgres name).toList ++ r ↔
      dollarMark <:+: name.toList ∨ dollarMark <:+: r := by
  have hquoted : (quoted .postgres name).toList = enclose '"' '"' (double '"' name.toList) :=
    String.toList_ofList
  rw [hquoted, dollarMark_infix_enclose (by decide)]

theorem dollarMark_infix_literal (name : String) (r : List Char) :
    dollarMark <:+: (literal name).toList ++ r ↔
      dollarMark <:+: name.toList ∨ dollarMark <:+: r := by
  rw [literal, String.toList_ofList, quoteDoubled, dollarMark_infix_enclose (by decide)]

/-- What stands between the marks of the block that adds a key. -/
def blockText (table : String) (k : KeyDef) : String :=
  "\nBEGIN\n    IF NOT EXISTS (SELECT 1 FROM pg_constraint WHERE conname = " ++ literal k.name ++
    ") THEN\n        " ++
    ("ALTER TABLE " ++ quoted .postgres table ++ " ADD " ++ k.text .postgres ++ ";") ++
    "\n    END IF;\nEND "

theorem text_addForeignKey (table : String) (k : KeyDef) :
    (Statement.addForeignKey table k).text .postgres = "DO $$" ++ blockText table k ++ "$$;" := by
  have hopen : "DO $$\nBEGIN\n    IF NOT EXISTS (SELECT 1 FROM pg_constraint WHERE conname = " =
      "DO $$" ++
        "\nBEGIN\n    IF NOT EXISTS (SELECT 1 FROM pg_constraint WHERE conname = " := by
    decide +kernel
  have hclose : "\n    END IF;\nEND $$;" = "\n    END IF;\nEND " ++ "$$;" := by decide +kernel
  show "DO $$\nBEGIN\n    IF NOT EXISTS (SELECT 1 FROM pg_constraint WHERE conname = " ++
    literal k.name ++ ") THEN\n        " ++
    ("ALTER TABLE " ++ quoted .postgres table ++ " ADD " ++ k.text .postgres ++ ";") ++
    "\n    END IF;\nEND $$;" = _
  unfold blockText
  rw [hopen]
  simp only [String.append_assoc, hclose]

/-- The names in a block. -/
def blockNames (table : String) (k : KeyDef) : List String :=
  [table, k.name, k.column, k.target] ++ k.targetColumn.toList

theorem dollar_notMem_actionClause {event : String} (hevent : '$' ∉ event.toList) (a : Action) :
    '$' ∉ (actionClause event a).toList := by
  have hname : '$' ∉ upper a.name.toList := by cases a <;> decide
  unfold actionClause
  split
  · decide
  · simp only [String.toList_append, String.toList_ofList, List.mem_append, not_or]
    exact ⟨⟨⟨by decide, hevent⟩, by decide⟩, hname⟩

/-- Behind the name of the table that is pointed to, only the name of its column can have a dollar
mark. -/
theorem dollarMark_infix_targetColumn (column : Option String) (r : List Char) :
    dollarMark <:+: (column.elim "" fun c => " (" ++ quoted .postgres c ++ ")").toList ++ r ↔
      (∃ n ∈ column, dollarMark <:+: n.toList) ∨ dollarMark <:+: r := by
  cases column with
  | none => simp
  | some c =>
    simp only [Option.elim_some, String.toList_append, List.append_assoc]
    rw [dollarMark_infix_append (by decide), dollarMark_infix_quoted,
      dollarMark_infix_append (by decide)]
    simp

/-- A dollar mark in what adds a key stands in one of the names. -/
theorem dollarMark_infix_added (table : String) (k : KeyDef) (r : List Char) :
    dollarMark <:+: (quoted .postgres table).toList ++
        (" ADD ".toList ++ ((k.text .postgres).toList ++ (";".toList ++ r))) ↔
      (∃ n ∈ blockNames table k, dollarMark <:+: n.toList) ∨ dollarMark <:+: r := by
  unfold KeyDef.text
  simp only [String.toList_append, List.append_assoc]
  rw [dollarMark_infix_quoted, dollarMark_infix_append (by decide),
    dollarMark_infix_append (by decide), dollarMark_infix_quoted,
    dollarMark_infix_append (by decide), dollarMark_infix_quoted,
    dollarMark_infix_append (by decide), dollarMark_infix_quoted, dollarMark_infix_targetColumn,
    dollarMark_infix_append (dollar_notMem_actionClause (by decide) _),
    dollarMark_infix_append (dollar_notMem_actionClause (by decide) _),
    dollarMark_infix_append (by decide)]
  simp only [blockNames, List.cons_append, List.nil_append, List.mem_cons, Option.mem_toList,
    Option.mem_def, exists_eq_or_imp, or_assoc]

theorem dollarMark_infix_blockText (table : String) (k : KeyDef) :
    dollarMark <:+: (blockText table k).toList ↔
      ∃ n ∈ blockNames table k, dollarMark <:+: n.toList := by
  have hend : ¬ dollarMark <:+: "\n    END IF;\nEND ".toList := by decide +kernel
  unfold blockText
  simp only [String.toList_append, List.append_assoc]
  rw [dollarMark_infix_append (by decide +kernel), dollarMark_infix_literal,
    dollarMark_infix_append (by decide +kernel), dollarMark_infix_append (by decide),
    dollarMark_infix_added]
  constructor
  · rintro (h | h | h)
    · exact ⟨k.name, by simp [blockNames], h⟩
    · exact h
    · exact absurd h hend
  · exact fun h => .inr (.inl h)

/-! ## Files -/

/-- The names in the remarks at the head of the file that carries out a task, each with what stands
behind it: that of the table, and those of the columns whose comments are remarks. -/
def remarkedNames (e : Engine) (o : Options) (t : Task) : List (List Char) :=
  (t.table.name.toList ++ ['\n']) ::
    match t.phase with
    | .createTable => (remarkedColumns e o t.table).map fun f => f.name.toList ++ [':']
    | .attachForeignKeys => []

theorem allRemarks_script (e : Engine) (o : Options) (t : Task) :
    AllRemarks ((script e o t).preamble.text e).toList ↔
      ∀ s ∈ remarkedNames e o t, StaysRemark s := by
  unfold script remarkedNames
  cases t.phase with
  | createTable =>
    rw [List.forall_mem_cons, List.forall_mem_map]
    exact allRemarks_create e o t
  | attachForeignKeys =>
    rw [List.forall_mem_singleton]
    exact allRemarks_attach e o t

/-- In every file for a database, whether it carries a task out or undoes it, the lines before the
first statement are remarks exactly when the names in them go on as remarks; comments always do. The
keys of PostgreSQL are added in blocks, and a block has a dollar mark between its own two exactly when
a name in it has one. -/
theorem text_contained (o : Options) (t : Task) :
    (∀ e, (content (.sql e) o t).value = (script e o t).text e ∧
      (AllRemarks ((script e o t).preamble.text e).toList ↔
        ∀ s ∈ remarkedNames e o t, StaysRemark s)) ∧
    (∀ e, (rollbackContent e o t).value = (undoScript e o t).text e ∧
      (AllRemarks ((undoScript e o t).preamble.text e).toList ↔
        StaysRemark (t.table.name.toList ++ ['\n']))) ∧
    (attach .postgres o t).text .postgres =
      Script.text .postgres (header "Add foreign keys to" t) ++ String.join (t.edges.map fun k =>
        "DO $$" ++ blockText k.owner.name (keyDef .postgres k) ++ "$$;" ++ "\n") ∧
    ∀ k : Edge, dollarMark <:+: (blockText k.owner.name (keyDef .postgres k)).toList ↔
      ∃ n ∈ blockNames k.owner.name (keyDef .postgres k), dollarMark <:+: n.toList := by
  refine ⟨fun e => ⟨value_content e o t, allRemarks_script e o t⟩,
    fun e => ⟨value_rollbackContent e o t, allRemarks_undoScript e o t⟩, ?_,
    fun k => dollarMark_infix_blockText _ _⟩
  rw [attach, if_neg (by decide), Script.text, List.map_append, String.join_append, List.map_map]
  refine congrArg (Script.text .postgres (header _ t) ++ ·) (congrArg String.join ?_)
  exact List.map_congr_left fun k _ => congrArg (· ++ "\n") (text_addForeignKey _ _)

end Schemata.Code.Sql
