import Schemata.Proofs.Notation.Line

/-!
# Blocks that read back

What the first pass makes of the lines of a schema. The drafts are functions of what was written and
of the line it stands on; a lemma for each sort of block says that its lines lead from a block to
the next one, and hands the remaining lines on with their number.
-/

namespace Schemata.Notation

open Text

/-! ## Settings -/

/-- The draft of a field on a line. -/
def fieldDraft (line : Nat) (f : Field) : FieldDraft where
  name := f.name
  rawType := str (rawType f.type)
  line := line
  primaryKey := f.primaryKey
  unique := f.unique
  nullable := f.nullable
  increment := f.autoIncrement
  default := f.default.map fun d => (defaultText d).toList
  note := f.comment

/-- The draft of an index on a line. -/
def indexDraft (line : Nat) (i : Index) : IndexDraft where
  fields := i.fields
  line := line
  unique := i.unique
  name := i.name

theorem foldlM_settingIf {α : Type} {g : α → List Char → Advised α} {a b : α} {s : String} {c : Bool}
    (ht : c = true → g a s.toList = pure b) (hf : c = false → a = b) :
    ((settingIf c s).map String.toList).foldlM g a = pure b := by
  cases c with
  | false => rw [hf rfl]; rfl
  | true => simp [settingIf, ht rfl]

section Set

variable (table : String) (line : Nat) (f : FieldDraft)

theorem FieldDraft.set_pk : f.set table line "pk".toList = pure { f with primaryKey := true } := by
  have h : splitSetting "pk".toList = ("pk", none) := by decide
  simp only [FieldDraft.set, h]

theorem FieldDraft.set_increment :
    f.set table line "increment".toList = pure { f with increment := true } := by
  have h : splitSetting "increment".toList = ("increment", none) := by decide
  simp only [FieldDraft.set, h]

theorem FieldDraft.set_notNull :
    f.set table line "not null".toList = pure { f with nullable := false } := by
  have h : splitSetting "not null".toList = ("not null", none) := by decide
  simp only [FieldDraft.set, h]

theorem FieldDraft.set_unique :
    f.set table line "unique".toList = pure { f with unique := true } := by
  have h : splitSetting "unique".toList = ("unique", none) := by decide
  simp only [FieldDraft.set, h]

theorem FieldDraft.set_default {v : String} (hv : Phrase v.toList) :
    f.set table line ("default: " ++ v).toList = pure { f with default := some v.toList } := by
  have h := IsKey.splitSetting_eq (k := "default") (by decide +kernel) hv.trimmed
  rw [show "default" ++ ": " = "default: " from rfl] at h
  simp only [FieldDraft.set, h]

theorem FieldDraft.set_note (s : String) :
    f.set table line ("note: " ++ quoteText s).toList = pure { f with note := s } := by
  have h := IsKey.splitSetting_eq (k := "note") (by decide +kernel) (trimmed_quoteText s)
  rw [show "note" ++ ": " = "note: " from rfl] at h
  simp only [FieldDraft.set, h, unquoteText_quoteText, String.ofList_toList]

end Set

/-- The settings of a field make up its draft. -/
theorem foldlM_fieldSettings {f : Field} (h : f.IsWritten) (table : String) (line : Nat) :
    ((fieldSettings f).map String.toList).foldlM (FieldDraft.set table line)
      { name := f.name, rawType := str (rawType f.type), line } = pure (fieldDraft line f) := by
  set d₀ : FieldDraft := { name := f.name, rawType := str (rawType f.type), line } with hd₀
  set d₁ : FieldDraft := { d₀ with primaryKey := f.primaryKey } with hd₁
  set d₂ : FieldDraft := { d₁ with increment := f.autoIncrement } with hd₂
  set d₃ : FieldDraft := { d₂ with nullable := f.nullable } with hd₃
  set d₄ : FieldDraft := { d₃ with unique := f.unique } with hd₄
  set d₅ : FieldDraft := { d₄ with default := f.default.map fun d => (defaultText d).toList } with hd₅
  have h₁ : ((settingIf f.primaryKey "pk").map String.toList).foldlM (FieldDraft.set table line) d₀ =
      pure d₁ := by
    refine foldlM_settingIf (fun hc => ?_) fun hc => ?_
    · rw [FieldDraft.set_pk, hd₁, hc]
    · rw [hd₁, hc]
  have h₂ : ((settingIf f.autoIncrement "increment").map String.toList).foldlM
      (FieldDraft.set table line) d₁ = pure d₂ := by
    refine foldlM_settingIf (fun hc => ?_) fun hc => ?_
    · rw [FieldDraft.set_increment, hd₂, hc]
    · rw [hd₂, hc]
  have h₃ : ((settingIf (!f.nullable) "not null").map String.toList).foldlM
      (FieldDraft.set table line) d₂ = pure d₃ := by
    refine foldlM_settingIf (fun hc => ?_) fun hc => ?_
    · have hn : f.nullable = false := by simpa using hc
      rw [FieldDraft.set_notNull, hd₃, hn]
    · have hn : f.nullable = true := by simpa using hc
      rw [hd₃, hn]
  have h₄ : ((settingIf f.unique "unique").map String.toList).foldlM
      (FieldDraft.set table line) d₃ = pure d₄ := by
    refine foldlM_settingIf (fun hc => ?_) fun hc => ?_
    · rw [FieldDraft.set_unique, hd₄, hc]
    · rw [hd₄, hc]
  have h₅ : (((f.default.map fun d => "default: " ++ defaultText d).toList).map String.toList).foldlM
      (FieldDraft.set table line) d₄ = pure d₅ := by
    cases hf : f.default with
    | none => rw [hd₅, hf]; rfl
    | some v =>
      have hset := FieldDraft.set_default table line d₄ (defaultOf_defaultText f.type (h.default v hf)).1
      simp only [Option.map_some, Option.toList_some, List.map_cons, List.map_nil,
        List.foldlM_cons, List.foldlM_nil, hset, pure_bind, hd₅, hf]
  have h₆ : ((settingIf (!f.comment.isEmpty) ("note: " ++ quoteText f.comment)).map
      String.toList).foldlM (FieldDraft.set table line) d₅ = pure (fieldDraft line f) := by
    refine foldlM_settingIf (fun _ => FieldDraft.set_note table line d₅ f.comment) fun hc => ?_
    have hempty : f.comment = "" := by simpa using hc
    rw [fieldDraft, hempty]
  simp only [fieldSettings, List.map_append, List.foldlM_append, h₁, h₂, h₃, h₄, h₅, h₆, pure_bind]

/-- The settings of an index make up its draft. -/
theorem foldl_indexSettings {columns : List String} {i : Index} (h : i.IsWritten columns)
    (line : Nat) : ((indexSettings i).map String.toList).foldl IndexDraft.set
      { fields := i.fields, line } = indexDraft line i := by
  have hword : splitSetting "unique".toList = ("unique", none) := by decide
  have hunique : ((settingIf i.unique "unique").map String.toList).foldl IndexDraft.set
      { fields := i.fields, line } = { fields := i.fields, line, unique := i.unique } := by
    cases i.unique with
    | false => rfl
    | true =>
      rw [settingIf, if_pos rfl, List.map_singleton, List.foldl_cons, List.foldl_nil]
      simp only [IndexDraft.set, hword]
  rw [indexSettings, List.map_append, List.foldl_append, hunique, indexDraft]
  cases hn : i.name with
  | none => rfl
  | some n =>
    obtain ⟨hne, hfeeds⟩ := h.name n hn
    have hphrase := Phrase.quoteText hfeeds
    have hset := IsKey.splitSetting_eq (k := "name") (by decide +kernel) hphrase.trimmed
    rw [show "name" ++ ": " = "name: " from rfl] at hset
    have hfilter : (some n).filter (· ≠ "") = some n :=
      Option.filter_eq_some_iff.2 ⟨rfl, by simpa using hne⟩
    have hvalue : nonempty? (some (quoteText n).toList) = some (quoteText n).toList :=
      Option.filter_eq_some_iff.2 ⟨rfl, by simpa using hphrase.ne_nil⟩
    rw [hfilter, Option.map_some, Option.toList_some, List.map_singleton, List.foldl_cons,
      List.foldl_nil, IndexDraft.set, hset]
    simp only [hvalue, unquoteText_quoteText, String.ofList_toList]

/-- The settings of a header make up the colour of a table. -/
theorem foldl_tableSettings {t : Table} (h : t.IsWritten) (line : Nat) :
    ((tableSettings t).map String.toList).foldl TableDraft.set { name := t.name, line } =
      { name := t.name, line, color := t.color } := by
  rw [tableSettings, settingIf]
  split_ifs with hc
  · have hcolor := phrase_color (h.color.resolve_left (by simpa using hc))
    have hset := IsKey.splitSetting_eq (k := "headercolor") (by decide +kernel) hcolor.trimmed
    rw [show "headercolor" ++ ": " = "headercolor: " from rfl] at hset
    have hvalue : nonempty? (some t.color.toList) = some t.color.toList :=
      Option.filter_eq_some_iff.2 ⟨rfl, by simpa using hcolor.ne_nil⟩
    rw [List.map_singleton, List.foldl_cons, List.foldl_nil, TableDraft.set, hset]
    simp only [hvalue, String.ofList_toList]
  · have hdefault : t.color = defaultColor := by simpa using hc
    rw [hdefault]
    rfl

/-! ## Lines in a block -/

theorem strip_space (s : List Char) : strip (' ' :: s) = strip s := rfl

section Step

variable {line : Nat} {b b' : Block} {s w : List Char}

theorem step_content (hs : strip s = w) (hne : w ≠ []) (hbrace : w ≠ ['\x7d']) :
    step line s b = contentLine line w b := by
  simp only [step, hs]
  rw [if_neg (by simpa using hne), if_neg hbrace]

theorem step_blank : step line [] b = pure (b, []) := rfl

theorem step_close (hs : strip s = ['\x7d']) {p : Progress} (h : closingLine line b = .ok p) :
    step line s b = pure p := by
  simp only [step, hs, h]
  rfl

theorem step_close_indexes (line opened : Nat) (t : TableDraft) :
    step line "  \x7d".toList (.indexes opened t) = pure (.table t, []) := by
  refine step_close ?_ rfl
  decide

theorem step_close_table (line : Nat) (t : TableDraft) :
    step line ['\x7d'] (.table t) = pure (.top, [.table t]) := step_close rfl rfl

theorem step_close_enum (line opened : Nat) (e : EnumType) :
    step line ['\x7d'] (.enum opened e) = pure (.top, [.enum e]) := step_close rfl rfl

/-- A line that is read leads to the items of the lines behind it. -/
theorem itemsFrom_cons {finished later : List Item} {rest : List (List Char)}
    (hs : step line s b = pure (b', finished)) (hr : itemsFrom (line + 1) b' rest = pure later) :
    itemsFrom line b (s :: rest) = pure (finished ++ later) := by
  rw [itemsFrom, hs, pure_bind]
  simp only [hr, pure_bind]

end Step

/-! ## Tables -/

/-- The drafts of fields on consecutive lines. -/
def fieldDrafts : (line : Nat) → List Field → List FieldDraft
  | _, [] => []
  | line, f :: rest => fieldDraft line f :: fieldDrafts (line + 1) rest

/-- The drafts of indexes on consecutive lines. -/
def indexDrafts : (line : Nat) → List Index → List IndexDraft
  | _, [] => []
  | line, i :: rest => indexDraft line i :: indexDrafts (line + 1) rest

theorem tableLine_field {f : Field} (h : f.IsWritten) (t : TableDraft) (line : Nat) :
    step line ("  " ++ fieldLine f).toList (.table t) =
      pure (.table { t with fields := t.fields ++ [fieldDraft line f] }, []) := by
  obtain ⟨-, htrim, hindexes, hnote, hnoteLine, hread⟩ := ofLine?_fieldLine h
  have hne : (fieldLine f).toList ≠ [] := by
    rw [toList_fieldLine]
    simp
  have hbrace : (fieldLine f).toList ≠ ['\x7d'] := by
    rw [toList_fieldLine]
    obtain ⟨c, r, hr, -⟩ := head_quoteName h.name
    simp [hr]
  have hstrip : strip ("  " ++ fieldLine f).toList = (fieldLine f).toList := by
    rw [String.toList_append]
    show strip (' ' :: ' ' :: (fieldLine f).toList) = _
    rw [strip_space, strip_space, htrim.strip_eq]
  rw [step_content hstrip hne hbrace, contentLine, tableLine, hindexes, hnote]
  simp only [Bool.false_eq_true, if_false, hnoteLine, hread,
    splitSettings_phrases (phrase_fieldSettings h), str, String.ofList_toList,
    foldlM_fieldSettings h, pure_bind]

/-- The lines of fields lead on to the lines behind them. -/
theorem itemsFrom_fields {fs : List Field} (h : ∀ f ∈ fs, f.IsWritten) (t : TableDraft)
    (line : Nat) {rest : List (List Char)} {later : List Item}
    (hr : itemsFrom (line + fs.length) (.table { t with fields := t.fields ++ fieldDrafts line fs })
      rest = pure later) :
    itemsFrom line (.table t) (fs.map (fun f => ("  " ++ fieldLine f).toList) ++ rest) =
      pure later := by
  induction fs generalizing t line with
  | nil => simpa [fieldDrafts] using hr
  | cons f fs ih =>
    rw [List.map_cons, List.cons_append]
    refine itemsFrom_cons (tableLine_field (h f (by simp)) t line)
      (ih (fun g hg => h g (by simp [hg])) _ _ ?_)
    rw [List.append_assoc, Nat.add_assoc, Nat.add_comm 1]
    exact hr

theorem indexLine_index {columns : List String} {i : Index} (h : i.IsWritten columns)
    (opened : Nat) (t : TableDraft) (line : Nat) :
    step line ("    " ++ indexText i).toList (.indexes opened t) =
      pure (.indexes opened { t with indexes := t.indexes ++ [indexDraft line i] }, []) := by
  obtain ⟨-, htrim, hne, hbrace, hread⟩ := takeIndex?_indexText h
  have hstrip : strip ("    " ++ indexText i).toList = (indexText i).toList := by
    rw [String.toList_append]
    show strip (' ' :: ' ' :: ' ' :: ' ' :: (indexText i).toList) = _
    rw [strip_space, strip_space, strip_space, strip_space, htrim.strip_eq]
  have hnames : (i.fields.map String.toList).map str = i.fields := by
    rw [List.map_map]
    calc i.fields.map (str ∘ String.toList) = i.fields.map id :=
          List.map_congr_left fun n _ => String.ofList_toList
      _ = i.fields := List.map_id _
  rw [step_content hstrip hne hbrace, contentLine, indexLine, hread]
  simp only [List.isEmpty_map, List.isEmpty_eq_false_iff.2 i.fields_ne_nil, Bool.false_eq_true,
    if_false, splitSettings_phrases (phrase_indexSettings h), hnames, foldl_indexSettings h,
    pure_bind]

/-- The lines of indexes lead on to the lines behind them. -/
theorem itemsFrom_indexes {columns : List String} {is : List Index}
    (h : ∀ i ∈ is, i.IsWritten columns) (opened : Nat) (t : TableDraft) (line : Nat)
    {rest : List (List Char)} {later : List Item}
    (hr : itemsFrom (line + is.length)
      (.indexes opened { t with indexes := t.indexes ++ indexDrafts line is }) rest = pure later) :
    itemsFrom line (.indexes opened t) (is.map (fun i => ("    " ++ indexText i).toList) ++ rest) =
      pure later := by
  induction is generalizing t line with
  | nil => simpa [indexDrafts] using hr
  | cons i is ih =>
    rw [List.map_cons, List.cons_append]
    refine itemsFrom_cons (indexLine_index (h i (by simp)) opened t line)
      (ih (fun j hj => h j (by simp [hj])) _ _ ?_)
    rw [List.append_assoc, Nat.add_assoc, Nat.add_comm 1]
    exact hr

/-- How many lines the comment of a table takes. -/
def noteLines (t : Table) : Nat := if t.comment.isEmpty then 0 else 1

/-- The draft of a table whose header is on a line. -/
def tableDraft (line : Nat) (t : Table) : TableDraft where
  name := t.name
  line := line
  comment := t.comment
  color := t.color
  fields := fieldDrafts (line + 1) t.fields
  indexes := indexDrafts (line + 1 + t.fields.length + noteLines t + 1) t.indexes

theorem tableLine_note (s : String) (t : TableDraft) (line : Nat) :
    step line ("  Note: " ++ quoteText s).toList (.table t) =
      pure (.table { t with comment := s }, []) := by
  set w : List Char := "Note".toList ++ ':' :: ' ' :: (quoteText s).toList with hw
  obtain ⟨r, hr⟩ : ∃ r, (quoteText s).toList = '\'' :: r := ⟨_, toList_quoteText s⟩
  have hne : (quoteText s).toList ≠ [] := by
    rw [hr]
    exact List.cons_ne_nil _ _
  have htrim : Trimmed w := by
    apply Trimmed.append (by constructor <;> decide) (by decide)
    exact last_append (s := [':', ' ']) hne (trimmed_quoteText s).2
  have hstrip : strip ("  Note: " ++ quoteText s).toList = w := by
    rw [String.toList_append]
    show strip (' ' :: ' ' :: w) = w
    rw [strip_space, strip_space, htrim.strip_eq]
  have hindexes : opensWith "indexes" w = false := rfl
  have hkeyword : dropKeyword? "note".toList w = some (':' :: ' ' :: (quoteText s).toList) :=
    dropKeyword?_append (by decide) _
  have hnote : opensWith "note" w = false := by
    rw [opensWith, hkeyword]
    rfl
  have hline : noteLine? w = some (quoteText s).toList := by
    rw [noteLine?, hkeyword, Option.bind_eq_bind, Option.bind_some, skipBlanks_cons (by decide), hr]
    simp only [skipBlanks_space, skipBlanks_cons (c := '\'') (by decide)]
    rfl
  rw [step_content hstrip (by simp [hw]) (by simp [hw]), contentLine, tableLine, hindexes, hnote]
  simp only [Bool.false_eq_true, if_false, hline, unquoteText_quoteText, str, String.ofList_toList]

/-- The comment of a table leads on to the lines behind it. -/
theorem itemsFrom_note (t : Table) (d : TableDraft) (hd : d.comment = "") (line : Nat)
    {rest : List (List Char)} {later : List Item}
    (hr : itemsFrom (line + noteLines t) (.table { d with comment := t.comment }) rest =
      pure later) :
    itemsFrom line (.table d) (((settingIf (!t.comment.isEmpty)
      ("  Note: " ++ quoteText t.comment)).map String.toList) ++ rest) = pure later := by
  rw [noteLines] at hr
  by_cases hc : t.comment = ""
  · have hsame : { d with comment := t.comment } = d := by rw [hc, ← hd]
    rw [hsame] at hr
    simpa [settingIf, hc] using hr
  · rw [settingIf, if_pos (by simpa using hc), List.map_singleton, List.singleton_append]
    rw [if_neg (by simpa using hc)] at hr
    exact itemsFrom_cons (tableLine_note t.comment d line) hr

/-- The lines of the indexes of a table, with the lines around them. -/
def indexBlock (t : Table) : List (List Char) :=
  if t.indexes.isEmpty then []
  else "  indexes \x7b".toList :: (t.indexes.map (fun i => ("    " ++ indexText i).toList) ++
    ["  \x7d".toList])

theorem itemsFrom_indexBlock {t : Table} (h : t.IsWritten) (d : TableDraft) (hd : d.indexes = [])
    (line : Nat) {rest : List (List Char)} {later : List Item}
    (hr : itemsFrom (line + (indexBlock t).length)
      (.table { d with indexes := indexDrafts (line + 1) t.indexes }) rest = pure later) :
    itemsFrom line (.table d) (indexBlock t ++ rest) = pure later := by
  by_cases hi : t.indexes = []
  · have hsame : { d with indexes := indexDrafts (line + 1) t.indexes } = d := by
      rw [hi, indexDrafts, ← hd]
    rw [hsame] at hr
    simpa [indexBlock, hi] using hr
  · have hopen : step line "  indexes \x7b".toList (.table d) = pure (.indexes line d, []) := by
      rw [step_content (w := "indexes \x7b".toList) (by decide) (by decide) (by decide), contentLine,
        tableLine, show opensWith "indexes" "indexes \x7b".toList = true by decide]
      rfl
    rw [indexBlock, if_neg (by simpa using hi)] at hr ⊢
    rw [List.cons_append, List.append_assoc]
    refine itemsFrom_cons hopen (itemsFrom_indexes h.indexes line d (line + 1) ?_)
    apply itemsFrom_cons (step_close_indexes _ _ _)
    rw [hd, List.nil_append]
    simp only [List.length_cons, List.length_append, List.length_map, List.length_nil] at hr
    rw [show line + 1 + t.indexes.length + 1 = line + (t.indexes.length + 1 + 1) by omega]
    exact hr

/-- The lines of a table make up its draft. -/
theorem itemsFrom_table {t : Table} (h : t.IsWritten) (line : Nat) {rest : List (List Char)}
    {later : List Item}
    (hr : itemsFrom (line + (tableLines t).length) .top rest = pure later) :
    itemsFrom line .top ((tableLines t).map String.toList ++ rest) =
      pure (.table (tableDraft line t) :: later) := by
  obtain ⟨-, htrim, hne, hbrace, hread⟩ := ofLine?_tableHeader h
  have hheader : step line (tableHeader t).toList .top =
      pure (.table { name := t.name, line, color := t.color }, []) := by
    rw [step_content htrim.strip_eq hne hbrace, contentLine, topLine, hread]
    simp only [splitSettings_phrases (phrase_tableSettings h), str, String.ofList_toList,
      Option.map_none, foldl_tableSettings h]
    rfl
  have hlines : (tableLines t).map String.toList ++ rest = (tableHeader t).toList ::
      (t.fields.map (fun f => ("  " ++ fieldLine f).toList) ++
        (((settingIf (!t.comment.isEmpty) ("  Note: " ++ quoteText t.comment)).map String.toList) ++
          (indexBlock t ++ (['\x7d'] :: [] :: rest)))) := by
    rw [tableLines, indexBlock]
    split_ifs <;> simp [tableHeader, tableSettings, Function.comp_def]
  have hlength : (tableLines t).length =
      1 + t.fields.length + noteLines t + (indexBlock t).length + 2 := by
    have hnote : (settingIf (!t.comment.isEmpty) ("  Note: " ++ quoteText t.comment)).length =
        noteLines t := by
      rw [settingIf, noteLines]
      cases t.comment.isEmpty <;> rfl
    rw [tableLines, indexBlock]
    split_ifs <;> simp [hnote] <;> omega
  rw [hlines]
  refine itemsFrom_cons hheader (itemsFrom_fields h.fields _ _ (itemsFrom_note t _ rfl _
    (itemsFrom_indexBlock h _ rfl _ ?_)))
  refine itemsFrom_cons (step_close_table _ _) (itemsFrom_cons step_blank ?_)
  rw [show line + 1 + t.fields.length + noteLines t + (indexBlock t).length + 1 + 1 =
    line + (tableLines t).length by omega]
  exact hr

end Schemata.Notation
