import Schemata.Proofs.Notation.Remains
import Schemata.Proofs.Notation.Sketch

/-!
# Texts that have been read

A text is cut into lines before anything else is read of it, and each part of a schema is read from one
line. A line holds no boundary, the readers only ever leave characters out, and the escapes stand for
line feeds and tabulators. So, whatever the text is, the comments, labels, names of indexes and texts of
defaults that are read from it have no line boundary but the line feed (`feeds_of_parse`).
-/

namespace Schemata.Notation

open Text

/-! ## Texts -/

section Texts

variable {s : List Char}

theorem feedsOnly_of_unbroken (hs : ∀ c ∈ s, isLineBreak c = false) : FeedsOnly (str s) := by
  intro c hc hbreak
  rw [String.toList_ofList] at hc
  rw [hs c hc] at hbreak
  cases hbreak

/-- A text that stands on a line has no boundary but the line feeds that it spells. -/
theorem feedsOnly_unquoteText (hs : ∀ c ∈ s, isLineBreak c = false) :
    FeedsOnly (str (unquoteText s)) := by
  unfold unquoteText
  dsimp only
  split
  · next inside hinside =>
    have hsub : inside ⊆ strip s := by
      rcases Option.or_eq_some_iff.1 hinside with h | ⟨-, h⟩
      · exact between?_subset h
      · rcases Option.or_eq_some_iff.1 h with h | ⟨-, h⟩ <;> exact between?_subset h
    intro c hc hbreak
    rw [String.toList_ofList] at hc
    rcases mem_unescape hc with hc | rfl | rfl
    · rw [hs c (strip_subset s (hsub hc))] at hbreak
      cases hbreak
    · rfl
    · exact absurd hbreak (by decide)
  · exact feedsOnly_of_unbroken fun c hc => hs c (strip_subset s hc)

theorem feedsOnly_intercalate {notes : List String} (h : ∀ n ∈ notes, FeedsOnly n) :
    FeedsOnly ("\n".intercalate notes) := by
  unfold FeedsOnly
  rw [String.toList_intercalate]
  induction notes with
  | nil => simp
  | cons n notes ih =>
    obtain ⟨hn, hnotes⟩ := List.forall_mem_cons.1 h
    cases notes with
    | nil => simpa [FeedsOnly] using hn
    | cons m notes =>
      rw [List.map_cons, List.map_cons, List.intercalate_cons_cons, ← List.map_cons]
      exact List.forall_mem_append.2 ⟨List.forall_mem_append.2 ⟨hn, by simp⟩, ih hnotes⟩

theorem feedsOnly_enumLabel (hs : ∀ c ∈ s, isLineBreak c = false) :
    FeedsOnly (str (enumLabel s)) := by
  have hlabel : ∀ {label : List Char}, label ⊆ s → FeedsOnly (str
      (if label.head? = some '\'' ∨ label.head? = some '"' then unquoteText label
        else unquoteName label)) := by
    intro label hsub
    split
    · exact feedsOnly_unquoteText fun c hc => hs c (hsub hc)
    · exact feedsOnly_of_unbroken fun c hc => hs c (hsub (unquoteName_subset label hc))
  unfold enumLabel
  dsimp only
  split
  · exact hlabel (List.Subset.trans (strip_subset _) (List.takeWhile_prefix _).subset)
  · exact hlabel (List.Subset.refl s)

end Texts

/-! ## Drafts -/

/-- The texts of a field as it is written break lines with line feeds only, and its default stands on one
line. -/
structure FieldDraft.Feeds (f : FieldDraft) : Prop where
  note : FeedsOnly f.note
  default : ∀ raw ∈ f.default, ∀ c ∈ raw, isLineBreak c = false

structure TableDraft.Feeds (t : TableDraft) : Prop where
  comment : FeedsOnly t.comment
  fields : ∀ f ∈ t.fields, f.Feeds
  names : ∀ i ∈ t.indexes, ∀ n ∈ i.name, FeedsOnly n

/-- All texts of an item break lines with line feeds only. -/
def Item.Feeds : Item → Prop
  | table t => t.Feeds
  | enum e => ∀ v ∈ e.values, FeedsOnly v
  | _ => True

/-- All texts that have been read of a block break lines with line feeds only. -/
def Block.Feeds : Block → Prop
  | table t | indexes _ t => t.Feeds
  | tableNote _ t notes => t.Feeds ∧ ∀ n ∈ notes, FeedsOnly n
  | enum _ e => ∀ v ∈ e.values, FeedsOnly v
  | _ => True

section Steps

variable {line : Nat} {s : List Char} (hs : ∀ c ∈ s, isLineBreak c = false)

include hs

theorem unbroken_value {v : List Char} (h : (splitSetting s).2 = some v) :
    ∀ c ∈ v, isLineBreak c = false := fun c hc => hs c (splitSetting_subset h hc)

theorem unbroken_nonempty {v : List Char} (h : nonempty? (splitSetting s).2 = some v) :
    ∀ c ∈ v, isLineBreak c = false := unbroken_value hs (Option.filter_eq_some_iff.1 h).1

theorem unbroken_splitSettings : ∀ item ∈ splitSettings s, ∀ c ∈ item, isLineBreak c = false :=
  fun _ hitem c hc => hs c (splitSettings_subset hitem hc)

theorem TableDraft.Feeds.set {t : TableDraft} (h : t.Feeds) : (t.set s).Feeds := by
  unfold TableDraft.set
  dsimp only
  split
  · exact ⟨h.comment, h.fields, h.names⟩
  · next v hv => exact ⟨feedsOnly_unquoteText (unbroken_nonempty hs hv), h.fields, h.names⟩
  · exact h

theorem FieldDraft.Feeds.set {table : String} {f g : FieldDraft} (h : f.Feeds)
    (hg : (f.set table line s).outcome = .ok g) : g.Feeds := by
  unfold FieldDraft.set at hg
  dsimp only at hg
  split at hg
  case h_7 v _ hv =>
    cases hg
    exact ⟨h.note, fun raw hraw => by
      obtain rfl : v = raw := Option.some.inj hraw
      exact unbroken_value hs hv⟩
  case h_8 v _ hv =>
    cases hg
    exact ⟨feedsOnly_unquoteText (unbroken_value hs hv), h.default⟩
  case h_9 v _ hv =>
    split at hg
    · cases hg
      exact ⟨h.note, h.default⟩
    · cases hg
  all_goals
    cases hg
    exact ⟨h.note, h.default⟩

theorem IndexDraft.feedsOnly_set {i : IndexDraft} (h : ∀ n ∈ i.name, FeedsOnly n) :
    ∀ n ∈ (i.set s).name, FeedsOnly n := by
  unfold IndexDraft.set
  dsimp only
  split
  · exact h
  · exact h
  · next v hv =>
    intro n hn
    obtain rfl : _ = n := Option.some.inj hn
    exact feedsOnly_unquoteText (unbroken_nonempty hs hv)
  · exact h

omit hs in
/-- What each setting of a list keeps is kept by all of them. -/
theorem foldl_settings {α : Type} {P : α → Prop} {set : α → List Char → α} {settings : List Char}
    (hset : ∀ item, (∀ c ∈ item, isLineBreak c = false) → ∀ a, P a → P (set a item))
    (hsettings : ∀ c ∈ settings, isLineBreak c = false) {a : α} (ha : P a) :
    P ((splitSettings settings).foldl set a) :=
  List.foldlRecOn _ _ ha fun a ha item hitem =>
    hset item (unbroken_splitSettings hsettings item hitem) a ha

omit hs in
theorem FieldDraft.Feeds.foldlM_set {table : String} {settings : List (List Char)}
    (hsettings : ∀ item ∈ settings, ∀ c ∈ item, isLineBreak c = false) {f g : FieldDraft}
    (h : f.Feeds) (hg : (settings.foldlM (FieldDraft.set table line) f).outcome = .ok g) :
    g.Feeds := by
  induction settings generalizing f with
  | nil =>
    cases hg
    exact h
  | cons item settings ih =>
    obtain ⟨hitem, hsettings⟩ := List.forall_mem_cons.1 hsettings
    rw [List.foldlM_cons] at hg
    obtain ⟨f', hf', hg⟩ := Advised.outcome_bind_eq_ok.1 hg
    exact ih hsettings (h.set hitem hf') hg

theorem topLine_feeds {p : Progress} (h : topLine line s = .ok p) :
    p.1.Feeds ∧ ∀ i ∈ p.2, i.Feeds := by
  unfold topLine at h
  split at h
  · cases h
  · cases h
    exact ⟨trivial, by simp⟩
  · next name shortName settings hheader =>
    cases h
    refine ⟨?_, by simp⟩
    exact foldl_settings (P := TableDraft.Feeds) (fun item hitem t ht => ht.set hitem)
      (fun c hc => hs c (Header.ofLine?_subset hheader hc)) ⟨by simp [FeedsOnly], by simp, by simp⟩
  · cases h
    exact ⟨by simp [Block.Feeds], by simp⟩
  · cases h
    exact ⟨trivial, by simp⟩
  · next name body _ =>
    cases hr : referenceLine line (name.map str) body with
    | error e =>
      rw [hr] at h
      cases h
    | ok r =>
      rw [hr] at h
      cases h
      exact ⟨trivial, by simp [Item.Feeds]⟩
  · cases h
    exact ⟨trivial, by simp⟩
  · cases h
    exact ⟨trivial, by simp⟩
  · cases h

theorem tableLine_feeds {t : TableDraft} (ht : t.Feeds) {p : Progress}
    (h : (tableLine line t s).outcome = .ok p) : p.1.Feeds ∧ ∀ i ∈ p.2, i.Feeds := by
  unfold tableLine at h
  split at h
  · cases h
    exact ⟨ht, by simp⟩
  split at h
  · cases h
    exact ⟨⟨ht, by simp⟩, by simp⟩
  split at h
  · next text htext =>
    cases h
    refine ⟨⟨feedsOnly_unquoteText fun c hc => hs c (noteLine?_subset htext hc), ht.fields, ht.names⟩,
      by simp⟩
  split at h
  · cases h
  · next l hl =>
    obtain ⟨f, hf, h⟩ := Advised.outcome_bind_eq_ok.1 h
    cases h
    have hfeeds : f.Feeds := by
      refine .foldlM_set (unbroken_splitSettings fun c hc => ?_) ⟨by simp [FeedsOnly], by simp⟩ hf
      exact hs c (FieldLine.ofLine?_subset hl hc)
    refine ⟨⟨ht.comment, ?_, ht.names⟩, by simp⟩
    exact List.forall_mem_append.2 ⟨ht.fields, by simpa using hfeeds⟩

theorem indexLine_feeds {t t' : TableDraft} (ht : t.Feeds)
    (h : (indexLine line t s).outcome = .ok t') : t'.Feeds := by
  unfold indexLine at h
  split at h
  · cases h
  · cases h
    exact ht
  · next names settings hindex =>
    split at h
    · cases h
    · cases h
      refine ⟨ht.comment, ht.fields, List.forall_mem_append.2 ⟨ht.names, ?_⟩⟩
      rw [List.forall_mem_singleton]
      exact foldl_settings (P := fun i : IndexDraft => ∀ n ∈ i.name, FeedsOnly n)
        (fun item hitem i hi => IndexDraft.feedsOnly_set hitem hi)
        (fun c hc => hs c (takeIndex?_subset hindex hc)) (by simp)

theorem contentLine_feeds {b : Block} (hb : b.Feeds) {p : Progress}
    (h : (contentLine line s b).outcome = .ok p) : p.1.Feeds ∧ ∀ i ∈ p.2, i.Feeds := by
  cases b with
  | top => exact topLine_feeds hs h
  | project n =>
    have h : (projectLine n s).value = p := Except.ok.inj h
    rw [← h]
    unfold projectLine
    dsimp only
    split
    · split
      · exact ⟨trivial, List.forall_mem_singleton.2 trivial⟩
      · exact ⟨trivial, fun _ hi => absurd hi List.not_mem_nil⟩
    · split <;> exact ⟨trivial, by simp⟩
  | projectNote n =>
    cases h
    exact ⟨trivial, by simp⟩
  | table t => exact tableLine_feeds hs hb h
  | indexes n t =>
    obtain ⟨t', ht', h⟩ := Advised.outcome_bind_eq_ok.1 h
    cases h
    exact ⟨indexLine_feeds hs hb ht', by simp⟩
  | tableNote n t notes =>
    cases h
    refine ⟨⟨hb.1, List.forall_mem_append.2 ⟨hb.2, ?_⟩⟩, by simp⟩
    rw [List.forall_mem_singleton]
    exact feedsOnly_unquoteText hs
  | enum n e =>
    cases h
    refine ⟨List.forall_mem_append.2 ⟨hb, ?_⟩, by simp⟩
    rw [List.forall_mem_singleton]
    exact feedsOnly_enumLabel hs
  | references n name =>
    obtain ⟨r, -, h⟩ := Advised.outcome_bind_eq_ok.1 h
    cases h
    exact ⟨trivial, by simp [Item.Feeds]⟩
  | skipped n word =>
    cases h
    exact ⟨trivial, by simp⟩

omit hs in
theorem closingLine_feeds {b : Block} (hb : b.Feeds) {p : Progress}
    (h : closingLine line b = .ok p) : p.1.Feeds ∧ ∀ i ∈ p.2, i.Feeds := by
  cases b with
  | top => cases h
  | table t =>
    cases h
    exact ⟨trivial, List.forall_mem_singleton.2 hb⟩
  | indexes n t =>
    cases h
    exact ⟨hb, by simp⟩
  | tableNote n t notes =>
    cases h
    exact ⟨⟨feedsOnly_intercalate hb.2, hb.1.fields, hb.1.names⟩, by simp⟩
  | enum n e =>
    cases h
    exact ⟨trivial, List.forall_mem_singleton.2 hb⟩
  | project n | projectNote n | references n name | skipped n word =>
    cases h
    exact ⟨trivial, by simp⟩

/-- A line keeps the texts of the block free of boundaries but line feeds, and so are the texts of the
items that it finishes. -/
theorem step_feeds {b : Block} (hb : b.Feeds) {p : Progress} (h : (step line s b).outcome = .ok p) :
    p.1.Feeds ∧ ∀ i ∈ p.2, i.Feeds := by
  unfold step at h
  dsimp only at h
  split at h
  · cases h
    exact ⟨hb, by simp⟩
  split at h
  · exact closingLine_feeds hb h
  · exact contentLine_feeds (fun c hc => hs c (strip_subset s hc)) hb h

end Steps

/-- All texts of the items of a text break lines with line feeds only: each line keeps it so, and none
holds a boundary. -/
theorem itemsFrom_feeds {line : Nat} {b : Block} (hb : b.Feeds) {ls : List (List Char)}
    (hls : ∀ l ∈ ls, ∀ c ∈ l, isLineBreak c = false) {items : List Item}
    (h : (itemsFrom line b ls).outcome = .ok items) : ∀ i ∈ items, i.Feeds := by
  induction ls generalizing line b items with
  | nil =>
    obtain ⟨-, rfl⟩ := finish_eq_ok.1 h
    simp
  | cons l ls ih =>
    obtain ⟨hl, hls⟩ := List.forall_mem_cons.1 hls
    rw [itemsFrom] at h
    obtain ⟨⟨b', finished⟩, hstep, h⟩ := Advised.outcome_bind_eq_ok.1 h
    obtain ⟨later, hlater, h⟩ := Advised.outcome_bind_eq_ok.1 h
    cases h
    obtain ⟨hb', hfinished⟩ := step_feeds hl hb hstep
    exact List.forall_mem_append.2 ⟨hfinished, ih hb' hls hlater⟩

theorem itemsOf_feeds {text : List Char} {items : List Item}
    (h : (itemsOf text).outcome = .ok items) : ∀ i ∈ items, i.Feeds :=
  itemsFrom_feeds (b := .top) trivial (fun _ hl => no_break_of_mem_lines hl) h

/-- A text that a default on one line is read as breaks lines with line feeds only. -/
theorem feedsOnly_of_defaultOf {type : ColumnType} {raw : List Char}
    (hraw : ∀ c ∈ raw, isLineBreak c = false) {u : String}
    (h : defaultOf type raw = some (.text u)) : FeedsOnly u := by
  have hstrip : ∀ c ∈ strip raw, isLineBreak c = false := fun c hc => hraw c (strip_subset raw hc)
  unfold defaultOf at h
  dsimp only at h
  split at h
  · cases h
  split at h
  · rw [Literal.ofText_quoteDoubled] at h
    rw [Literal.eq_of_typed_eq_text (Option.some.inj h)]
    exact feedsOnly_unquoteText hstrip
  · have hfeeds := feedsOnly_of_unbroken fun c hc => hstrip c (subset_of_ofText h hc)
    rwa [str, String.ofList_toList] at hfeeds

end Schemata.Notation

/-! ## Schemas -/

namespace Schemata

open Text Notation

/-- All texts of the table break lines with line feeds only. -/
structure TableOutline.Feeds (t : TableOutline) : Prop where
  comment : FeedsOnly t.comment
  notes : ∀ f ∈ t.fields, FeedsOnly f.comment
  defaults : ∀ f ∈ t.fields, ∀ u, f.default = some (.text u) → FeedsOnly u
  names : ∀ i ∈ t.indexes, ∀ n ∈ i.name, FeedsOnly n

/-- All texts of the schema break lines with line feeds only. -/
structure Outline.Feeds (o : Outline) : Prop where
  labels : ∀ e ∈ o.enums, ∀ v ∈ e.values, FeedsOnly v
  tables : ∀ t ∈ o.tables, t.Feeds

namespace Notation

section Build

variable {d : Dialect} {enums : List EnumType} {table id : String}

theorem feeds_buildField {primaryKey : Bool} {f : FieldDraft} (hf : f.Feeds) {field : Field}
    (h : (buildField d enums table id primaryKey f).outcome = .ok field) :
    FeedsOnly field.comment ∧ ∀ u, field.default = some (.text u) → FeedsOnly u := by
  rw [← Advised.value?_eq_some, value?_buildField] at h
  obtain ⟨type, -, h⟩ := Option.bind_eq_some_iff.1 h
  unfold Field.build at h
  split at h
  · cases h
    refine ⟨hf.note, fun u hu => ?_⟩
    obtain ⟨raw, hraw, hu⟩ := Option.bind_eq_some_iff.1 hu
    exact feedsOnly_of_defaultOf (hf.default raw hraw) hu
  · cases h

theorem feeds_buildFields {keyed seen : List String} {position : Nat} {fs : List FieldDraft}
    (hfs : ∀ f ∈ fs, f.Feeds) {fields : List Field}
    (h : (buildFields d enums table id keyed position seen fs).outcome = .ok fields) :
    ∀ f ∈ fields, FeedsOnly f.comment ∧ ∀ u, f.default = some (.text u) → FeedsOnly u := by
  induction fs generalizing position seen fields with
  | nil =>
    cases h
    simp
  | cons f fs ih =>
    obtain ⟨hf, hfs⟩ := List.forall_mem_cons.1 hfs
    rw [buildFields] at h
    split at h
    · cases h
    · obtain ⟨field, hfield, h⟩ := Advised.outcome_bind_eq_ok.1 h
      obtain ⟨rest, hrest, h⟩ := Advised.outcome_bind_eq_ok.1 h
      cases h
      exact List.forall_mem_cons.2 ⟨feeds_buildField hf hfield, ih hfs hrest⟩

theorem feeds_buildIndexes {columns : List String} {is : List IndexDraft}
    (his : ∀ i ∈ is, ∀ n ∈ i.name, FeedsOnly n) {indexes : List Index}
    (h : buildIndexes table columns is = .ok indexes) :
    ∀ i ∈ indexes, ∀ n ∈ i.name, FeedsOnly n := by
  induction is generalizing indexes with
  | nil =>
    cases h
    simp
  | cons i is ih =>
    obtain ⟨hi, his⟩ := List.forall_mem_cons.1 his
    rw [buildIndexes] at h
    split at h
    · split at h
      · exact ih his h
      · obtain ⟨j, hj, h⟩ := bind_eq_ok.1 h
        obtain ⟨rest, hrest, h⟩ := bind_eq_ok.1 h
        cases h
        refine List.forall_mem_cons.2 ⟨?_, ih his hrest⟩
        unfold Index.build at hj
        split at hj
        · cases hj
          exact hi
        · cases hj
    · cases h

theorem TableDraft.Feeds.sketch {t : TableDraft} (ht : t.Feeds) {o : TableOutline}
    (h : t.sketch d enums = some o) : o.Feeds := by
  rw [← outline_buildTable_eq_sketch 0, outline_buildTable, Option.bind_eq_some_iff] at h
  obtain ⟨_, hfields, h⟩ := h
  obtain ⟨fields, hbuilt, rfl⟩ := Option.map_eq_some_iff.1 hfields
  obtain ⟨indexes, hindexes, rfl⟩ := exists_ok_of_toOption_map h
  have hfeeds := feeds_buildFields ht.fields (Advised.value?_eq_some.1 hbuilt)
  refine ⟨ht.comment, ?_, ?_, feeds_buildIndexes ht.names hindexes⟩
  · exact List.forall_mem_map.2 fun f hf => (hfeeds f hf).1
  · exact List.forall_mem_map.2 fun f hf => (hfeeds f hf).2

end Build

theorem feeds_of_build {items : List Item} (hitems : ∀ i ∈ items, i.Feeds) {s : Schema}
    (h : (build items).outcome = .ok s) : s.outline.Feeds := by
  unfold build at h
  obtain ⟨⟨tables, names⟩, htables, h⟩ := Advised.outcome_bind_eq_ok.1 h
  obtain ⟨references, -, h⟩ := Advised.outcome_bind_eq_ok.1 h
  have hbuild : Schema.build tables references (enumsOf items) (dialectOf items) = .ok s := h
  unfold Schema.build at hbuild
  split at hbuild
  · cases hbuild
    constructor
    · intro e he
      obtain ⟨i, hi, hie⟩ := List.mem_filterMap.1 he
      cases i with
      | enum e' =>
        obtain rfl := Option.some.inj hie
        exact hitems _ hi
      | _ => cases hie
    · intro o ho
      have ho : o ∈ tables.map Table.outline := ho
      rw [outline_buildTables htables] at ho
      obtain ⟨t, ht, ho⟩ := List.mem_filterMap.1 ho
      obtain ⟨i, hi, hit⟩ := List.mem_filterMap.1 ht
      cases i with
      | table t' =>
        obtain rfl := Option.some.inj hit
        exact TableDraft.Feeds.sketch (hitems _ hi) ho
      | _ => cases hit
  · cases hbuild

/-- Whatever a text says, no text of the schema that is read from it has a line boundary but the line
feed. -/
theorem feeds_of_parse {text : String} {s : Schema} (h : (parse text).outcome = .ok s) :
    s.outline.Feeds := by
  obtain ⟨items, hitems, h⟩ := Advised.outcome_bind_eq_ok.1 h
  exact feeds_of_build (itemsOf_feeds hitems) h

end Notation

end Schemata
