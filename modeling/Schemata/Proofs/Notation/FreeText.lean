import Schemata.Proofs.Column.Cast
import Schemata.Proofs.Notation.Feeds
import Schemata.Proofs.Notation.RoundTrip

/-!
# Free text

The comments of tables and fields, the defaults of columns that hold text, the labels of enumerations
and the names of indexes may say anything. The writer puts each on one line and only escapes the line
feed, while the reader ends a line at every boundary that Unicode knows. So a schema in which everything
but these texts can be written (`Schema.IsFramed`) is always written, but a text comes back exactly if
its only boundaries are line feeds and, for a label, if it is not written without quotes with a line
feed at its end (`parse_serialize_texts_iff`).
-/

namespace Schemata

open Text Notation

/-! ## Places -/

/-- A place of free text in a schema, by positions. -/
inductive TextPlace
  | tableComment (table : Nat)
  | fieldComment (table field : Nat)
  | default (table field : Nat)
  | label (enum value : Nat)
  | indexName (table index : Nat)
  deriving DecidableEq

/-- The text that is the default of a column that holds text. -/
def Field.textDefault? (f : Field) : Option String :=
  match f.default with
  | some (.text v) => if f.type.family = .string then some v else none
  | _ => none

/-- The text at a place. -/
def Outline.textAt? (o : Outline) : TextPlace → Option String
  | .tableComment t => o.tables[t]?.map (·.comment)
  | .fieldComment t f => (o.tables[t]?.bind (·.fields[f]?)).map (·.comment)
  | .default t f => (o.tables[t]?.bind (·.fields[f]?)).bind Field.textDefault?
  | .label e v => o.enums[e]?.bind (·.values[v]?)
  | .indexName t i => (o.tables[t]?.bind (·.indexes[i]?)).bind (·.name)

def Schema.textAt? (s : Schema) (p : TextPlace) : Option String := s.outline.textAt? p

/-- Whether the notation carries a text at a place. -/
def TextPlace.Carries : TextPlace → String → Prop
  | .label _ _, v => FeedsOnly v ∧ ¬LosesFeed v
  | _, v => FeedsOnly v

theorem Field.textDefault?_eq_some {f : Field} {v : String} :
    f.textDefault? = some v ↔ f.default = some (.text v) ∧ f.type.family = .string := by
  unfold textDefault?
  split
  · next u hu => simp [hu, and_comm]
  · next hother =>
    simp only [reduceCtorEq, false_iff, not_and]
    exact fun h => absurd h (hother v)

/-- What all texts of an outline satisfy, part by part. -/
theorem Outline.forall_textAt? {o : Outline} {P : String → Prop} :
    (∀ p v, o.textAt? p = some v → P v) ↔
      (∀ e ∈ o.enums, ∀ v ∈ e.values, P v) ∧ ∀ t ∈ o.tables, P t.comment ∧
        (∀ f ∈ t.fields, P f.comment ∧ ∀ v ∈ f.textDefault?, P v) ∧
        ∀ i ∈ t.indexes, ∀ n ∈ i.name, P n := by
  constructor
  · intro h
    refine ⟨fun e he v hv => ?_, fun t ht => ?_⟩
    · obtain ⟨k, hk⟩ := List.getElem?_of_mem he
      obtain ⟨j, hj⟩ := List.getElem?_of_mem hv
      exact h (.label k j) v (by simp [textAt?, hk, hj])
    · obtain ⟨k, hk⟩ := List.getElem?_of_mem ht
      refine ⟨h (.tableComment k) _ (by simp [textAt?, hk]), fun f hf => ?_, fun i hi n hn => ?_⟩
      · obtain ⟨j, hj⟩ := List.getElem?_of_mem hf
        exact ⟨h (.fieldComment k j) _ (by simp [textAt?, hk, hj]),
          fun v hv => h (.default k j) v (by simpa [textAt?, hk, hj] using hv)⟩
      · obtain ⟨j, hj⟩ := List.getElem?_of_mem hi
        exact h (.indexName k j) n (by simpa [textAt?, hk, hj] using hn)
  · rintro ⟨henums, htables⟩ p v hv
    cases p with
    | tableComment k =>
      obtain ⟨t, ht, rfl⟩ := Option.map_eq_some_iff.1 hv
      exact (htables t (List.mem_of_getElem? ht)).1
    | fieldComment k j =>
      obtain ⟨f, hf, rfl⟩ := Option.map_eq_some_iff.1 hv
      obtain ⟨t, ht, hf⟩ := Option.bind_eq_some_iff.1 hf
      exact ((htables t (List.mem_of_getElem? ht)).2.1 f (List.mem_of_getElem? hf)).1
    | default k j =>
      obtain ⟨f, hf, hv⟩ := Option.bind_eq_some_iff.1 hv
      obtain ⟨t, ht, hf⟩ := Option.bind_eq_some_iff.1 hf
      exact ((htables t (List.mem_of_getElem? ht)).2.1 f (List.mem_of_getElem? hf)).2 v hv
    | label k j =>
      obtain ⟨e, he, hv⟩ := Option.bind_eq_some_iff.1 hv
      exact henums e (List.mem_of_getElem? he) v (List.mem_of_getElem? hv)
    | indexName k j =>
      obtain ⟨i, hi, hv⟩ := Option.bind_eq_some_iff.1 hv
      obtain ⟨t, ht, hi⟩ := Option.bind_eq_some_iff.1 hi
      exact (htables t (List.mem_of_getElem? ht)).2.2 i (List.mem_of_getElem? hi) v hv

theorem Outline.Feeds.feedsOnly {o : Outline} (h : o.Feeds) {p : TextPlace} {v : String}
    (hv : o.textAt? p = some v) : FeedsOnly v := by
  refine Outline.forall_textAt?.2 ⟨h.labels, fun t ht => ?_⟩ p v hv
  obtain ⟨hcomment, hnotes, hdefaults, hnames⟩ := h.tables t ht
  exact ⟨hcomment, fun f hf => ⟨hnotes f hf, fun v hv =>
    hdefaults f hf v (Field.textDefault?_eq_some.1 hv).1⟩, hnames⟩

theorem Schema.forall_textAt? {s : Schema} {P : String → Prop} :
    (∀ p v, s.textAt? p = some v → P v) ↔
      (∀ e ∈ s.enums, ∀ v ∈ e.values, P v) ∧ ∀ t ∈ s.tables, P t.comment ∧
        (∀ f ∈ t.fields, P f.comment ∧ ∀ v ∈ f.textDefault?, P v) ∧
        ∀ i ∈ t.indexes, ∀ n ∈ i.name, P n := by
  refine Outline.forall_textAt?.trans (and_congr_right fun _ => List.forall_mem_map.trans ?_)
  refine forall₂_congr fun t _ => and_congr_right fun _ => and_congr_left fun _ => ?_
  exact List.forall_mem_map

/-! ## Frames -/

/-- The field without its texts. -/
def Field.withoutTexts (f : Field) : Field :=
  { f with comment := "", default := if f.textDefault?.isSome then none else f.default }

/-- The index without a name. -/
def Index.withoutName (i : Index) : Index := { i with name := none }

/-- The table without its texts. -/
def Table.withoutTexts (t : Table) : Table :=
  { t with
    comment := ""
    fields := t.fields.map Field.withoutTexts
    indexes := t.indexes.map Index.withoutName
    nodup_fields := by
      rw [List.map_map]
      exact t.nodup_fields }

/-- The schemas that the notation can express but for their texts, which may say anything. -/
structure Schema.IsFramed (s : Schema) : Prop where
  enums : ∀ e ∈ s.enums, IsName e.name
  nodup_enums : (s.enums.map EnumType.name).Nodup
  tables : ∀ t ∈ s.tables, t.withoutTexts.IsWritten
  indexes : ∀ t ∈ s.tables, ∀ i ∈ t.indexes, i.name ≠ some ""
  nodup_tables : (s.tables.map Table.name).Nodup
  types : ∀ t ∈ s.tables, ∀ f ∈ t.fields, Types s.enums f.type
  references : ∀ r ∈ s.references, r.IsWritten s

theorem Field.isWritten_iff {f : Field} :
    f.IsWritten ↔ f.withoutTexts.IsWritten ∧
      FeedsOnly f.comment ∧ ∀ v ∈ f.textDefault?, FeedsOnly v := by
  constructor
  · intro h
    refine ⟨⟨h.name, h.type, fun d hd => ?_, by simp [withoutTexts, FeedsOnly], h.serial, h.counting⟩,
      h.comment, fun v hv => h.default _ (textDefault?_eq_some.1 hv).1⟩
    rw [withoutTexts] at hd
    dsimp only at hd
    split at hd
    · cases hd
    · exact h.default d hd
  · rintro ⟨h, hcomment, hdefault⟩
    refine ⟨h.name, h.type, fun d hd => ?_, hcomment, h.serial, h.counting⟩
    cases hv : f.textDefault? with
    | none => exact h.default d (by simpa [withoutTexts, hv] using hd)
    | some v =>
      obtain rfl : .text v = d :=
        Option.some.inj ((textDefault?_eq_some.1 hv).1.symm.trans hd)
      exact hdefault v hv

theorem Index.isWritten_iff {columns : List String} {i : Index} :
    i.IsWritten columns ↔ i.withoutName.IsWritten columns ∧ i.name ≠ some "" ∧
      ∀ n ∈ i.name, FeedsOnly n := by
  constructor
  · intro h
    exact ⟨⟨h.columns, h.names, h.closed, by simp [withoutName]⟩,
      fun hn => (h.name "" hn).1 rfl, fun n hn => (h.name n hn).2⟩
  · rintro ⟨h, hne, hname⟩
    exact ⟨h.columns, h.names, h.closed, fun n hn => ⟨fun he => hne (he ▸ hn), hname n hn⟩⟩

theorem Table.isWritten_iff {t : Table} :
    t.IsWritten ↔ t.withoutTexts.IsWritten ∧ (∀ i ∈ t.indexes, i.name ≠ some "") ∧
      FeedsOnly t.comment ∧
      (∀ f ∈ t.fields, FeedsOnly f.comment ∧ ∀ v ∈ f.textDefault?, FeedsOnly v) ∧
      ∀ i ∈ t.indexes, ∀ n ∈ i.name, FeedsOnly n := by
  have hcolumns : t.withoutTexts.fields.map Field.name = t.fields.map Field.name := by
    rw [withoutTexts, List.map_map]
    rfl
  constructor
  · intro h
    refine ⟨⟨h.name, ?_, hcolumns ▸ h.nodup, ?_, by simp [withoutTexts, FeedsOnly], h.color⟩,
      fun i hi => (Index.isWritten_iff.1 (h.indexes i hi)).2.1, h.comment,
      fun f hf => (Field.isWritten_iff.1 (h.fields f hf)).2,
      fun i hi => (Index.isWritten_iff.1 (h.indexes i hi)).2.2⟩
    · exact List.forall_mem_map.2 fun f hf => (Field.isWritten_iff.1 (h.fields f hf)).1
    · rw [hcolumns]
      exact List.forall_mem_map.2 fun i hi => (Index.isWritten_iff.1 (h.indexes i hi)).1
  · rintro ⟨h, hnamed, hcomment, hfields, hindexes⟩
    have hwritten := h.indexes
    rw [hcolumns] at hwritten
    refine ⟨h.name, fun f hf => ?_, hcolumns ▸ h.nodup, fun i hi => ?_, hcomment, h.color⟩
    · exact Field.isWritten_iff.2 ⟨h.fields _ (List.mem_map_of_mem hf), hfields f hf⟩
    · exact Index.isWritten_iff.2
        ⟨hwritten _ (List.mem_map_of_mem hi), hnamed i hi, hindexes i hi⟩

/-- The schemas that can be written and read back are those whose frame can be and whose texts break
lines with line feeds only. -/
theorem Schema.isWritable_iff {s : Schema} :
    s.IsWritable ↔ s.IsFramed ∧ ∀ p v, s.textAt? p = some v → FeedsOnly v := by
  rw [forall_textAt?]
  constructor
  · intro h
    have htables := fun t ht => Table.isWritten_iff.1 (h.tables t ht)
    exact ⟨⟨fun e he => (h.enums e he).name, h.nodup_enums, fun t ht => (htables t ht).1,
      fun t ht => (htables t ht).2.1, h.nodup_tables, h.types, h.references⟩,
      fun e he => (h.enums e he).values, fun t ht => (htables t ht).2.2⟩
  · rintro ⟨h, hlabels, htexts⟩
    exact ⟨fun e he => ⟨h.enums e he, hlabels e he⟩, h.nodup_enums,
      fun t ht => Table.isWritten_iff.2 ⟨h.tables t ht, h.indexes t ht, htexts t ht⟩,
      h.nodup_tables, h.types, h.references⟩

/-! ## What comes back -/

/-- A text as it comes back from a place. -/
def TextPlace.keep : TextPlace → String → String
  | .label _ _, v => keptLabel v
  | _, v => v

theorem TextPlace.carries_iff {p : TextPlace} {v : String} :
    p.Carries v ↔ FeedsOnly v ∧ p.keep v = v := by
  cases p with
  | label e i => exact and_congr_right fun _ => (keptLabel_eq_iff v).symm
  | _ => exact ⟨fun h => ⟨h, rfl⟩, And.left⟩

theorem TextPlace.Carries.feedsOnly {p : TextPlace} {v : String} (h : p.Carries v) : FeedsOnly v :=
  (carries_iff.1 h).1

theorem Field.textDefault?_kept {f : Field} {v : String} (h : f.textDefault? = some v) :
    f.kept.textDefault? = some v := by
  obtain ⟨hdefault, hfamily⟩ := textDefault?_eq_some.1 h
  refine textDefault?_eq_some.2 ⟨?_, ?_⟩
  · show f.default.map (Default.kept f.type) = some (.text v)
    rw [hdefault, Option.map_some, Default.kept, Literal.typed_of_string hfamily,
      String.ofList_toList]
  · show f.type.keepLabels.family = .string
    rw [ColumnType.family, ColumnType.kind_keepLabels]
    exact hfamily

/-- The texts of the outline that the notation keeps. -/
theorem Outline.textAt?_kept {o : Outline} {p : TextPlace} {v : String}
    (h : o.textAt? p = some v) : o.kept.textAt? p = some (p.keep v) := by
  cases p with
  | tableComment k =>
    obtain ⟨t, ht, rfl⟩ := Option.map_eq_some_iff.1 h
    simp [textAt?, kept, TextPlace.keep, TableOutline.kept, ht]
  | fieldComment k j =>
    obtain ⟨f, hf, rfl⟩ := Option.map_eq_some_iff.1 h
    obtain ⟨t, ht, hf⟩ := Option.bind_eq_some_iff.1 hf
    simp [textAt?, kept, TextPlace.keep, TableOutline.kept, Field.kept, ht, hf]
  | default k j =>
    obtain ⟨f, hf, hv⟩ := Option.bind_eq_some_iff.1 h
    obtain ⟨t, ht, hf⟩ := Option.bind_eq_some_iff.1 hf
    simp [textAt?, kept, TextPlace.keep, TableOutline.kept, ht, hf, Field.textDefault?_kept hv]
  | label k j =>
    obtain ⟨e, he, hv⟩ := Option.bind_eq_some_iff.1 h
    simp [textAt?, kept, TextPlace.keep, EnumType.keepLabels, he, hv]
  | indexName k j =>
    obtain ⟨i, hi, hv⟩ := Option.bind_eq_some_iff.1 h
    obtain ⟨t, ht, hi⟩ := Option.bind_eq_some_iff.1 hi
    simp [textAt?, kept, TextPlace.keep, TableOutline.kept, ht, hi, hv]

namespace Notation

/-- Of a schema that can be written and read back, exactly the texts that the notation carries come back
at their places. -/
theorem exists_textAt?_iff {s : Schema} (h : s.IsWritable) :
    ∃ text s', serialize s = .ok text ∧ (parse text).outcome = .ok s' ∧
      ∀ p v, s.textAt? p = some v → (s'.textAt? p = some v ↔ p.Carries v) := by
  obtain ⟨text, i, j, htext, hitems⟩ := itemsOf_serialize h
  obtain ⟨s', hbuild, hkept⟩ := build_writtenItems h i j
  have hparse : parse text = pure s' := by
    rw [parse, hitems, pure_bind, hbuild]
  refine ⟨text, s', htext, by rw [hparse]; rfl, fun p v hv => ?_⟩
  have hkeep : s'.textAt? p = some (p.keep v) := by
    rw [Schema.textAt?, hkept]
    exact Outline.textAt?_kept hv
  rw [hkeep, Option.some_inj, TextPlace.carries_iff]
  exact (and_iff_right ((Schema.isWritable_iff.1 h).2 p v hv)).symm

/-- A schema whose frame can be written is written. All its texts come back exactly if the notation
carries each at its place, and one text among others that break lines with line feeds only comes back
exactly if the notation carries it at its place. -/
theorem parse_serialize_texts_iff (s : Schema) (h : s.IsFramed) :
    ∃ text, serialize s = .ok text ∧
      ((∃ s', (parse text).outcome = .ok s' ∧
          ∀ p v, s.textAt? p = some v → s'.textAt? p = some v) ↔
        ∀ p v, s.textAt? p = some v → p.Carries v) ∧
      ∀ p v, s.textAt? p = some v →
        (∀ q w, q ≠ p → s.textAt? q = some w → FeedsOnly w) →
        ((∃ s', (parse text).outcome = .ok s' ∧ s'.textAt? p = some v) ↔ p.Carries v) := by
  obtain ⟨text, htext⟩ : ∃ text, serialize s = .ok text :=
    Schema.exists_serialize (fun r hr => (h.references r hr).ends) _
  have hback : (∀ p v, s.textAt? p = some v → FeedsOnly v) →
      ∃ s', (parse text).outcome = .ok s' ∧
        ∀ p v, s.textAt? p = some v → (s'.textAt? p = some v ↔ p.Carries v) := by
    intro hfeeds
    obtain ⟨text', s', htext', hs', hiff⟩ :=
      exists_textAt?_iff (Schema.isWritable_iff.2 ⟨h, hfeeds⟩)
    obtain rfl : text = text' := Except.ok.inj (htext.symm.trans htext')
    exact ⟨s', hs', hiff⟩
  -- whatever comes back has been read, so the frame is all that has to be known beforehand
  have hread : ∀ {s' p v}, (parse text).outcome = .ok s' → s'.textAt? p = some v → FeedsOnly v :=
    fun hs' hv => (feeds_of_parse hs').feedsOnly hv
  refine ⟨text, htext, ⟨?_, fun hcarries => ?_⟩, fun p v hv hothers => ?_⟩
  · rintro ⟨s', hs', hsame⟩
    obtain ⟨_, hs'', hiff⟩ := hback fun p v hv => hread hs' (hsame p v hv)
    cases hs'.symm.trans hs''
    exact fun p v hv => (hiff p v hv).1 (hsame p v hv)
  · obtain ⟨s', hs', hiff⟩ := hback fun p v hv => (hcarries p v hv).feedsOnly
    exact ⟨s', hs', fun p v hv => (hiff p v hv).2 (hcarries p v hv)⟩
  · have hall : FeedsOnly v → ∀ q w, s.textAt? q = some w → FeedsOnly w := by
      intro hfeeds q w hw
      by_cases hq : q = p
      · subst hq
        rwa [Option.some.inj (hw.symm.trans hv)]
      · exact hothers q w hq hw
    constructor
    · rintro ⟨s', hs', hsame⟩
      obtain ⟨_, hs'', hiff⟩ := hback (hall (hread hs' hsame))
      cases hs'.symm.trans hs''
      exact (hiff p v hv).1 hsame
    · intro hcarries
      obtain ⟨s', hs', hiff⟩ := hback (hall hcarries.feedsOnly)
      exact ⟨s', hs', (hiff p v hv).2 hcarries⟩

def noteField : Field where
  id := "f0"
  name := "id"
  type := .plain .integer
  isInteger_of_autoIncrement := fun _ => rfl

/-- Notes, with a carriage return in the comment. -/
def notes : Schema where
  tables := [{ id := "t0", name := "notes", fields := [noteField], comment := "a\rb" }]

theorem isFramed_notes : notes.IsFramed := by
  have hname : ∀ n ∈ ["notes", "id"], IsName n := by
    have check : ∀ n ∈ ["notes", "id"], n.toList ≠ [] ∧
        ∀ c ∈ n.toList, c ≠ '"' ∧ c ≠ '\\' ∧ isLineBreak c = false := by decide
    exact fun n hn => ⟨(check n hn).1, (check n hn).2⟩
  have htype : (ColumnType.plain .integer).IsSpelled := by
    constructor <;> simp [ColumnType.plain]
  have hfield : noteField.IsWritten :=
    ⟨hname _ (by simp [noteField]), .inl htype, by simp [noteField], by simp [noteField, FeedsOnly],
      by decide, fun _ _ => rfl⟩
  constructor
  · simp [notes]
  · decide
  · intro t ht
    obtain rfl := List.mem_singleton.1 ht
    refine ⟨hname _ (by simp [Table.withoutTexts]), ?_, by decide, by simp [Table.withoutTexts],
      by simp [Table.withoutTexts, FeedsOnly], .inl rfl⟩
    exact List.forall_mem_singleton.2 (Field.isWritten_iff.1 hfield).1
  · simp [notes]
  · decide
  · intro t ht f hf
    obtain rfl := List.mem_singleton.1 ht
    obtain rfl := List.mem_singleton.1 hf
    exact .inr ⟨htype, by simp [notes]⟩
  · simp [notes]

/-- The comment of the notes does not come back. -/
theorem parse_serialize_notes : notes.IsFramed ∧
    notes.textAt? (.tableComment 0) = some "a\rb" ∧
    (∀ q w, q ≠ .tableComment 0 → notes.textAt? q = some w → FeedsOnly w) ∧
    ∃ text, serialize notes = .ok text ∧
      ¬∃ s', (parse text).outcome = .ok s' ∧ s'.textAt? (.tableComment 0) = some "a\rb" := by
  have hothers : ∀ q w, q ≠ .tableComment 0 → notes.textAt? q = some w → FeedsOnly w := by
    intro q w hq hw
    -- the only other text is the comment of the field, which is empty
    have hempty : w = "" := by
      rcases q with (_ | _) | ⟨_ | _, _ | _⟩ | ⟨_ | _, _ | _⟩ | ⟨_, _⟩ | ⟨_ | _, _⟩ <;>
        simp_all [Schema.textAt?, Outline.textAt?, Schema.outline, Table.outline, notes, noteField,
          Field.unplaced, Field.textDefault?]
    rw [hempty]
    simp [FeedsOnly]
  obtain ⟨text, htext, -, hone⟩ := parse_serialize_texts_iff notes isFramed_notes
  refine ⟨isFramed_notes, rfl, hothers, text, htext, fun hback => ?_⟩
  have hfeeds : FeedsOnly "a\rb" := (hone (.tableComment 0) "a\rb" rfl hothers).1 hback
  exact absurd (hfeeds '\r' (by decide) (by decide)) (by decide)

end Notation

end Schemata
