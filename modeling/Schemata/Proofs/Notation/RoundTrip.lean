import Schemata.Proofs.Notation.Builder

/-!
# The round trip through the notation

`parse_serialize`: the text of a schema that the notation can express is read back without a finding
as a schema with the same outline, but for the labels that end with a line feed and are plain names
before it, and for defaults that do not fit their type. Such a label is written without quotes, its
line feed ends its line, and the label comes back without it.
-/

namespace Schemata

open Text Notation

namespace Notation

/-- A label that is written without quotes although it ends with a line feed. -/
def LosesFeed (label : String) : Prop :=
  isPlainName label.toList = true ∧ label.toList.getLast? = some '\n'

/-- A schema keeps its outline exactly if no label loses its line feed and all defaults fit. -/
theorem kept_eq_self_iff {s : Schema} (h : s.IsWritable) :
    s.outline.kept = s.outline ↔ (∀ e ∈ s.enums, ∀ v ∈ e.values, ¬LosesFeed v) ∧
      ∀ t ∈ s.tables, ∀ f ∈ t.fields, ∀ d ∈ f.default, d.Fits f.type := by
  constructor
  · intro heq
    refine ⟨fun e he v hv => ?_, fun t ht f hf d hd => ?_⟩
    · have henums : s.enums.map EnumType.keepLabels = s.enums.map id := by
        rw [List.map_id]
        exact congrArg Outline.enums heq
      have hvalues : e.values.map keptLabel = e.values.map id := by
        rw [List.map_id]
        exact congrArg EnumType.values (List.map_inj_left.1 henums e he)
      exact (keptLabel_eq_iff v).1 (List.map_inj_left.1 hvalues v hv)
    · have htables : s.tables.map (fun t => t.outline.kept) = s.tables.map Table.outline := by
        have := congrArg Outline.tables heq
        rwa [Outline.kept, Schema.outline, List.map_map] at this
      have hfields : t.fields.map (fun f => f.unplaced.kept) = t.fields.map Field.unplaced := by
        have := congrArg TableOutline.fields (List.map_inj_left.1 htables t ht)
        rwa [TableOutline.kept, Table.outline, List.map_map] at this
      have hdefault : f.default.map (Default.kept f.type) = f.default :=
        congrArg Field.default (List.map_inj_left.1 hfields f hf)
      rw [Option.mem_def.1 hd, Option.map_some, Option.some_inj] at hdefault
      exact (Default.kept_eq_self_iff f.type d).1 hdefault
  · rintro ⟨hkept, hfits⟩
    have hvalues : ∀ e ∈ s.enums, e.values.map keptLabel = e.values := fun e he =>
      (List.map_congr_left fun v hv => (keptLabel_eq_iff v).2 (hkept e he v hv)).trans
        (List.map_id _)
    have henums : s.enums.map EnumType.keepLabels = s.enums := by
      refine (List.map_congr_left fun e he => ?_).trans (List.map_id _)
      rw [EnumType.keepLabels, hvalues e he]
      rfl
    have hfield : ∀ t ∈ s.tables, ∀ f ∈ t.fields, f.unplaced.kept = f.unplaced := by
      intro t ht f hf
      have htype : f.type.keepLabels = f.type := by
        apply ColumnType.keepLabels_eq_self
        intro hname
        rcases h.types t ht f hf with ⟨e, he, htype⟩ | ⟨hspelled, -⟩
        · rw [htype]
          exact hvalues e he
        · simp [hspelled.enumName] at hname
      have hdefault : f.default.map (Default.kept f.type) = f.default := by
        cases hd : f.default with
        | none => rfl
        | some d =>
          rw [Option.map_some, (Default.kept_eq_self_iff f.type d).2 (hfits t ht f hf d hd)]
      simp [Field.kept, Field.unplaced, htype, hdefault]
    have htables : (s.tables.map Table.outline).map TableOutline.kept =
        s.tables.map Table.outline := by
      rw [List.map_map]
      apply List.map_congr_left
      intro t ht
      have hfields : (t.fields.map Field.unplaced).map Field.kept = t.fields.map Field.unplaced := by
        rw [List.map_map]
        exact List.map_congr_left fun f hf => hfield t ht f hf
      simp [TableOutline.kept, Table.outline, hfields]
    simp [Outline.kept, Schema.outline, henums, htables]

/-- A schema that the notation can express is written and read back with its outline, but for the
line feeds at the ends of labels that are written without quotes and for the defaults whose text
means something else for their type. -/
theorem parse_serialize (s : Schema) (h : s.IsWritable) :
    ∃ text s', serialize s = .ok text ∧ (parse text).findings = [] ∧
      (parse text).outcome = .ok s' ∧ s'.outline = s.outline.kept ∧
      (s'.outline = s.outline ↔ (∀ e ∈ s.enums, ∀ v ∈ e.values, ¬LosesFeed v) ∧
        ∀ t ∈ s.tables, ∀ f ∈ t.fields, ∀ d ∈ f.default, d.Fits f.type) := by
  obtain ⟨text, i, j, htext, hitems⟩ := itemsOf_serialize h
  obtain ⟨s', hbuild, hout⟩ := build_writtenItems h i j
  have hparse : parse text = pure s' := by
    rw [parse, hitems, pure_bind, hbuild]
  refine ⟨text, s', htext, by rw [hparse]; rfl, by rw [hparse]; rfl, hout, ?_⟩
  rw [hout]
  exact kept_eq_self_iff h

/-- Moods, one of which is written without quotes and ends with a line feed. -/
def moodEnum : EnumType := ⟨"mood", ["b\n", "so so"]⟩

def idField : Field where
  id := "p.id"
  name := "id"
  type := .plain .serial
  primaryKey := true
  nullable := false
  autoIncrement := true
  isInteger_of_autoIncrement := fun _ => rfl

def moodField : Field where
  id := "p.mood"
  name := "current mood"
  type := .ofEnum "mood" ["b\n", "so so"]
  default := some (.text "so so")
  comment := "// it's a mood"

def people : Table where
  id := "p"
  name := "people"
  fields := [idField, moodField]
  indexes := [⟨["id", "current mood"], true, some "by mood", by simp⟩]
  color := "#fff"
  nodup_fields := by decide

/-- People with moods. -/
def moods : Schema where
  tables := [people]
  references := [⟨"r", "p", "p.id", "p", "p.id", .oneToOne, .cascade, .restrict, some "self"⟩]
  enums := [moodEnum]

theorem isWritable_moods : moods.IsWritable := by
  have hname : ∀ n ∈ ["people", "id", "current mood", "mood", "self"], IsName n := by
    have check : ∀ n ∈ ["people", "id", "current mood", "mood", "self"], n.toList ≠ [] ∧
        ∀ c ∈ n.toList, c ≠ '"' ∧ c ≠ '\\' ∧ isLineBreak c = false := by decide
    exact fun n hn => ⟨(check n hn).1, (check n hn).2⟩
  have hfeeds : ∀ s ∈ ["", "b\n", "so so", "// it's a mood", "by mood"], FeedsOnly s := by
    have check : ∀ s ∈ ["", "b\n", "so so", "// it's a mood", "by mood"], ∀ c ∈ s.toList,
        isLineBreak c = true → c = '\n' := by decide
    exact check
  have hserial : (ColumnType.plain .serial).IsSpelled := by
    constructor <;> simp [ColumnType.plain]
  have hid : idField.IsWritten := by
    refine ⟨hname _ (by simp [idField]), .inl hserial, by simp [idField], hfeeds _ (by simp [idField]),
      fun _ => rfl, fun _ _ => rfl⟩
  have hmood : moodField.IsWritten := by
    refine ⟨hname _ (by simp [moodField]), .inr ⟨"mood", _, hname _ (by simp), rfl⟩, fun d hd => ?_,
      hfeeds _ (by simp [moodField]), by decide, fun _ _ => rfl⟩
    obtain rfl : .text "so so" = d := by simpa [moodField] using hd
    exact hfeeds "so so" (by simp)
  have hpeople : people.IsWritten := by
    refine ⟨hname _ (by simp [people]), ?_, by decide, ?_, hfeeds _ (by simp [people]),
      .inr ⟨by decide, by decide⟩⟩
    · intro f hf
      rcases List.mem_cons.1 hf with rfl | hf
      · exact hid
      · obtain rfl := List.mem_singleton.1 hf
        exact hmood
    · intro i hi
      obtain rfl := List.mem_singleton.1 hi
      refine ⟨by decide, fun n hn => hname n ?_, by decide, fun n hn => ?_⟩
      · simp only [List.mem_cons, List.not_mem_nil, or_false] at hn ⊢
        tauto
      · obtain rfl : "by mood" = n := by simpa using hn
        exact ⟨by decide, hfeeds _ (by simp)⟩
  constructor
  · intro e he
    obtain rfl := List.mem_singleton.1 he
    refine ⟨hname _ (by simp [moodEnum]), fun v hv => hfeeds v ?_⟩
    simp only [moodEnum, List.mem_cons, List.not_mem_nil, or_false] at hv ⊢
    tauto
  · decide
  · intro t ht
    obtain rfl := List.mem_singleton.1 ht
    exact hpeople
  · decide
  · intro t ht f hf
    obtain rfl := List.mem_singleton.1 ht
    rcases List.mem_cons.1 hf with rfl | hf
    · exact .inr ⟨hserial, by decide⟩
    · obtain rfl := List.mem_singleton.1 hf
      exact .inl ⟨moodEnum, List.mem_singleton.2 rfl, rfl⟩
  · intro r hr
    obtain rfl := List.mem_singleton.1 hr
    refine ⟨fun n hn => ?_, by decide⟩
    obtain rfl : "self" = n := by simpa using hn
    exact hname _ (by simp)

/-- The schema of moods is read back without a finding, but not as it was. -/
theorem parse_serialize_moods : moods.IsWritable ∧
    ∃ text s', serialize moods = .ok text ∧ (parse text).findings = [] ∧
      (parse text).outcome = .ok s' ∧ s'.outline = moods.outline.kept ∧
      s'.outline ≠ moods.outline := by
  obtain ⟨text, s', htext, hfindings, houtcome, hkept, hiff⟩ := parse_serialize moods isWritable_moods
  refine ⟨isWritable_moods, text, s', htext, hfindings, houtcome, hkept, fun heq => ?_⟩
  exact (hiff.1 heq).1 moodEnum (List.mem_singleton.2 rfl) "b\n" (by simp [moodEnum])
    ⟨by decide, by decide⟩

end Notation

end Schemata
