import Schemata.Proofs.Computation
import Schemata.Proofs.Notation.Draft
import Schemata.Proofs.Notation.Outline

/-!
# Texts that read back

What the first pass makes of the text of a schema: the dialect, the enumerations with the labels
that the notation keeps, and the drafts of the tables and the references, in order. The text is its
written lines with a line feed behind each; no comment starts in it, and only a label can put a
further, empty line into it.
-/

namespace Schemata

open Text Notation

namespace Notation

/-! ## Texts as lines -/

/-- The lines of a text with a line feed behind each. -/
def joined (ls : List String) : List Char := ls.flatMap fun l => l.toList ++ ['\n']

theorem joined_append (l m : List String) : joined (l ++ m) = joined l ++ joined m :=
  List.flatMap_append

theorem joined_cons (l : String) (ls : List String) :
    joined (l :: ls) = l.toList ++ '\n' :: joined ls := by
  simp [joined]

theorem lines_joined {ls : List String} (h : ∀ l ∈ ls, ∀ c ∈ l.toList, isLineBreak c = false)
    (r : List Char) : lines (joined ls ++ r) = ls.map String.toList ++ lines r := by
  induction ls with
  | nil => rfl
  | cons l ls ih =>
    rw [joined_cons, List.append_assoc, List.cons_append, lines_append_newline (h l (by simp)),
      ih fun m hm => h m (by simp [hm])]
    rfl

theorem verbatim_joined {ls : List String} (h : ∀ l ∈ ls, Verbatim l.toList) :
    Verbatim (joined ls) := by
  induction ls with
  | nil => exact .nil
  | cons l ls ih =>
    rw [joined_cons]
    exact (h l (by simp)).append ((Verbatim.of_forall (s := ['\n']) (by decide)).append
      (ih fun m hm => h m (by simp [hm])))

/-- Joining with line feeds leaves out the last one. -/
theorem intercalate_newline {ls : List String} (h : ls ≠ []) :
    ("\n".intercalate ls).toList ++ ['\n'] = joined ls := by
  rw [String.toList_intercalate]
  induction ls with
  | nil => exact absurd rfl h
  | cons l ls ih =>
    cases ls with
    | nil => simp [joined]
    | cons m ls =>
      rw [List.map_cons, List.map_cons, List.intercalate_cons_cons, joined_cons, ← ih (by simp)]
      simp

/-- The text of some lines up to the last one that is not empty. -/
theorem dropTrailingBlanks_intercalate {ls : List String} {l : String} (hl : l.toList ≠ [])
    (hlast : ∀ c ∈ l.toList.getLast?, isBlank c = false) :
    dropTrailingBlanks ("\n".intercalate (ls ++ [l])).toList ++ ['\n'] = joined (ls ++ [l]) ∧
      dropTrailingBlanks ("\n".intercalate (ls ++ [l, ""])).toList ++ ['\n'] =
        joined (ls ++ [l]) := by
  have hbody := intercalate_newline (show ls ++ [l] ≠ [] by simp)
  set body := ("\n".intercalate (ls ++ [l])).toList with hb
  have hdrop : dropTrailingBlanks body = body := by
    apply dropTrailingBlanks_eq_self
    have hsplit : body ++ ['\n'] = (joined ls ++ l.toList) ++ ['\n'] := by
      rw [hbody, joined_append]
      simp [joined]
    rw [List.append_cancel_right hsplit]
    exact last_append hl hlast
  have hblank : ("\n".intercalate (ls ++ [l, ""])).toList = body ++ ['\n'] := by
    have := intercalate_newline (show ls ++ [l, ""] ≠ [] by simp)
    have hjoined : joined (ls ++ [l, ""]) = body ++ ['\n'] ++ ['\n'] := by
      rw [show ls ++ [l, ""] = (ls ++ [l]) ++ [""] by simp, joined_append, ← hbody]
      rfl
    exact List.append_cancel_right (this.trans hjoined)
  refine ⟨by rw [hdrop, hbody], ?_⟩
  have hnewline : dropTrailingBlanks (body ++ ['\n']) = dropTrailingBlanks body := by
    simp [dropTrailingBlanks, show isBlank '\n' = true by decide]
  rw [hblank, hnewline, hdrop, hbody]

/-- An empty line at the end of a text changes nothing. -/
theorem itemsFrom_append_blank (line : Nat) (b : Block) (ls : List (List Char)) :
    itemsFrom line b (ls ++ [[]]) = itemsFrom line b ls := by
  induction ls generalizing line b with
  | nil =>
    rw [List.nil_append, itemsFrom.eq_2, step_blank, pure_bind]
    simp [itemsFrom]
  | cons s ls ih =>
    rw [List.cons_append, itemsFrom, itemsFrom]
    simp only [ih]

/-! ## Enumerations -/

/-- The labels of an enumeration are read from the lines they make. -/
theorem exists_lines_labels {values : List String} (h : ∀ v ∈ values, FeedsOnly v) :
    ∃ ps, (∀ r, lines (joined (values.map fun v => "  " ++ quoteLabel v) ++ r) = ps ++ lines r) ∧
      ∀ line opened e rest later,
        itemsFrom (line + ps.length)
          (.enum opened { e with values := e.values ++ values.map keptLabel }) rest = pure later →
        itemsFrom line (.enum opened e) (ps ++ rest) = pure later := by
  induction values with
  | nil => exact ⟨[], fun r => rfl, fun line opened e rest later hr => by simpa using hr⟩
  | cons v values ih =>
    obtain ⟨ps, hps, hread⟩ := ih fun w hw => h w (by simp [hw])
    obtain ⟨w, blank, hw, hblank, htrim, hne, hbrace, hlabel⟩ := lines_quoteLabel (h v (by simp))
    refine ⟨(' ' :: ' ' :: w) :: (blank ++ ps), fun r => ?_, fun line opened e rest later hr => ?_⟩
    · have hindent : (("  " ++ quoteLabel v).toList ++ '\n' :: joined (values.map fun v =>
          "  " ++ quoteLabel v)) ++ r = ' ' :: ' ' :: ((quoteLabel v).toList ++ '\n' ::
            (joined (values.map fun v => "  " ++ quoteLabel v) ++ r)) := by simp
      rw [List.map_cons, joined_cons, hindent, lines_cons_of_not_break (by decide),
        lines_cons_of_not_break (by decide), hw, hps]
      simp [consHead]
    · have hstrip : strip (' ' :: ' ' :: w) = w := by
        rw [strip_space, strip_space, htrim.strip_eq]
      have hstep : step line (' ' :: ' ' :: w) (.enum opened e) =
          pure (.enum opened { e with values := e.values ++ [keptLabel v] }, []) := by
        rw [step_content hstrip hne hbrace, contentLine, str, hlabel]
      rw [List.cons_append]
      apply itemsFrom_cons hstep
      rw [List.map_cons] at hr
      rcases hblank with rfl | rfl
      · apply hread _ _ _ _ _
        rw [List.append_assoc]
        simpa [Nat.add_assoc, Nat.add_comm 1] using hr
      · refine itemsFrom_cons step_blank (hread _ _ _ _ _ ?_)
        rw [List.append_assoc]
        simpa [Nat.add_assoc, Nat.add_comm 2] using hr

/-- The lines of an enumeration are read as the enumeration with the labels that are kept. -/
theorem exists_lines_enum {e : EnumType} (h : e.IsWritten) :
    ∃ ps, (∀ r, lines (joined (enumLines e) ++ r) = ps ++ lines r) ∧
      ∀ line rest later, itemsFrom (line + ps.length) .top rest = pure later →
        itemsFrom line .top (ps ++ rest) = pure (.enum e.keepLabels :: later) := by
  obtain ⟨ps, hps, hread⟩ := exists_lines_labels h.values
  obtain ⟨hflat, htrim, hne, hbrace, hheader⟩ := ofLine?_enumHeader h
  refine ⟨(enumHeader e).toList :: (ps ++ [['\x7d'], []]), fun r => ?_, fun line rest later hr => ?_⟩
  · have hsplit : joined (enumLines e) ++ r = (enumHeader e).toList ++ '\n' ::
        (joined (e.values.map fun v => "  " ++ quoteLabel v) ++ (joined ["\x7d", ""] ++ r)) := by
      rw [enumLines, joined_append, joined_append]
      simp [joined, enumHeader]
    rw [hsplit, lines_append_newline hflat.no_break, hps, lines_joined (by decide)]
    simp
  · have hopen : step line (enumHeader e).toList .top = pure (.enum line ⟨e.name, []⟩, []) := by
      rw [step_content htrim.strip_eq hne hbrace, contentLine, topLine, hheader]
      simp only [str, String.ofList_toList]
      rfl
    rw [List.cons_append, List.append_assoc]
    refine itemsFrom_cons hopen (hread _ _ _ _ _ ?_)
    refine itemsFrom_cons (step_close_enum _ _ _) (itemsFrom_cons step_blank ?_)
    rw [show line + 1 + ps.length + 1 + 1 =
      line + ((enumHeader e).toList :: (ps ++ [['\x7d'], []])).length by simp; omega]
    exact hr

theorem exists_lines_enums {enums : List EnumType} (h : ∀ e ∈ enums, e.IsWritten) :
    ∃ ps, (∀ r, lines (joined (enums.flatMap enumLines) ++ r) = ps ++ lines r) ∧
      ∀ line rest later, itemsFrom (line + ps.length) .top rest = pure later →
        itemsFrom line .top (ps ++ rest) =
          pure (enums.map (fun e => .enum e.keepLabels) ++ later) := by
  induction enums with
  | nil => exact ⟨[], fun r => rfl, fun line rest later hr => hr⟩
  | cons e enums ih =>
    obtain ⟨ps, hps, hread⟩ := exists_lines_enum (h e (by simp))
    obtain ⟨qs, hqs, hread'⟩ := ih fun f hf => h f (by simp [hf])
    refine ⟨ps ++ qs, fun r => ?_, fun line rest later hr => ?_⟩
    · rw [List.flatMap_cons, joined_append, List.append_assoc, hps, hqs, List.append_assoc]
    · rw [List.append_assoc]
      refine hread _ _ _ (hread' _ _ _ ?_)
      rwa [List.length_append, ← Nat.add_assoc] at hr

/-! ## Tables -/

/-- The drafts of tables whose lines follow each other. -/
def tableDrafts : (line : Nat) → List Table → List TableDraft
  | _, [] => []
  | line, t :: rest => tableDraft line t :: tableDrafts (line + (tableLines t).length) rest

theorem itemsFrom_tables {ts : List Table} (h : ∀ t ∈ ts, t.IsWritten) (line : Nat)
    {rest : List (List Char)} {later : List Item}
    (hr : itemsFrom (line + (ts.flatMap tableLines).length) .top rest = pure later) :
    itemsFrom line .top ((ts.flatMap tableLines).map String.toList ++ rest) =
      pure ((tableDrafts line ts).map .table ++ later) := by
  induction ts generalizing line with
  | nil => exact hr
  | cons t ts ih =>
    rw [List.flatMap_cons, List.map_append, List.append_assoc]
    refine itemsFrom_table (h t (by simp)) line (ih (fun u hu => h u (by simp [hu])) _ ?_)
    rwa [List.flatMap_cons, List.length_append, ← Nat.add_assoc] at hr

theorem flat_tableLines {t : Table} (h : t.IsWritten) : ∀ l ∈ tableLines t, Flat l.toList := by
  intro l hl
  have indent : ∀ {s : String} {n : Nat}, Flat s.toList →
      Flat (String.ofList (List.replicate n ' ') ++ s).toList := fun {s n} hs => by
    rw [String.toList_append, String.toList_ofList]
    refine (Flat.of_forall fun c hc => ?_).append hs
    rw [List.eq_of_mem_replicate hc]
    decide
  simp only [tableLines, List.mem_append, List.mem_map, List.mem_cons, List.not_mem_nil,
    or_false] at hl
  rcases hl with (((rfl | ⟨f, hf, rfl⟩) | hl) | hl) | rfl | rfl
  · exact (ofLine?_tableHeader h).1
  · exact indent (n := 2) (ofLine?_fieldLine (h.fields f hf)).1
  · rw [mem_settingIf hl]
    have := (Flat.of_forall (s := "  Note: ".toList) (by decide)).append
      (Phrase.quoteText h.comment).flat
    simpa using this
  · split_ifs at hl with hi
    · simp at hl
    · simp only [List.mem_append, List.mem_singleton, List.mem_map] at hl
      rcases hl with (rfl | ⟨i, hi, rfl⟩) | rfl
      · exact .of_forall (by decide)
      · exact indent (n := 4) (takeIndex?_indexText (h.indexes i hi)).1
      · exact .of_forall (by decide)
  · exact .of_forall (by decide)
  · exact .nil

/-! ## References -/

/-- The settings of a reference. -/
def referenceSettings (r : Reference) : List String :=
  actionSetting "update" r.onUpdate ++ actionSetting "delete" r.onDelete

/-- The line of a reference. -/
def referenceLineChars (s : Schema) (r : Reference) : List Char :=
  let e := (s.endNames? r).getD default
  referenceFront r.name ++ referenceChars e.1 e.2 r.cardinality (referenceSettings r)

/-- The draft of a reference on a line. -/
def referenceDraft (s : Schema) (line : Nat) (r : Reference) : ReferenceDraft where
  name := r.name
  left := ((s.endNames? r).getD default).1
  marker := markerOf r.cardinality
  right := ((s.endNames? r).getD default).2
  line := line
  settings := (referenceSettings r).map String.toList

/-- The drafts of references on consecutive lines. -/
def referenceDrafts (s : Schema) : (line : Nat) → List Reference → List ReferenceDraft
  | _, [] => []
  | line, r :: rest => referenceDraft s line r :: referenceDrafts s (line + 1) rest

theorem phrase_action (a : Action) : Phrase a.name.toList := by
  have check : ∀ a ∈ Action.all, (∀ c ∈ a.name.toList, isLoose c = true) ∧
      ((∀ c ∈ a.name.toList.head?, isBlank c = false) ∧
        ∀ c ∈ a.name.toList.getLast?, isBlank c = false) ∧ a.name.toList ≠ [] := by decide
  obtain ⟨hloose, htrim, hne⟩ := check a (by cases a <;> decide)
  exact .of_isLoose hloose htrim hne

theorem phrase_referenceSettings (r : Reference) : ∀ s ∈ referenceSettings r, Phrase s.toList := by
  intro s hs
  rcases List.mem_append.1 hs with hs | hs
  · rw [mem_settingIf hs]
    exact IsKey.phrase_pair (by decide +kernel) (phrase_action _)
  · rw [mem_settingIf hs]
    exact IsKey.phrase_pair (by decide +kernel) (phrase_action _)

/-- The endpoints that a reference has are fields of tables of the schema. -/
theorem endpoints_eq_ok {s : Schema} {r : Reference} {e : (Table × Field) × (Table × Field)}
    (h : endpoints s r = .ok e) :
    s.tableById? r.sourceTable = some e.1.1 ∧ e.1.1.fieldById? r.sourceField = some e.1.2 ∧
      s.tableById? r.targetTable = some e.2.1 ∧ e.2.1.fieldById? r.targetField = some e.2.2 := by
  rw [endpoints] at h
  split at h
  · next a b ha hb =>
    split at h
    · next f g hf hg =>
      obtain rfl : ((a, f), (b, g)) = e := by simpa using h
      exact ⟨ha, hf, hb, hg⟩
    · simp at h
  · simp at h

theorem endNames?_eq_some {s : Schema} {r : Reference} {n : (String × String) × (String × String)}
    (h : s.endNames? r = some n) :
    ∃ e, endpoints s r = .ok e ∧ n = ((e.1.1.name, e.1.2.name), (e.2.1.name, e.2.2.name)) := by
  rw [Schema.endNames?] at h
  obtain ⟨e, he, rfl⟩ := Option.map_eq_some_iff.1 h
  cases hends : endpoints s r with
  | error f => simp [hends, Except.toOption] at he
  | ok e' =>
    obtain rfl : e' = e := by simpa [hends, Except.toOption] using he
    exact ⟨e', rfl, rfl⟩

/-- What is written for a reference. -/
theorem referenceText_eq {s : Schema} {r : Reference} (h : r.IsWritten s) :
    referenceText s r = .ok (str (referenceLineChars s r)) := by
  obtain ⟨n, hn⟩ := Option.isSome_iff_exists.1 h.ends
  obtain ⟨⟨source, target⟩, he, rfl⟩ := endNames?_eq_some hn
  have hname : r.name? = r.name := by
    rw [Reference.name?]
    cases hr : r.name with
    | none => rfl
    | some m =>
      have : m ≠ "" := fun hm => (h.name m hr).ne_nil (by simp [hm])
      exact Option.filter_eq_some_iff.2 ⟨rfl, by simpa using this⟩
  rw [referenceText, he, hname]
  apply congrArg Except.ok
  rw [← String.toList_inj, referenceLineChars, hn, String.toList_ofList]
  cases r.name <;>
    simp [referenceFront, referenceChars, endpointChars, endpointText, referenceSettings]

section References

variable {s : Schema} (hs : ∀ t ∈ s.tables, t.IsWritten) {r : Reference} (h : r.IsWritten s)

include hs h

theorem isName_endNames : ∃ a b, s.endNames? r = some (a, b) ∧ (IsName a.1 ∧ IsName a.2) ∧
    IsName b.1 ∧ IsName b.2 := by
  obtain ⟨n, hn⟩ := Option.isSome_iff_exists.1 h.ends
  obtain ⟨e, he, rfl⟩ := endNames?_eq_some hn
  obtain ⟨ha, hf, hb, hg⟩ := endpoints_eq_ok he
  have hta := hs _ (List.mem_of_find?_eq_some ha)
  have htb := hs _ (List.mem_of_find?_eq_some hb)
  exact ⟨_, _, hn, ⟨hta.name, (hta.fields _ (List.mem_of_find?_eq_some hf)).name⟩, htb.name,
    (htb.fields _ (List.mem_of_find?_eq_some hg)).name⟩

theorem referenceLineChars_spec : Flat (referenceLineChars s r) ∧ Trimmed (referenceLineChars s r) ∧
    referenceLineChars s r ≠ [] ∧ referenceLineChars s r ≠ ['\x7d'] ∧
    ∀ line, step line (referenceLineChars s r) .top =
      pure (.top, [.reference (referenceDraft s line r)]) := by
  obtain ⟨a, b, hab, ⟨ha₁, ha₂⟩, hb₁, hb₂⟩ := isName_endNames hs h
  obtain ⟨hflat, htrim⟩ := referenceChars_spec ha₁ ha₂ hb₁ hb₂ r.cardinality
    (phrase_referenceSettings r)
  have hne : referenceChars a b r.cardinality (referenceSettings r) ≠ [] := by
    simp [referenceChars]
  obtain ⟨hflat', htrim', hread⟩ := ofLine?_reference h.name hflat htrim hne
  have hchars : referenceLineChars s r =
      referenceFront r.name ++ referenceChars a b r.cardinality (referenceSettings r) := by
    rw [referenceLineChars, hab]
    rfl
  have hR : ∃ u, referenceLineChars s r = 'R' :: u := by
    rw [hchars]
    cases r.name <;> exact ⟨_, rfl⟩
  obtain ⟨u, hu⟩ := hR
  refine ⟨hchars ▸ hflat', hchars ▸ htrim', by simp [hu], by simp [hu], fun line => ?_⟩
  have hstrip : strip (referenceLineChars s r) = referenceLineChars s r :=
    (hchars ▸ htrim' : Trimmed (referenceLineChars s r)).strip_eq
  have hname : (r.name.map String.toList).map str = r.name := by
    cases r.name <;> simp
  rw [step_content hstrip (by simp [hu]) (by simp [hu]), contentLine, topLine, hchars, hread]
  simp only [hname, referenceLine, ofText?_referenceChars ha₁ ha₂ hb₁ hb₂, str,
    String.ofList_toList, splitSettings_phrases (phrase_referenceSettings r), referenceDraft, hab]
  rfl

end References

theorem itemsFrom_references {s : Schema} (hs : ∀ t ∈ s.tables, t.IsWritten) {rs : List Reference}
    (h : ∀ r ∈ rs, r.IsWritten s) (line : Nat) :
    itemsFrom line .top (rs.map (referenceLineChars s)) =
      pure ((referenceDrafts s line rs).map .reference) := by
  induction rs generalizing line with
  | nil => rfl
  | cons r rs ih =>
    obtain ⟨-, -, -, -, hstep⟩ := referenceLineChars_spec hs (h r (by simp))
    exact itemsFrom_cons (hstep line) (ih (fun q hq => h q (by simp [hq])) (line + 1))

/-! ## Schemas -/

/-- The lines of the project, and those of the enumerations, the tables and the references. -/
def writtenLines (s : Schema) : List String :=
  ["Project " ++ quoteName defaultProject ++ " \x7b",
      "  database_type: '" ++ dialectLabel s.dialect ++ "'", "\x7d", ""] ++
    s.enums.flatMap enumLines ++ s.tables.flatMap tableLines ++
      s.references.map fun r => str (referenceLineChars s r)

theorem schemaLines_eq {s : Schema} (h : s.IsLegible) :
    schemaLines s defaultProject = .ok (writtenLines s) := by
  rw [schemaLines, mapM_eq_ok_map fun r hr => referenceText_eq (h.references r hr)]
  rfl

/-- Blocks that end with a brace and an empty line. -/
def EndsClosed (ls : List String) : Prop := ∃ front, ls = front ++ ["\x7d", ""]

theorem EndsClosed.flatMap {α : Type} {f : α → List String} (hf : ∀ a, EndsClosed (f a)) (l : List α)
    {ls : List String} (h : EndsClosed ls) : EndsClosed (ls ++ l.flatMap f) := by
  induction l generalizing ls with
  | nil => simpa using h
  | cons a l ih =>
    obtain ⟨front, hfront⟩ := hf a
    rw [List.flatMap_cons, ← List.append_assoc]
    exact ih ⟨ls ++ front, by rw [hfront, List.append_assoc]⟩

/-- The text of a schema has the written lines, but for an empty one at the end. -/
theorem serialize_eq {s : Schema} (h : s.IsLegible) :
    ∃ front, front ≠ [] ∧ (writtenLines s = front ∨ writtenLines s = front ++ [""]) ∧
      serialize s = .ok (str (joined front)) := by
  have htext : ∀ {front : List String},
      dropTrailingBlanks ("\n".intercalate (writtenLines s)).toList ++ ['\n'] = joined front →
        serialize s = .ok (str (joined front)) := by
    intro front hfront
    rw [serialize, schemaLines_eq h, ← hfront]
    apply congrArg Except.ok
    rw [← String.toList_inj]
    simp
  rcases List.eq_nil_or_concat' s.references with hr | ⟨rs, r, hr⟩
  · have hproject : EndsClosed ["Project " ++ quoteName defaultProject ++ " \x7b",
        "  database_type: '" ++ dialectLabel s.dialect ++ "'", "\x7d", ""] := ⟨[_, _], rfl⟩
    obtain ⟨front, hfront⟩ := (hproject.flatMap (f := enumLines) (fun e => ⟨_, rfl⟩) s.enums).flatMap
      (f := tableLines) (fun t => ⟨_, rfl⟩) s.tables
    have hlines : writtenLines s = front ++ ["\x7d", ""] := by
      rw [writtenLines, hfront, hr, List.map_nil, List.append_nil]
    refine ⟨front ++ ["\x7d"], by simp, .inr (by simp [hlines]), htext ?_⟩
    rw [hlines]
    exact (dropTrailingBlanks_intercalate (by decide) (by decide)).2
  · obtain ⟨-, htrim, hne, -⟩ := referenceLineChars_spec h.tables (h.references r (by simp [hr]))
    have hlines : writtenLines s = (["Project " ++ quoteName defaultProject ++ " \x7b",
        "  database_type: '" ++ dialectLabel s.dialect ++ "'", "\x7d", ""] ++
          s.enums.flatMap enumLines ++ s.tables.flatMap tableLines ++
            rs.map fun r => str (referenceLineChars s r)) ++ [str (referenceLineChars s r)] := by
      rw [writtenLines, hr, List.map_append, ← List.append_assoc]
      rfl
    refine ⟨_, List.append_ne_nil_of_right_ne_nil _ (List.cons_ne_nil _ _), .inl hlines, htext ?_⟩
    rw [hlines]
    exact (dropTrailingBlanks_intercalate (by simpa [str] using hne)
      (by simpa [str] using htrim.2)).1

/-- The line that names the dialect. -/
theorem dialectLine_eq (d : Dialect) : ("  database_type: '" ++ dialectLabel d ++ "'").toList =
    ' ' :: ' ' :: ("database_type".toList ++ ':' :: ' ' :: (quoteText (dialectLabel d)).toList) := by
  have check : ∀ d ∈ Dialect.all, ("  database_type: '" ++ dialectLabel d ++ "'").toList =
      ' ' :: ' ' :: ("database_type".toList ++ ':' :: ' ' :: (quoteText (dialectLabel d)).toList) := by
    decide
  exact check d d.mem_all

theorem verbatim_enumLines {e : EnumType} (h : e.IsWritten) :
    ∀ l ∈ enumLines e, Verbatim l.toList := by
  intro l hl
  simp only [enumLines, List.mem_append, List.mem_map, List.mem_cons, List.not_mem_nil,
    or_false] at hl
  rcases hl with (rfl | ⟨v, -, rfl⟩) | rfl | rfl
  · exact (ofLine?_enumHeader h).1.verbatim
  · rw [String.toList_append]
    exact (Verbatim.of_forall (s := [' ', ' ']) (by decide)).append (verbatim_quoteLabel v)
  · exact .of_forall (by decide)
  · exact .nil

theorem verbatim_writtenLines {s : Schema} (h : s.IsLegible) :
    ∀ l ∈ writtenLines s, Verbatim l.toList := by
  intro l hl
  simp only [writtenLines, List.mem_append, List.mem_flatMap, List.mem_map, List.mem_cons,
    List.not_mem_nil, or_false] at hl
  rcases hl with (((rfl | rfl | rfl | rfl) | ⟨e, he, hl⟩) | ⟨t, ht, hl⟩) | ⟨r, hr, rfl⟩
  · exact (Flat.of_forall (by decide)).verbatim
  · rw [dialectLine_eq]
    exact (Verbatim.of_forall (s := "  database_type: ".toList) (by decide)).append
      (verbatim_quoteText _)
  · exact .of_forall (by decide)
  · exact .nil
  · exact verbatim_enumLines (h.enums e he) l hl
  · exact (flat_tableLines (h.tables t ht) l hl).verbatim
  · rw [String.toList_ofList]
    exact (referenceLineChars_spec h.tables (h.references r hr)).1.verbatim

/-- The lines of the project name the dialect. -/
theorem itemsFrom_project (d : Dialect) {rest : List (List Char)} {later : List Item}
    (hr : itemsFrom 5 .top rest = pure later) :
    itemsFrom 1 .top (["Project " ++ quoteName defaultProject ++ " \x7b",
      "  database_type: '" ++ dialectLabel d ++ "'", "\x7d", ""].map String.toList ++ rest) =
        pure (.dialect d :: later) := by
  have hopen : step 1 ("Project " ++ quoteName defaultProject ++ " \x7b").toList .top =
      pure (.project 1, []) := by
    have hheader : Header.ofLine? ("Project " ++ quoteName defaultProject ++ " \x7b").toList =
        some .project := by decide
    rw [step_content (w := ("Project " ++ quoteName defaultProject ++ " \x7b").toList) (by decide)
      (by decide) (by decide), contentLine, topLine, hheader]
    rfl
  have hdialect : step 2 ("  database_type: '" ++ dialectLabel d ++ "'").toList (.project 1) =
      pure (.project 1, [.dialect d]) := by
    set label := (quoteText (dialectLabel d)).toList with hlabel
    set w := "database_type".toList ++ ':' :: ' ' :: label with hw
    have hne : label ≠ [] := by rw [hlabel, toList_quoteText]; exact List.cons_ne_nil _ _
    have htrim : Trimmed w := Trimmed.append (by constructor <;> decide) (by decide)
      (last_append (s := [':', ' ']) hne (trimmed_quoteText _).2)
    have hset : splitSetting w = ("database_type", some label) :=
      splitSetting_pair (by decide) (by decide) (trimmed_quoteText _)
    have hvalue : nonempty? (some label) = some label :=
      Option.filter_eq_some_iff.2 ⟨rfl, by simpa using hne⟩
    have halias : Dialect.ofAlias? (dialectLabel d) = some d := by cases d <;> decide
    have hunquote : str (unquoteText label) = dialectLabel d := by
      rw [hlabel, unquoteText_quoteText, str, String.ofList_toList]
    have hstrip : strip (' ' :: ' ' :: w) = w := by
      rw [strip_space, strip_space, htrim.strip_eq]
    rw [dialectLine_eq, step_content hstrip (by simp [hw]) (by simp [hw]), contentLine, projectLine,
      hset]
    simp only [hvalue, hunquote, halias]
    rfl
  have hclose : step 3 ['\x7d'] (.project 1) = pure (.top, []) := step_close rfl rfl
  exact itemsFrom_cons hopen (itemsFrom_cons hdialect
    (itemsFrom_cons hclose (itemsFrom_cons step_blank hr)))

/-- The items of a schema whose tables and references start on the given lines. -/
def writtenItems (s : Schema) (tables references : Nat) : List Item :=
  .dialect s.dialect :: (s.enums.map (fun e => .enum e.keepLabels) ++
    ((tableDrafts tables s.tables).map .table ++
      (referenceDrafts s references s.references).map .reference))

/-- The first pass over the text of a schema finds its parts. -/
theorem itemsOf_serialize_of_isLegible {s : Schema} (h : s.IsLegible) :
    ∃ text tables references, serialize s = .ok text ∧
      itemsOf text.toList = pure (writtenItems s tables references) := by
  obtain ⟨front, hne, hfront, htext⟩ := serialize_eq h
  obtain ⟨ps, hps, hread⟩ := exists_lines_enums h.enums
  have hrefs : ∀ l ∈ s.references.map fun r => str (referenceLineChars s r), ∀ c ∈ l.toList,
      isLineBreak c = false := by
    intro l hl
    obtain ⟨r, hr, rfl⟩ := List.mem_map.1 hl
    rw [String.toList_ofList]
    exact (referenceLineChars_spec h.tables (h.references r hr)).1.no_break
  have htables : ∀ l ∈ s.tables.flatMap tableLines, ∀ c ∈ l.toList, isLineBreak c = false := by
    intro l hl
    obtain ⟨t, ht, hl⟩ := List.mem_flatMap.1 hl
    exact (flat_tableLines (h.tables t ht) l hl).no_break
  have hproject : ∀ l ∈ ["Project " ++ quoteName defaultProject ++ " \x7b",
      "  database_type: '" ++ dialectLabel s.dialect ++ "'", "\x7d", ""], ∀ c ∈ l.toList,
        isLineBreak c = false := by
    have check : ∀ d ∈ Dialect.all, ∀ l ∈ ["Project " ++ quoteName defaultProject ++ " \x7b",
        "  database_type: '" ++ dialectLabel d ++ "'", "\x7d", ""], ∀ c ∈ l.toList,
          isLineBreak c = false := by decide
    exact check s.dialect s.dialect.mem_all
  set start := 5 + ps.length with hstart
  refine ⟨_, start, start + (s.tables.flatMap tableLines).length, htext, ?_⟩
  have hwritten : lines (joined (writtenLines s)) = ["Project " ++ quoteName defaultProject ++ " \x7b",
      "  database_type: '" ++ dialectLabel s.dialect ++ "'", "\x7d", ""].map String.toList ++
        (ps ++ ((s.tables.flatMap tableLines).map String.toList ++
          s.references.map (referenceLineChars s))) := by
    have hend := lines_joined hrefs []
    have hmap : (s.references.map fun r => str (referenceLineChars s r)).map String.toList =
        s.references.map (referenceLineChars s) := by
      rw [List.map_map]
      exact List.map_congr_left fun r _ => String.toList_ofList
    rw [List.append_nil, hmap, show lines [] = [] from rfl, List.append_nil] at hend
    rw [writtenLines, joined_append, joined_append, joined_append, List.append_assoc,
      List.append_assoc, lines_joined hproject, hps, lines_joined htables, hend]
  have hitems : itemsFrom 1 .top (lines (joined (writtenLines s))) =
      pure (writtenItems s start (start + (s.tables.flatMap tableLines).length)) := by
    rw [hwritten]
    exact itemsFrom_project s.dialect (hread 5 _ _ (itemsFrom_tables h.tables _
      (itemsFrom_references h.tables h.references _)))
  have hverbatim : Verbatim (joined front) := by
    refine verbatim_joined fun l hl => verbatim_writtenLines h l ?_
    rcases hfront with hf | hf <;> simp [hf, hl]
  rw [String.toList_ofList, itemsOf, blankComments_of_verbatim hverbatim, ← hitems]
  rcases hfront with hf | hf
  · rw [hf]
  · obtain ⟨body, hbody⟩ : ∃ body, joined front = body ++ ['\n'] :=
      ⟨_, (intercalate_newline hne).symm⟩
    have hblank : lines (joined (writtenLines s)) = lines (joined front) ++ [[]] := by
      rw [hf, joined_append, hbody, List.append_assoc]
      exact lines_append_cons body ['\n']
    rw [hblank, itemsFrom_append_blank]

theorem itemsOf_serialize {s : Schema} (h : s.IsWritable) :
    ∃ text tables references, serialize s = .ok text ∧
      itemsOf text.toList = pure (writtenItems s tables references) :=
  itemsOf_serialize_of_isLegible h.isLegible

end Notation

end Schemata
