import Schemata.Proofs.Notation.TypeText

/-!
# Lines that read back

One lemma for each sort of line the writer makes: the reader of such lines finds the construct, its
names and its settings. A line that starts with a name is not taken for one that starts with a
keyword, because what follows the name is neither a colon nor a brace.
-/

namespace Schemata.Notation

open Text

/-! ## Keywords -/

/-- A keyword is dropped together with the spelling it has in the text. -/
theorem dropKeyword?_eq_some {k s rest : List Char} (h : dropKeyword? k s = some rest) :
    ∃ p, s = p ++ rest ∧ p.length = k.length ∧ ∀ d ∈ p, ∃ c ∈ k, isInAnyCase c d = true := by
  induction k generalizing s with
  | nil => exact ⟨[], by simpa [dropKeyword?] using h, rfl, by simp⟩
  | cons c k ih =>
    cases s with
    | nil => simp [dropKeyword?] at h
    | cons d s =>
      rw [dropKeyword?] at h
      split_ifs at h with hd
      obtain ⟨p, rfl, hlength, hp⟩ := ih h
      refine ⟨d :: p, rfl, congrArg (· + 1) hlength, List.forall_mem_cons.2 ⟨⟨c, by simp, hd⟩, ?_⟩⟩
      exact fun x hx => (hp x hx).imp fun _ hy => ⟨List.mem_cons_of_mem _ hy.1, hy.2⟩

/-- No spelling of a plain word has a space or a quote in it. -/
theorem isPlainChar_eq_false_of_isInAnyCase {c d : Char} (hd : d = ' ' ∨ d = '"')
    (h : isInAnyCase c d = true) : isPlainChar c = false := by
  obtain rfl | rfl := hd <;> simp [isInAnyCase, lowerChar] at h <;> subst h <;> decide

theorem skipBlanks_cons {c : Char} (hc : isBlank c = false) (r : List Char) :
    skipBlanks (c :: r) = c :: r := dropWhile_eq_self fun d hd => by
  obtain rfl : c = d := by simpa using hd
  exact hc

theorem skipBlanks_space (r : List Char) : skipBlanks (' ' :: r) = skipBlanks r := rfl

/-- The marks that would make a keyword of a name. -/
def afterKeyword : List Char := [':', '\x7b']

/-- Behind a keyword that a name starts with, neither a colon nor a brace comes first. -/
theorem skipBlanks_dropKeyword {n : String} (hn : IsName n) {k : List Char} (hk : k ≠ [])
    (hk' : ∀ c ∈ k, isPlainChar c = true) {d : Char} {r : List Char} (hd : isBlank d = false)
    (hmark : d ∉ afterKeyword) {rest : List Char}
    (h : dropKeyword? k ((quoteName n).toList ++ ' ' :: d :: r) = some rest) :
    ∃ c t, skipBlanks rest = c :: t ∧ c ∉ afterKeyword := by
  obtain ⟨p, hp, hlength, hspelled⟩ := dropKeyword?_eq_some h
  have hletter : ∀ d ∈ p, ¬(d = ' ' ∨ d = '"') := fun d hd hmark => by
    obtain ⟨c, hc, hcase⟩ := hspelled d hd
    exact absurd (hk' c hc) (by simp [isPlainChar_eq_false_of_isInAnyCase hmark hcase])
  have hspace : ' ' ∉ p := fun hs => hletter ' ' hs (.inl rfl)
  rcases quoteName_cases hn with ⟨hplain, hw⟩ | hq
  · have hchars : ∀ c ∈ n.toList, isBlank c = false ∧ c ∉ afterKeyword := fun c hc => by
      obtain ⟨-, -, hb, -, -, hm⟩ := isPlainChar_spec (isPlainChar_of_isWord hw hc)
      refine ⟨hb, fun hmem => hm ?_⟩
      simp only [afterKeyword, marks, List.mem_cons, List.not_mem_nil, or_false] at hmem ⊢
      tauto
    rw [hplain] at hp
    rcases List.append_eq_append_iff.1 hp with ⟨a, rfl, ha⟩ | ⟨b, hb, rfl⟩
    · cases a with
      | nil =>
        obtain rfl : ' ' :: d :: r = rest := by simpa using ha
        exact ⟨d, r, by rw [skipBlanks_space, skipBlanks_cons hd], hmark⟩
      | cons x a =>
        obtain rfl : ' ' = x := List.head_eq_of_cons_eq ha
        exact absurd (by simp) hspace
    · cases b with
      | nil => exact ⟨d, r, by rw [List.nil_append, skipBlanks_space, skipBlanks_cons hd], hmark⟩
      | cons x b =>
        obtain ⟨hx, hx'⟩ := hchars x (by simp [hb])
        exact ⟨x, _, by rw [List.cons_append, skipBlanks_cons hx], hx'⟩
  · obtain ⟨x, p, rfl⟩ : ∃ x q, p = x :: q := by
      cases p with
      | nil => exact absurd (List.length_eq_zero_iff.1 hlength.symm) hk
      | cons x q => exact ⟨x, q, rfl⟩
    obtain rfl : '"' = x := by
      rw [hq, enclose] at hp
      exact List.head_eq_of_cons_eq hp
    exact absurd (.inr rfl) (hletter _ List.mem_cons_self)

section NameFirst

variable {n : String} (hn : IsName n) {d : Char} {r : List Char} (hd : isBlank d = false)
  (hmark : d ∉ afterKeyword)

include hn hd hmark

theorem opensWith_name {k : String} (hk : k.toList ≠ []) (hk' : ∀ c ∈ k.toList, isPlainChar c = true) :
    opensWith k ((quoteName n).toList ++ ' ' :: d :: r) = false := by
  rw [opensWith]
  cases h : dropKeyword? k.toList ((quoteName n).toList ++ ' ' :: d :: r) with
  | none => rfl
  | some rest =>
    obtain ⟨c, t, hskip, hc⟩ := skipBlanks_dropKeyword hn hk hk' hd hmark h
    have hne : c ≠ '\x7b' := fun h => hc (by simp [afterKeyword, h])
    simp [opensBlock, hskip, hne]

theorem noteLine?_name : noteLine? ((quoteName n).toList ++ ' ' :: d :: r) = none := by
  rw [noteLine?]
  cases h : dropKeyword? "note".toList ((quoteName n).toList ++ ' ' :: d :: r) with
  | none => rfl
  | some rest =>
    obtain ⟨c, t, hskip, hc⟩ := skipBlanks_dropKeyword hn (by decide) (by decide) hd hmark h
    have hne : c ≠ ':' := fun h => hc (by simp [afterKeyword, h])
    rw [Option.bind_eq_bind, Option.bind_some, hskip]
    split
    · next h => exact absurd (List.head_eq_of_cons_eq h) hne
    · rfl

end NameFirst

/-! ## Fields -/

theorem mem_settingIf {c : Bool} {s x : String} (h : x ∈ settingIf c s) : x = s := by
  rw [settingIf] at h
  split_ifs at h
  · simpa using h
  · simp at h

/-- The words that stand alone as settings. -/
theorem phrase_word {w : String} (h : w ∈ ["pk", "increment", "not null", "unique"]) :
    Phrase w.toList := by
  have check : ∀ w ∈ ["pk", "increment", "not null", "unique"], (∀ c ∈ w.toList, isLoose c = true) ∧
      ((∀ c ∈ w.toList.head?, isBlank c = false) ∧ ∀ c ∈ w.toList.getLast?, isBlank c = false) ∧
      w.toList ≠ [] := by decide
  obtain ⟨hloose, htrim, hne⟩ := check w h
  exact .of_isLoose hloose htrim hne

theorem phrase_fieldSettings {f : Field} (h : f.IsWritten) :
    ∀ s ∈ fieldSettings f, Phrase s.toList := by
  intro s hs
  simp only [fieldSettings, List.mem_append] at hs
  rcases hs with ((((hs | hs) | hs) | hs) | hs) | hs
  · exact mem_settingIf hs ▸ phrase_word (by simp)
  · exact mem_settingIf hs ▸ phrase_word (by simp)
  · exact mem_settingIf hs ▸ phrase_word (by simp)
  · exact mem_settingIf hs ▸ phrase_word (by simp)
  · obtain ⟨d, hd, rfl⟩ := Option.map_eq_some_iff.1 (Option.mem_toList.1 hs)
    exact IsKey.phrase_pair (k := "default") (by decide +kernel) (defaultOf_defaultText f.type (h.default d hd)).1
  · rw [mem_settingIf hs]
    exact IsKey.phrase_pair (k := "note") (by decide +kernel) (.quoteText h.comment)

theorem toList_fieldLine (f : Field) : (fieldLine f).toList =
    (quoteName f.name).toList ++ ' ' :: ((typeText f.type).toList ++
      (bracketed (fieldSettings f)).toList) := by
  simp [fieldLine]

/-- A field is read from its line, and the line from between its blanks. -/
theorem ofLine?_fieldLine {f : Field} (h : f.IsWritten) :
    Flat (fieldLine f).toList ∧ Trimmed (fieldLine f).toList ∧
      opensWith "indexes" (fieldLine f).toList = false ∧
      opensWith "note" (fieldLine f).toList = false ∧ noteLine? (fieldLine f).toList = none ∧
      FieldLine.ofLine? (fieldLine f).toList = some ⟨f.name.toList, rawType f.type,
        [',', ' '].intercalate ((fieldSettings f).map String.toList)⟩ := by
  have hsettings := phrase_fieldSettings h
  obtain ⟨hflat, ⟨d, r, hd, hblank, hmark⟩, hlast, htake⟩ := typeSpec h.type
  rw [toList_fieldLine]
  refine ⟨?_, ?_, ?_, ?_, ?_, ?_⟩
  · exact (Flat.quoteName h.name).append ((Flat.of_forall (s := [' ']) (by decide)).append
      (hflat.append (.bracketed hsettings)))
  · apply (trimmed_quoteName h.name).append (quoteName_ne_nil h.name)
    have htail : Trimmed ((typeText f.type).toList ++ (bracketed (fieldSettings f)).toList) :=
      Trimmed.append ⟨by simpa [hd] using hblank, hlast⟩ (by simp [hd]) (bracketed_getLast? _)
    rw [hd, List.cons_append] at htail ⊢
    simpa [List.getLast?_cons] using htail.2
  · rw [hd, List.cons_append]
    exact opensWith_name h.name hblank hmark (by decide) (by decide)
  · rw [hd, List.cons_append]
    exact opensWith_name h.name hblank hmark (by decide) (by decide)
  · rw [hd, List.cons_append]
    exact noteLine?_name h.name hblank hmark
  · have hskip : skipBlanks1 (' ' :: ((typeText f.type).toList ++
        (bracketed (fieldSettings f)).toList)) = some ((typeText f.type).toList ++
          (bracketed (fieldSettings f)).toList) := by
      rw [hd, List.cons_append, skipBlanks1, if_pos (by decide), skipBlanks_cons hblank]
    rw [FieldLine.ofLine?, takeName?_quoteName h.name (by simp [show isNameChar ' ' = false by decide])]
    simp only [Option.bind_eq_bind, Option.bind_some, hskip, htake]
    rfl

/-! ## Indexes -/

/-- The settings of an index. -/
def indexSettings (i : Index) : List String :=
  settingIf i.unique "unique" ++
    ((i.name.filter (· ≠ "")).map fun n => "name: " ++ quoteText n).toList

theorem phrase_indexSettings {columns : List String} {i : Index} (h : i.IsWritten columns) :
    ∀ s ∈ indexSettings i, Phrase s.toList := by
  intro s hs
  rcases List.mem_append.1 hs with hs | hs
  · exact mem_settingIf hs ▸ phrase_word (by simp)
  · obtain ⟨n, hn, rfl⟩ := Option.map_eq_some_iff.1 (Option.mem_toList.1 hs)
    obtain ⟨hname, -⟩ := Option.filter_eq_some_iff.1 hn
    exact IsKey.phrase_pair (k := "name") (by decide +kernel) (.quoteText (h.name n hname).2)

theorem mem_quoteName {n : String} (h : IsName n) {c : Char} (hc : c ∈ (quoteName n).toList) :
    c = '"' ∨ c ∈ n.toList := by
  rcases quoteName_cases h with ⟨hn, -⟩ | hn
  · exact .inr (hn ▸ hc)
  · rw [hn] at hc
    simp only [enclose, List.mem_cons, List.mem_append, List.not_mem_nil, or_false] at hc
    tauto

theorem head_quoteName {n : String} (h : IsName n) :
    ∃ c r, (quoteName n).toList = c :: r ∧ isBlank c = false ∧ c ∉ marks ∧ c ≠ '\x60' := by
  obtain ⟨c, r, hr⟩ := List.exists_cons_of_ne_nil (quoteName_ne_nil h)
  refine ⟨c, r, hr, (trimmed_quoteName h).1 c (by simp [hr]), ?_⟩
  rcases quoteName_cases h with ⟨hn, hw⟩ | hn
  · obtain ⟨-, -, -, -, hq, hm⟩ := isPlainChar_spec (c := c)
      (isPlainChar_of_isWord hw (by simp [← hn, hr]))
    refine ⟨hm, ?_⟩
    rintro rfl
    simp [isQuote] at hq
  · obtain rfl : '"' = c := List.head_eq_of_cons_eq (hn.symm.trans hr)
    decide

/-- The columns of an index, in parentheses if there are several. -/
theorem toList_indexText (i : Index) : (indexText i).toList =
    (if 1 < i.fields.length then
      '(' :: ([',', ' '].intercalate (i.fields.map fun n => (quoteName n).toList) ++ [')'])
    else [',', ' '].intercalate (i.fields.map fun n => (quoteName n).toList)) ++
      (bracketed (indexSettings i)).toList := by
  have hmap : (", ".intercalate (i.fields.map quoteName)).toList =
      [',', ' '].intercalate (i.fields.map fun n => (quoteName n).toList) := by
    rw [String.toList_intercalate, List.map_map]
    rfl
  rw [indexText, indexSettings]
  split_ifs <;> simp [hmap]

/-- An index is read from its line. -/
theorem takeIndex?_indexText {columns : List String} {i : Index} (h : i.IsWritten columns) :
    Flat (indexText i).toList ∧ Trimmed (indexText i).toList ∧ (indexText i).toList ≠ [] ∧
      (indexText i).toList ≠ ['\x7d'] ∧
      takeIndex? (indexText i).toList = some (.columns (i.fields.map String.toList),
        [',', ' '].intercalate ((indexSettings i).map String.toList)) := by
  have hsettings := phrase_indexSettings h
  have hnames : Flat ([',', ' '].intercalate (i.fields.map fun n => (quoteName n).toList)) := by
    refine .intercalate fun x hx => ?_
    obtain ⟨n, hn, rfl⟩ := List.mem_map.1 hx
    exact .quoteName (h.names n hn)
  rw [toList_indexText]
  split_ifs with hlen
  · refine ⟨?_, ?_, by simp, by simp, ?_⟩
    · exact ((Flat.of_forall (s := ['(']) (by decide)).append
        (hnames.append (.of_forall (by decide)))).append (.bracketed hsettings)
    · exact (trimmed_enclose (a := '(') (b := ')') (by decide) (by decide) _).append
        (by simp [enclose]) (bracketed_getLast? _)
    · have hclosed : ')' ∉ [',', ' '].intercalate (i.fields.map fun n => (quoteName n).toList) := by
        intro hc
        rcases mem_intercalate hc with hc | hc | ⟨x, hx, hc⟩
        · exact absurd hc (by decide)
        · exact absurd hc (by decide)
        · obtain ⟨n, hn, rfl⟩ := List.mem_map.1 hx
          rcases mem_quoteName (h.names n hn) hc with hc | hc
          · exact absurd hc (by decide)
          · exact h.closed hlen n hn hc
      have hsplit : splitSettings
          ([',', ' '].intercalate (i.fields.map fun n => (quoteName n).toList)) =
            i.fields.map fun n => (quoteName n).toList := by
        apply splitSettings_intercalate
        intro x hx
        obtain ⟨n, hn, rfl⟩ := List.mem_map.1 hx
        exact isSetting_quoteName (h.names n hn)
      have hback : (i.fields.map fun n => (quoteName n).toList).map unquoteName =
          i.fields.map String.toList := by
        rw [List.map_map]
        exact List.map_congr_left fun n hn => unquoteName_quoteName (h.names n hn)
      rw [List.cons_append, List.append_assoc, List.singleton_append, takeIndex?,
        takeUntil?_append hclosed]
      simp [hsplit, hback, takeSettings?_bracketed]
  · obtain ⟨n, hn⟩ : ∃ n, i.fields = [n] := by
      rw [← List.length_eq_one_iff]
      have := List.length_pos_of_ne_nil i.fields_ne_nil
      omega
    have hname := h.names n (by simp [hn])
    obtain ⟨c, r, hr, hblank, hm, htick⟩ := head_quoteName hname
    have hparen : c ≠ '(' := fun hc => hm (hc ▸ by decide)
    simp only [hn, List.map_cons, List.map_nil, List.intercalate_singleton]
    refine ⟨(Flat.quoteName hname).append (.bracketed hsettings), (trimmed_quoteName hname).append
      (quoteName_ne_nil hname) (bracketed_getLast? _), by simp [hr], ?_, ?_⟩
    · rw [hr]
      exact fun h => hm (List.head_eq_of_cons_eq h ▸ by decide)
    · have htake := takeName?_quoteName hname (r := (bracketed (indexSettings i)).toList) fun c hc =>
        bracketed_head? _ c hc ▸ by decide
      rw [hr, List.cons_append] at htake ⊢
      rw [takeIndex?]
      · simp [htake, takeSettings?_bracketed]
      · exact fun _ h => hparen (List.head_eq_of_cons_eq h)
      · exact fun _ h => htick (List.head_eq_of_cons_eq h)

/-! ## Headers -/

theorem dropKeyword?_append {p k : List Char} (h : dropKeyword? k p = some []) (s : List Char) :
    dropKeyword? k (p ++ s) = some s := by
  induction k generalizing p with
  | nil =>
    obtain rfl : p = [] := by simpa [dropKeyword?] using h
    rfl
  | cons c k ih =>
    cases p with
    | nil => cases h
    | cons d p =>
      rw [dropKeyword?] at h
      split_ifs at h with hd
      rw [List.cons_append, dropKeyword?, if_pos hd, ih h]

theorem skipBlanks1_name {n : String} (h : IsName n) (r : List Char) :
    skipBlanks1 (' ' :: ((quoteName n).toList ++ r)) = some ((quoteName n).toList ++ r) := by
  obtain ⟨c, t, hr, hblank, -⟩ := head_quoteName h
  rw [hr, List.cons_append, skipBlanks1, if_pos (by decide), skipBlanks_cons hblank]

/-- In a heading, and when it is looked up there, a name is read in the same way. -/
theorem takeHeadingName?_eq {s : List Char} {p : List Char × List Char} (h : takeName? s = some p) :
    takeHeadingName? s = some p := by
  cases s with
  | nil => cases h
  | cons c r =>
    rw [takeHeadingName?]
    split_ifs with hc
    · rw [takeName?] at h
      split_ifs at h with hquote hstart
      · obtain rfl | rfl := hquote <;> exact absurd hc (by decide)
      · exact h
    · exact h

theorem takeFoundName?_eq {s name rest : List Char} (h : takeName? s = some (name, rest)) :
    takeFoundName? s = some (some name, rest) := by
  rw [takeFoundName?, h]

theorem takeQualified?_name {n : String} (h : IsName n) {r : List Char} (hr : r.head? = some ' ') :
    takeQualified? ((quoteName n).toList ++ r) = some (some n.toList, r) := by
  rw [takeQualified?, takeFoundName?_eq (takeName?_quoteName h fun c hc => by
    obtain rfl : ' ' = c := by simpa [hr] using hc
    decide)]
  cases r with
  | nil => rfl
  | cons c r =>
    obtain rfl : c = ' ' := by simpa using hr
    rfl

/-- The settings of the header of a table. -/
def tableSettings (t : Table) : List String :=
  settingIf (t.color ≠ defaultColor) ("headercolor: " ++ t.color)

def tableHeader (t : Table) : String :=
  "Table " ++ quoteName t.name ++ bracketed (tableSettings t) ++ " \x7b"

theorem phrase_color {color : String} (h : IsColor color) : Phrase color.toList := by
  have spec : ∀ c ∈ color.toList, isLoose c = true ∧ isBlank c = false := by
    intro c hc
    have := h.2 c hc
    simp only [Bool.or_eq_true, beq_iff_eq] at this
    rcases this with rfl | hplain
    · decide
    · obtain ⟨-, -, hblank, hb, hq, hm⟩ := isPlainChar_spec (c := c) (by simp [isPlainChar, hplain])
      simp only [marks, List.mem_cons, List.not_mem_nil, or_false, not_or] at hm
      exact ⟨by simp [isLoose, hq, hb, hm], hblank⟩
  exact .of_isLoose (fun c hc => (spec c hc).1)
    ⟨fun c hc => (spec c (List.mem_of_head? hc)).2, fun c hc => (spec c (List.mem_of_getLast? hc)).2⟩
    (by simpa using h.1)

theorem phrase_tableSettings {t : Table} (h : t.IsWritten) :
    ∀ s ∈ tableSettings t, Phrase s.toList := by
  intro s hs
  rw [tableSettings, settingIf] at hs
  split_ifs at hs with hc
  · obtain rfl : s = "headercolor" ++ ": " ++ t.color := by simpa [String.append_assoc] using hs
    exact IsKey.phrase_pair (by decide +kernel) (phrase_color (h.color.resolve_left (by simpa using hc)))
  · simp at hs

theorem last_append {s t : List Char} (hne : t ≠ []) (h : ∀ c ∈ t.getLast?, isBlank c = false) :
    ∀ c ∈ (s ++ t).getLast?, isBlank c = false := by
  rwa [List.getLast?_append_of_ne_nil _ hne]

/-- A keyword, a name and what stands behind them make a line. -/
theorem header_spec {k : List Char} (hk : Phrase k) {n : String} (hn : IsName n) {r : List Char}
    (hr : Flat r) (hlast : ∀ c ∈ r.getLast?, isBlank c = false) :
    Flat (k ++ ' ' :: ((quoteName n).toList ++ r)) ∧
      Trimmed (k ++ ' ' :: ((quoteName n).toList ++ r)) := by
  refine ⟨hk.flat.append ((Flat.of_forall (s := [' ']) (by decide)).append
    ((Flat.quoteName hn).append hr)), hk.trimmed.append hk.ne_nil ?_⟩
  have htail := (trimmed_quoteName hn).append (quoteName_ne_nil hn) hlast
  exact last_append (s := [' ']) (by simp [quoteName_ne_nil hn]) htail.2

/-- A table is recognised from its header. -/
theorem ofLine?_tableHeader {t : Table} (h : t.IsWritten) :
    Flat (tableHeader t).toList ∧ Trimmed (tableHeader t).toList ∧ (tableHeader t).toList ≠ [] ∧
      (tableHeader t).toList ≠ ['\x7d'] ∧
      Header.ofLine? (tableHeader t).toList = some (.table t.name.toList none
        ([',', ' '].intercalate ((tableSettings t).map String.toList))) := by
  have hsettings := phrase_tableSettings h
  have htext : (tableHeader t).toList = "Table".toList ++ ' ' :: ((quoteName t.name).toList ++
      ((bracketed (tableSettings t)).toList ++ [' ', '\x7b'])) := by
    simp [tableHeader]
  have hspace : ((bracketed (tableSettings t)).toList ++ [' ', '\x7b']).head? = some ' ' := by
    rw [toList_bracketed]
    split_ifs <;> rfl
  have hshort : takeShortName ((bracketed (tableSettings t)).toList ++ [' ', '\x7b']) =
      (none, (bracketed (tableSettings t)).toList ++ [' ', '\x7b']) := by
    rw [toList_bracketed]
    split_ifs <;> rfl
  have hproject : Header.project? (tableHeader t).toList = none := by
    rw [Header.project?, htext]
    rfl
  have htable : Header.table? (tableHeader t).toList = some (.table t.name.toList none
      ([',', ' '].intercalate ((tableSettings t).map String.toList))) := by
    rw [Header.table?, htext, dropKeyword?_append (by decide)]
    simp only [Option.bind_eq_bind, Option.bind_some, skipBlanks1_name h.name,
      takeQualified?_name h.name hspace, hshort, settingsBeforeBrace?_bracketed]
    rfl
  have hkeyword : Phrase "Table".toList :=
    .of_isLoose (by decide) (by constructor <;> decide) (by decide)
  obtain ⟨hflat, htrim⟩ := header_spec hkeyword h.name
    ((Flat.bracketed hsettings).append (.of_forall (s := [' ', '\x7b']) (by decide)))
    (last_append (by simp) (by decide))
  refine ⟨htext ▸ hflat, htext ▸ htrim, ?_, ?_, ?_⟩
  · rw [htext]
    simp
  · rw [htext]
    exact fun hh => absurd (List.head_eq_of_cons_eq hh) (by decide)
  · rw [Header.ofLine?, hproject, htable]
    rfl

def enumHeader (e : EnumType) : String := "Enum " ++ quoteName e.name ++ " \x7b"

/-- An enumeration is recognised from its header. -/
theorem ofLine?_enumHeader {e : EnumType} (h : e.IsWritten) :
    Flat (enumHeader e).toList ∧ Trimmed (enumHeader e).toList ∧ (enumHeader e).toList ≠ [] ∧
      (enumHeader e).toList ≠ ['\x7d'] ∧
      Header.ofLine? (enumHeader e).toList = some (.enum e.name.toList) := by
  have htext : (enumHeader e).toList =
      "Enum".toList ++ ' ' :: ((quoteName e.name).toList ++ [' ', '\x7b']) := by
    simp [enumHeader]
  have hnone : Header.project? (enumHeader e).toList = none ∧
      Header.table? (enumHeader e).toList = none := by
    rw [Header.project?, Header.table?, htext]
    exact ⟨rfl, rfl⟩
  have henum : Header.enum? (enumHeader e).toList = some (.enum e.name.toList) := by
    rw [Header.enum?, htext, dropKeyword?_append (by decide)]
    simp only [Option.bind_eq_bind, Option.bind_some, skipBlanks1_name h.name,
      takeQualified?_name h.name (r := [' ', '\x7b']) rfl]
    rfl
  have hkeyword : Phrase "Enum".toList :=
    .of_isLoose (by decide) (by constructor <;> decide) (by decide)
  obtain ⟨hflat, htrim⟩ := header_spec hkeyword h.name (r := [' ', '\x7b']) (.of_forall (by decide))
    (by decide)
  refine ⟨htext ▸ hflat, htext ▸ htrim, ?_, ?_, ?_⟩
  · rw [htext]
    simp
  · rw [htext]
    exact fun hh => absurd (List.head_eq_of_cons_eq hh) (by decide)
  · rw [Header.ofLine?, hnone.1, hnone.2, henum]
    rfl

/-! ## References -/

/-- An endpoint as it is written. -/
def endpointChars (e : String × String) : List Char :=
  (quoteName e.1).toList ++ '.' :: (quoteName e.2).toList

theorem takeEndpoint?_endpointChars {e : String × String} (h₁ : IsName e.1) (h₂ : IsName e.2)
    {r : List Char} (hr : ∀ c ∈ r.head?, c = ' ') :
    takeEndpoint? (endpointChars e ++ r) = some ((e.1.toList, e.2.toList), r) := by
  have hstop : ∀ c ∈ r.head?, isNameChar c = false := fun c hc => hr c hc ▸ by decide
  rw [takeEndpoint?, endpointChars, List.append_assoc, List.cons_append,
    takeName?_quoteName h₁ (by simp [show isNameChar '.' = false by decide])]
  simp only [Option.bind_eq_bind, Option.bind_some, takeName?_quoteName h₂ hstop]
  cases r with
  | nil => rfl
  | cons c r =>
    obtain rfl : c = ' ' := hr c rfl
    rfl

theorem trimmed_endpointChars {e : String × String} (h₁ : IsName e.1) (h₂ : IsName e.2) :
    Trimmed (endpointChars e) :=
  (trimmed_quoteName h₁).append (quoteName_ne_nil h₁) (last_append (s := ['.'])
    (quoteName_ne_nil h₂) (trimmed_quoteName h₂).2)

theorem flat_endpointChars {e : String × String} (h₁ : IsName e.1) (h₂ : IsName e.2) :
    Flat (endpointChars e) :=
  (Flat.quoteName h₁).append ((Flat.of_forall (s := ['.']) (by decide)).append (.quoteName h₂))

/-- The endpoints of a reference with its marker and its settings. -/
def referenceChars (a b : String × String) (c : Cardinality) (settings : List String) : List Char :=
  endpointChars a ++ (' ' :: ((markerOf c).toList ++ ' ' :: (endpointChars b ++
    (bracketed settings).toList)))

theorem marker_spec (c : Cardinality) : ∃ m, (markerOf c).toList = [m] ∧ isMarkerChar m = true ∧
    isBlank m = false ∧ ((isQuote m = false ∧ m ≠ '/') ∧ isLineBreak m = false) := by
  cases c
  · exact ⟨'-', by decide⟩
  · exact ⟨'<', by decide⟩
  · exact ⟨'>', by decide⟩

section Endpoints

variable {a b : String × String} (ha₁ : IsName a.1) (ha₂ : IsName a.2) (hb₁ : IsName b.1)
  (hb₂ : IsName b.2)

include ha₁ ha₂ hb₁ hb₂

/-- The parts of a reference are read from its line. -/
theorem ofText?_referenceChars (c : Cardinality) (settings : List String) :
    ReferenceBody.ofText? (referenceChars a b c settings) =
      some ⟨(a.1.toList, a.2.toList), (markerOf c).toList, (b.1.toList, b.2.toList),
        [',', ' '].intercalate (settings.map String.toList)⟩ := by
  obtain ⟨m, hm, hmarker, hblank, -⟩ := marker_spec c
  obtain ⟨x, t, hx, hxblank, hxm, -⟩ := head_quoteName hb₁
  have hend : ∃ u, endpointChars b = x :: u := ⟨t ++ '.' :: (quoteName b.2).toList, by
    rw [endpointChars, hx]
    rfl⟩
  obtain ⟨u, hu⟩ := hend
  rw [ReferenceBody.ofText?, referenceChars, takeEndpoint?_endpointChars ha₁ ha₂ (by simp), hm]
  have hskip : skipBlanks (' ' :: ([m] ++ ' ' :: (endpointChars b ++ (bracketed settings).toList))) =
      m :: ' ' :: (endpointChars b ++ (bracketed settings).toList) := by
    rw [skipBlanks_space, List.singleton_append, skipBlanks_cons hblank]
  have hskip' : skipBlanks (' ' :: (endpointChars b ++ (bracketed settings).toList)) =
      endpointChars b ++ (bracketed settings).toList := by
    rw [skipBlanks_space, hu, List.cons_append, skipBlanks_cons hxblank]
  simp only [Option.bind_eq_bind, Option.bind_some, hskip, List.takeWhile_cons, hmarker, if_true,
    List.dropWhile_cons, show isMarkerChar ' ' = false by decide, Bool.false_eq_true, if_false,
    hskip', List.isEmpty_cons,
    takeEndpoint?_endpointChars hb₁ hb₂ (fun c hc => bracketed_head? settings c hc),
    takeSettings?_bracketed]
  rfl

theorem referenceChars_spec (c : Cardinality) {settings : List String}
    (h : ∀ s ∈ settings, Phrase s.toList) :
    Flat (referenceChars a b c settings) ∧ Trimmed (referenceChars a b c settings) := by
  obtain ⟨m, hm, -, -, hflat⟩ := marker_spec c
  have hne : endpointChars a ≠ [] := by simp [endpointChars]
  have hne' : endpointChars b ≠ [] := by simp [endpointChars]
  rw [referenceChars, hm]
  refine ⟨(flat_endpointChars ha₁ ha₂).append ((Flat.of_forall (s := [' ']) (by decide)).append
    ((Flat.of_forall (s := [m]) (by simpa using hflat)).append ((Flat.of_forall (s := [' '])
      (by decide)).append ((flat_endpointChars hb₁ hb₂).append (.bracketed h))))),
    (trimmed_endpointChars ha₁ ha₂).append hne ?_⟩
  have htail := (trimmed_endpointChars hb₁ hb₂).append hne' (bracketed_getLast? settings)
  exact last_append (s := [' ', m, ' ']) (by simp [hne']) htail.2

end Endpoints

/-- The front of the line of a reference. -/
def referenceFront (name : Option String) : List Char :=
  name.elim "Ref: ".toList fun n => "Ref".toList ++ ' ' :: ((quoteName n).toList ++ [':', ' '])

/-- Behind the name of a reference, a colon and its body. -/
theorem reference?_body {s t body : List Char} {name : Option (List Char)}
    (hs : dropKeyword? "ref".toList s = some t)
    (hname : takeSpacedName t = (name, ':' :: ' ' :: body)) (htrim : Trimmed body)
    (hne : body ≠ []) : Header.reference? s = some (.reference name body) := by
  obtain ⟨c, r, rfl⟩ := List.exists_cons_of_ne_nil hne
  have hblank : isBlank c = false := htrim.1 c rfl
  have hcolon : skipBlanks (':' :: ' ' :: c :: r) = ':' :: ' ' :: c :: r := rfl
  rw [Header.reference?, hs, Option.bind_eq_bind, Option.bind_some, hname]
  simp only [hcolon, skipBlanks_space, skipBlanks_cons hblank, strip_space_cons htrim]
  rfl

/-- A reference on one line is recognised with its name and its body. -/
theorem ofLine?_reference {name : Option String} (hn : ∀ n ∈ name, IsName n) {body : List Char}
    (hflat : Flat body) (htrim : Trimmed body) (hne : body ≠ []) :
    Flat (referenceFront name ++ body) ∧ Trimmed (referenceFront name ++ body) ∧
      Header.ofLine? (referenceFront name ++ body) =
        some (.reference (name.map String.toList) body) := by
  have hkeyword : Phrase "Ref".toList :=
    .of_isLoose (by decide) (by constructor <;> decide) (by decide)
  cases name with
  | none =>
    have hfront : referenceFront none ++ body = "Ref".toList ++ ':' :: ' ' :: body := by
      simp [referenceFront]
    have hnone : Header.project? (referenceFront none ++ body) = none ∧
        Header.table? (referenceFront none ++ body) = none ∧
        Header.enum? (referenceFront none ++ body) = none := by
      rw [Header.project?, Header.table?, Header.enum?, hfront]
      exact ⟨rfl, rfl, rfl⟩
    have href : Header.reference? (referenceFront none ++ body) = some (.reference none body) := by
      refine reference?_body (t := ':' :: ' ' :: body) ?_ rfl htrim hne
      rw [hfront, dropKeyword?_append (by decide)]
    refine ⟨?_, ?_, ?_⟩
    · rw [hfront]
      exact hkeyword.flat.append ((Flat.of_forall (s := [':', ' ']) (by decide)).append hflat)
    · rw [hfront]
      exact hkeyword.trimmed.append hkeyword.ne_nil (last_append (s := [':', ' ']) hne htrim.2)
    · rw [Header.ofLine?, hnone.1, hnone.2.1, hnone.2.2, href]
      rfl
  | some n =>
    have hname := hn n rfl
    have hfront : referenceFront (some n) ++ body =
        "Ref".toList ++ ' ' :: ((quoteName n).toList ++ ':' :: ' ' :: body) := by
      simp [referenceFront]
    have hnone : Header.project? (referenceFront (some n) ++ body) = none ∧
        Header.table? (referenceFront (some n) ++ body) = none ∧
        Header.enum? (referenceFront (some n) ++ body) = none := by
      rw [Header.project?, Header.table?, Header.enum?, hfront]
      exact ⟨rfl, rfl, rfl⟩
    have hspaced : takeSpacedName (' ' :: ((quoteName n).toList ++ ':' :: ' ' :: body)) =
        (some n.toList, ':' :: ' ' :: body) := by
      rw [takeSpacedName, skipBlanks1_name hname, Option.bind_some, takeHeadingName?_eq
        (takeName?_quoteName hname (by simp [show isNameChar ':' = false by decide]))]
    have href : Header.reference? (referenceFront (some n) ++ body) =
        some (.reference (some n.toList) body) := by
      refine reference?_body ?_ hspaced htrim hne
      rw [hfront, dropKeyword?_append (by decide)]
    obtain ⟨hline, hline'⟩ := header_spec hkeyword hname (r := ':' :: ' ' :: body)
      ((Flat.of_forall (s := [':', ' ']) (by decide)).append hflat)
      (last_append (s := [':', ' ']) hne htrim.2)
    refine ⟨hfront ▸ hline, hfront ▸ hline', ?_⟩
    rw [Header.ofLine?, hnone.1, hnone.2.1, hnone.2.2, href]
    rfl

end Schemata.Notation
