import Mathlib.Data.List.Nodup
import Mathlib.Data.List.Pairwise
import Schemata.Proofs.Notation.Sketch

/-!
# Blocks in any order

A text put together of complete texts is read as these are, one after the other, and what is built of
that is made of sketches (`exists_parse_join`, `outline_parse_join`). If names are distinct and one text
at most names a dialect, the sketches do not depend on the order of the texts, so in any other order
they are accepted as well and describe the same schema, up to the order of its parts (`parse_join_perm`).
-/

namespace Schemata

/-- Outlines in one dialect with the same parts, in any order. -/
structure Outline.SameParts (o o' : Outline) : Prop where
  dialect : o.dialect = o'.dialect
  enums : o.enums.Perm o'.enums
  tables : o.tables.Perm o'.tables
  references : o.references.Perm o'.references

namespace Notation

open Text

/-! ## Sketches without line numbers -/

section Unnumbered

variable (items : List Item)

theorem tablesOf_unnumbered :
    tablesOf (items.map Item.unnumbered) = (tablesOf items).map TableDraft.unnumbered := by
  unfold tablesOf
  rw [List.filterMap_map, List.map_filterMap]
  refine List.filterMap_congr fun i _ => ?_
  cases i <;> rfl

theorem enumsOf_unnumbered : enumsOf (items.map Item.unnumbered) = enumsOf items := by
  unfold enumsOf
  rw [List.filterMap_map]
  refine List.filterMap_congr fun i _ => ?_
  cases i <;> rfl

theorem referencesOf_unnumbered :
    referencesOf (items.map Item.unnumbered) =
      (referencesOf items).map ReferenceDraft.unnumbered := by
  unfold referencesOf
  rw [List.filterMap_map, List.map_filterMap]
  refine List.filterMap_congr fun i _ => ?_
  cases i <;> rfl

theorem dialectOf_unnumbered : dialectOf (items.map Item.unnumbered) = dialectOf items := by
  unfold dialectOf
  rw [List.foldl_map]
  refine congrArg (fun g => List.foldl g _ items) (funext fun d => funext fun i => ?_)
  cases i <;> rfl

theorem inlineReferences_unnumbered (t : TableDraft) :
    inlineReferences t.unnumbered = (inlineReferences t).map ReferenceDraft.unnumbered := by
  unfold inlineReferences TableDraft.unnumbered
  rw [List.filterMap_map, List.map_filterMap]
  refine List.filterMap_congr fun f _ => ?_
  dsimp only [Function.comp]
  show f.reference.map _ = (f.reference.map _).map _
  rw [Option.map_map]
  rfl

theorem allReferences_unnumbered :
    allReferences (items.map Item.unnumbered) =
      (allReferences items).map ReferenceDraft.unnumbered := by
  unfold allReferences
  rw [tablesOf_unnumbered, referencesOf_unnumbered, List.map_append, List.flatMap_map,
    List.map_flatMap]
  exact congrArg (· ++ _) (List.flatMap_congr fun t _ => inlineReferences_unnumbered t)

theorem TableDraft.sketch_unnumbered (d : Dialect) (enums : List EnumType) (t : TableDraft) :
    t.unnumbered.sketch d enums = t.sketch d enums :=
  (outline_buildTable_eq_sketch 0 t.unnumbered).symm

theorem sketchNamed_unnumbered : sketchNamed (items.map Item.unnumbered) = sketchNamed items := by
  funext key
  unfold sketchNamed tableSketch?
  rw [dialectOf_unnumbered, enumsOf_unnumbered, tablesOf_unnumbered, List.find?_map]
  have hkeys : ((fun t : TableDraft => decide (key ∈ t.keys)) ∘ TableDraft.unnumbered) =
      fun t => decide (key ∈ t.keys) := rfl
  rw [hkeys]
  cases (tablesOf items).find? fun t => key ∈ t.keys with
  | none => rfl
  | some t => exact t.sketch_unnumbered _ _

theorem builds_unnumbered : Builds (items.map Item.unnumbered) ↔ Builds items := by
  have htables : (∀ t ∈ tablesOf (items.map Item.unnumbered),
      (t.sketch (dialectOf items) (enumsOf items)).isSome) ↔
        ∀ t ∈ tablesOf items, (t.sketch (dialectOf items) (enumsOf items)).isSome := by
    rw [tablesOf_unnumbered, List.forall_mem_map]
    simp only [TableDraft.sketch_unnumbered]
  have hreferences : (∀ r ∈ allReferences (items.map Item.unnumbered),
      (r.sketch (sketchNamed items)).isSome) ↔
        ∀ r ∈ allReferences items, (r.sketch (sketchNamed items)).isSome := by
    rw [allReferences_unnumbered, List.forall_mem_map]
    rfl
  constructor
  · rintro ⟨ht, hr⟩
    rw [dialectOf_unnumbered, enumsOf_unnumbered] at ht
    rw [sketchNamed_unnumbered] at hr
    exact ⟨htables.1 ht, hreferences.1 hr⟩
  · rintro ⟨ht, hr⟩
    refine ⟨?_, ?_⟩
    · rw [dialectOf_unnumbered, enumsOf_unnumbered]
      exact htables.2 ht
    · rw [sketchNamed_unnumbered]
      exact hreferences.2 hr

theorem sketch_unnumbered : sketch (items.map Item.unnumbered) = sketch items := by
  have htables : (tablesOf (items.map Item.unnumbered)).filterMap
      (·.sketch (dialectOf items) (enumsOf items)) =
        (tablesOf items).filterMap (·.sketch (dialectOf items) (enumsOf items)) := by
    rw [tablesOf_unnumbered, List.filterMap_map]
    exact List.filterMap_congr fun t _ => t.sketch_unnumbered _ _
  have hreferences : (allReferences (items.map Item.unnumbered)).filterMap
      (·.sketch (sketchNamed items)) =
        (allReferences items).filterMap (·.sketch (sketchNamed items)) := by
    rw [allReferences_unnumbered, List.filterMap_map]
    rfl
  unfold sketch
  rw [dialectOf_unnumbered, enumsOf_unnumbered, sketchNamed_unnumbered, htables, hreferences]

theorem keys_unnumbered : (tablesOf (items.map Item.unnumbered)).flatMap TableDraft.keys =
    (tablesOf items).flatMap TableDraft.keys := by
  rw [tablesOf_unnumbered, List.flatMap_map]
  rfl

end Unnumbered

/-! ## Texts in one order -/

section Join

variable {texts : List String} (hcomplete : ∀ t ∈ texts, IsComplete t)
  (hkeys : ((tablesOf (texts.flatMap itemsAlone)).flatMap TableDraft.keys).Nodup)

include hcomplete hkeys

theorem exists_build_join : ∃ items,
    (∀ s, (parse (String.join texts)).outcome = .ok s ↔ (build items).outcome = .ok s) ∧
    ((tablesOf items).flatMap TableDraft.keys).Nodup ∧
    items.map Item.unnumbered = (texts.flatMap itemsAlone).map Item.unnumbered := by
  obtain ⟨items, hitems, hsame⟩ := items_join hcomplete
  refine ⟨items, fun s => ?_, ?_, hsame⟩
  · unfold parse
    rw [Advised.bind_of_ok hitems]
  · rwa [← keys_unnumbered, hsame, keys_unnumbered]

/-- What complete texts are put together to is accepted exactly when all that they are read as has a
sketch. -/
theorem exists_parse_join : (∃ s, (parse (String.join texts)).outcome = .ok s) ↔
    Builds (texts.flatMap itemsAlone) := by
  obtain ⟨items, hparse, hkeys', hsame⟩ := exists_build_join hcomplete hkeys
  simp only [hparse]
  rw [← builds_unnumbered, ← hsame, builds_unnumbered]
  exact ⟨fun ⟨s, hs⟩ => (outline_build hkeys' hs).1, exists_build hkeys'⟩

theorem outline_parse_join {s : Schema} (h : (parse (String.join texts)).outcome = .ok s) :
    s.outline = sketch (texts.flatMap itemsAlone) := by
  obtain ⟨items, hparse, hkeys', hsame⟩ := exists_build_join hcomplete hkeys
  rw [(outline_build hkeys' ((hparse s).1 h)).2, ← sketch_unnumbered items, hsame,
    sketch_unnumbered]

end Join

/-! ## Items in another order -/

/-- What is found does not depend on the order if only one thing can be found. -/
theorem find?_perm {α : Type} {p : α → Bool} {l l' : List α} (hperm : l.Perm l')
    (hunique : ∀ a ∈ l, ∀ b ∈ l, p a = true → p b = true → a = b) : l.find? p = l'.find? p := by
  cases h : l.find? p with
  | none =>
    rw [List.find?_eq_none] at h
    exact (List.find?_eq_none.2 fun a ha => h a (hperm.mem_iff.2 ha)).symm
  | some a =>
    have ha := List.mem_of_find?_eq_some h
    have hpa : p a = true := List.find?_some h
    cases h' : l'.find? p with
    | none => exact absurd hpa (List.find?_eq_none.1 h' a (hperm.mem_iff.1 ha))
    | some b =>
      have hb := hperm.mem_iff.2 (List.mem_of_find?_eq_some h')
      rw [hunique a ha b hb hpa (List.find?_some h')]

section Enumerations

variable {d : Dialect} {enums enums' : List EnumType}

theorem enumNamed?_perm (hnames : (enums.map (·.name)).Nodup) (hperm : enums.Perm enums') :
    enumNamed? enums = enumNamed? enums' := by
  funext name
  have hreverse : enums.reverse.Perm enums'.reverse :=
    enums.reverse_perm.trans (hperm.trans enums'.reverse_perm.symm)
  refine find?_perm hreverse fun a ha b hb hname hname' => ?_
  exact List.inj_on_of_nodup_map hnames (List.mem_reverse.1 ha) (List.mem_reverse.1 hb)
    ((of_decide_eq_true hname).trans (of_decide_eq_true hname').symm)

/-- Tables depend on enumerations by what their names lead to. -/
theorem sketch_congr (h : enumNamed? enums = enumNamed? enums') (t : TableDraft) :
    t.sketch d enums = t.sketch d enums' := by
  have hfield : ∀ table id primaryKey f, buildField d enums table id primaryKey f =
      buildField d enums' table id primaryKey f := by
    intro table id primaryKey f
    unfold buildField typeOf
    rw [h]
  have hfields : ∀ table id keyed position seen fs,
      buildFields d enums table id keyed position seen fs =
        buildFields d enums' table id keyed position seen fs := by
    intro table id keyed position seen fs
    induction fs generalizing position seen with
    | nil => rfl
    | cons f fs ih =>
      rw [buildFields, buildFields]
      simp only [hfield, ih]
  unfold TableDraft.sketch
  rw [outline_buildTable, outline_buildTable, hfields]

end Enumerations

theorem tableSketch?_perm {d : Dialect} {enums : List EnumType} {drafts drafts' : List TableDraft}
    (hkeys : (drafts.flatMap TableDraft.keys).Nodup) (hperm : drafts.Perm drafts') :
    tableSketch? d enums drafts = tableSketch? d enums drafts' := by
  funext key
  refine congrArg (Option.bind · _) (find?_perm hperm fun a ha b hb hkey hkey' => ?_)
  by_contra hne
  have hsymm : Std.Symm (Function.onFun List.Disjoint TableDraft.keys) :=
    ⟨fun _ _ h _ ha hb => h hb ha⟩
  have hdisjoint := (List.nodup_flatMap.1 hkeys).2.forall ha hb hne
  exact hdisjoint (of_decide_eq_true hkey) (of_decide_eq_true hkey')

section Items

variable {items items' : List Item} (hperm : items.Perm items')
  (hdialect : dialectOf items = dialectOf items')
  (hkeys : ((tablesOf items).flatMap TableDraft.keys).Nodup)
  (henums : ((enumsOf items).map (·.name)).Nodup)

include hperm

theorem allReferences_perm : (allReferences items).Perm (allReferences items') :=
  ((hperm.filterMap _).flatMap_right _).append (hperm.filterMap _)

include hdialect henums

theorem sketch_perm (t : TableDraft) : t.sketch (dialectOf items) (enumsOf items) =
    t.sketch (dialectOf items') (enumsOf items') := by
  rw [← hdialect]
  exact sketch_congr (enumNamed?_perm henums (hperm.filterMap _)) t

include hkeys

theorem sketchNamed_perm : sketchNamed items = sketchNamed items' := by
  have htables : (tablesOf items).Perm (tablesOf items') := hperm.filterMap _
  unfold sketchNamed
  rw [tableSketch?_perm hkeys htables]
  funext key
  unfold tableSketch?
  simp only [sketch_perm hperm hdialect henums]

theorem builds_perm : Builds items ↔ Builds items' := by
  have htables : (tablesOf items).Perm (tablesOf items') := hperm.filterMap _
  have htablesIff : (∀ t ∈ tablesOf items, (t.sketch (dialectOf items) (enumsOf items)).isSome) ↔
      ∀ t ∈ tablesOf items', (t.sketch (dialectOf items') (enumsOf items')).isSome := by
    simp only [htables.mem_iff, sketch_perm hperm hdialect henums]
  have hreferencesIff : (∀ r ∈ allReferences items, (r.sketch (sketchNamed items)).isSome) ↔
      ∀ r ∈ allReferences items', (r.sketch (sketchNamed items')).isSome := by
    simp only [(allReferences_perm hperm).mem_iff, sketchNamed_perm hperm hdialect hkeys henums]
  exact ⟨fun h => ⟨htablesIff.1 h.tables, hreferencesIff.1 h.references⟩,
    fun h => ⟨htablesIff.2 h.tables, hreferencesIff.2 h.references⟩⟩

theorem sameParts_sketch : (sketch items).SameParts (sketch items') where
  dialect := hdialect
  enums := hperm.filterMap _
  tables := by
    unfold sketch
    simp only [sketch_perm hperm hdialect henums]
    exact (hperm.filterMap _).filterMap _
  references := by
    unfold sketch
    rw [sketchNamed_perm hperm hdialect hkeys henums]
    exact (allReferences_perm hperm).filterMap _

end Items

/-! ## Texts in another order -/

/-- The dialects that items name. -/
def dialectsOf (items : List Item) : List Dialect :=
  items.filterMap fun
    | .dialect d => some d
    | _ => none

theorem dialectOf_eq_getLastD (items : List Item) :
    dialectOf items = (dialectsOf items).getLastD .dbml := by
  have hfold : ∀ (l : List Item) (d : Dialect), l.foldl (fun d i => match i with
      | .dialect d' => d'
      | _ => d) d = (dialectsOf l).getLastD d := by
    intro l
    induction l with
    | nil => exact fun _ => rfl
    | cons i l ih =>
      intro d
      rw [List.foldl_cons, ih]
      cases i with
      | dialect d' => exact (List.getLastD_cons ..).symm
      | _ => rfl
  exact hfold items .dbml

/-- If one element at most contributes to a list, the order of the elements does not matter to it. -/
theorem flatMap_perm {α β : Type} [DecidableEq β] {g : α → List β} {l l' : List α}
    (hone : (l.filter fun a => g a ≠ []).length ≤ 1) (hperm : l.Perm l') :
    l.flatMap g = l'.flatMap g := by
  have hfilter : ∀ l : List α, (l.filter fun a => g a ≠ []).flatMap g = l.flatMap g := by
    intro l
    induction l with
    | nil => rfl
    | cons a l ih =>
      by_cases ha : g a = []
      · rw [List.filter_cons_of_neg (by simpa using ha), ih, List.flatMap_cons, ha, List.nil_append]
      · rw [List.filter_cons_of_pos (by simpa using ha), List.flatMap_cons, ih, List.flatMap_cons]
  have hsame : (l.filter fun a => g a ≠ []) = l'.filter fun a => g a ≠ [] := by
    have hfiltered := hperm.filter fun a => g a ≠ []
    match h : l.filter fun a => g a ≠ [], hone with
    | [], _ =>
      rw [h] at hfiltered
      exact hfiltered.nil_eq
    | [a], _ =>
      rw [h] at hfiltered
      exact (List.perm_singleton.1 hfiltered.symm).symm
  rw [← hfilter l, hsame, hfilter l']

/-- Complete texts whose tables have distinct names and short names, whose enumerations have distinct
names, and one of which at most names a dialect. -/
structure Independent (texts : List String) : Prop where
  complete : ∀ t ∈ texts, IsComplete t
  nodup_keys : ((tablesOf (texts.flatMap itemsAlone)).flatMap TableDraft.keys).Nodup
  nodup_enums : ((enumsOf (texts.flatMap itemsAlone)).map (·.name)).Nodup
  one_project : (texts.filter fun t => dialectsOf (itemsAlone t) ≠ []).length ≤ 1

/-- Independent texts are accepted in any order or in none, and describe the same schema, up to ids,
places and the order of its parts. -/
theorem parse_join_perm {texts texts' : List String} (h : Independent texts)
    (hperm : texts.Perm texts') :
    ((∃ s, (parse (String.join texts)).outcome = .ok s) ↔
      ∃ s, (parse (String.join texts')).outcome = .ok s) ∧
    ∀ s s', (parse (String.join texts)).outcome = .ok s →
      (parse (String.join texts')).outcome = .ok s' → s.outline.SameParts s'.outline := by
  have hcomplete' : ∀ t ∈ texts', IsComplete t := fun t ht => h.complete t (hperm.mem_iff.2 ht)
  have hitems : (texts.flatMap itemsAlone).Perm (texts'.flatMap itemsAlone) :=
    hperm.flatMap_right itemsAlone
  have hkeys' : ((tablesOf (texts'.flatMap itemsAlone)).flatMap TableDraft.keys).Nodup :=
    (((hitems.filterMap _).flatMap_right _).nodup_iff).1 h.nodup_keys
  have hdialect : dialectOf (texts.flatMap itemsAlone) = dialectOf (texts'.flatMap itemsAlone) := by
    rw [dialectOf_eq_getLastD, dialectOf_eq_getLastD, dialectsOf, dialectsOf, List.filterMap_flatMap,
      List.filterMap_flatMap]
    exact congrArg (List.getLastD · _) (flatMap_perm h.one_project hperm)
  rw [exists_parse_join h.complete h.nodup_keys, exists_parse_join hcomplete' hkeys']
  refine ⟨builds_perm hitems hdialect h.nodup_keys h.nodup_enums, fun s s' hs hs' => ?_⟩
  rw [outline_parse_join h.complete h.nodup_keys hs, outline_parse_join hcomplete' hkeys' hs']
  exact sameParts_sketch hitems hdialect h.nodup_keys h.nodup_enums

/-- The blocks of a magazine, each of which refers to one that stands behind it. -/
def magazine : List String :=
  ["Ref: posts.author > u.id",
    "Table posts \x7b\n  author int\n  tone mood\n\x7d",
    "Enum mood \x7b\n  calm\n  loud\n\x7d",
    "Table users as u \x7b\n  id int [pk]\n\x7d",
    "Project magazine \x7b\n  database_type: 'MySQL'\n\x7d"]

/-- The blocks of the magazine are accepted from the last to the first as well, and make up the same
schema. -/
theorem parse_join_perm_magazine : ∃ s s',
    (parse (String.join (magazine.map (· ++ "\n")))).outcome = .ok s ∧
    (parse (String.join (magazine.map (· ++ "\n")).reverse)).outcome = .ok s' ∧
    s.dialect = .mysql ∧ s.outline.SameParts s'.outline := by
  have hindependent : Independent (magazine.map (· ++ "\n")) := by
    have hdistinct :
        ((tablesOf ((magazine.map (· ++ "\n")).flatMap itemsAlone)).flatMap TableDraft.keys).Nodup ∧
        ((enumsOf ((magazine.map (· ++ "\n")).flatMap itemsAlone)).map (·.name)).Nodup ∧
        ((magazine.map (· ++ "\n")).filter fun t => dialectsOf (itemsAlone t) ≠ []).length ≤ 1 := by
      decide +kernel
    refine ⟨?_, hdistinct.1, hdistinct.2.1, hdistinct.2.2⟩
    have hmagazine : ∀ t ∈ magazine, ¬['/', '/'] <:+: t.toList ∧ ¬['/', '*'] <:+: t.toList ∧
        (itemsOf t.toList).value?.isSome := by decide +kernel
    rw [List.forall_mem_map]
    intro t ht
    obtain ⟨hline, hblock, hitems⟩ := hmagazine t ht
    obtain ⟨items, hitems⟩ := Option.isSome_iff_exists.1 hitems
    exact isComplete_newline hline hblock ⟨items, Advised.value?_eq_some.1 hitems⟩
  obtain ⟨hiff, hsame⟩ := parse_join_perm hindependent
    (List.reverse_perm (magazine.map (· ++ "\n"))).symm
  have hparse : (parse (String.join (magazine.map (· ++ "\n")))).value?.map (·.dialect) =
      some .mysql := by decide +kernel
  obtain ⟨s, hs, hdialect⟩ := Option.map_eq_some_iff.1 hparse
  rw [Advised.value?_eq_some] at hs
  obtain ⟨s', hs'⟩ := hiff.1 ⟨s, hs⟩
  exact ⟨s, s', hs, hs', hdialect, hsame s s' hs hs'⟩

end Notation

end Schemata
