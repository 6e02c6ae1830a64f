import Mathlib.Data.List.Flatten
import Schemata.Code.Sql.Script
import Schemata.Proofs.Dependency.Resolve
import Schemata.Proofs.Notation.Builder
import Schemata.Proofs.Plan.Order

/-!
# The names of keys and indexes

A key without a name of its own is named by its table and its column, an index by its table, its
fields and its place in the table (`Edge.label`, `Table.indexLabels`). Low lines join the parts and
may stand inside them, so the names of different keys can be equal. `names_nodup_iff` says when:
exactly when the joined texts are. They differ for different tables when no table name with a low
line after it begins another table name (`Schema.Separated`); then all indexes have different names,
and the keys do unless two of them are on one column.
-/

namespace Schemata

open Text

/-! ## Joined names -/

/-- What stands after the last separator can be told from what stands before it. -/
theorem append_cons_inj_of_notMem {α : Type} {x y u v : List α} {a : α} (hu : a ∉ u) (hv : a ∉ v)
    (h : x ++ a :: u = y ++ a :: v) : x = y ∧ u = v := by
  induction x generalizing y with
  | nil =>
    cases y with
    | nil => exact ⟨rfl, (List.cons.inj h).2⟩
    | cons b y =>
      have hmem : a ∈ y ++ a :: v := List.mem_append_right _ List.mem_cons_self
      exact absurd ((List.cons.inj h).2 ▸ hmem) hu
  | cons b x ih =>
    cases y with
    | nil =>
      have hmem : a ∈ x ++ a :: u := List.mem_append_right _ List.mem_cons_self
      exact absurd ((List.cons.inj h).2 ▸ hmem) hv
    | cons c y =>
      obtain ⟨hbc, h⟩ := List.cons.inj h
      obtain ⟨hxy, huv⟩ := ih h
      exact ⟨by rw [hbc, hxy], huv⟩

theorem underscore_notMem_natText (n : Nat) : '_' ∉ (natText n).toList := by
  intro h
  rw [natText, String.toList_ofList] at h
  exact absurd (isDigit_of_mem_toDigits h) (by decide)

theorem intText_natCast (n : Nat) : intText (n : Int) = natText n := by
  rw [intText, if_neg (by omega), Int.natAbs_natCast]

/-- A numbered name tells the text from the number. -/
theorem index_name_injective :
    Function.Injective fun a : String × Nat => a.1 ++ "_index_" ++ natText a.2 := by
  intro a b h
  have hchars : (a.1.toList ++ "_index".toList) ++ '_' :: (natText a.2).toList =
      (b.1.toList ++ "_index".toList) ++ '_' :: (natText b.2).toList := by
    simpa using congrArg String.toList h
  obtain ⟨htext, hnumber⟩ := append_cons_inj_of_notMem (underscore_notMem_natText _)
    (underscore_notMem_natText _) hchars
  exact Prod.ext (String.toList_inj.1 (List.append_cancel_right htext))
    (natText_inj (String.toList_inj.1 hnumber))

/-- Of two names before a low line in one text, one begins the other. -/
theorem name_eq_of_joined {t u c d : String} (htu : ¬(t ++ "_").toList <+: u.toList)
    (hut : ¬(u ++ "_").toList <+: t.toList) (h : t ++ "_" ++ c = u ++ "_" ++ d) :
    t = u ∧ c = d := by
  have ht : (t ++ "_").toList <+: (t ++ "_" ++ c).toList := by simp
  have hu : (u ++ "_").toList <+: (t ++ "_" ++ c).toList := by simp [h]
  have hsame : t ++ "_" = u ++ "_" := by
    have split : ∀ {a b : String}, ¬(a ++ "_").toList <+: b.toList →
        (a ++ "_").toList <+: (b ++ "_").toList → a ++ "_" = b ++ "_" := by
      intro a b hab hbegins
      have hb : (b ++ "_").toList = b.toList ++ ['_'] := by simp
      rw [hb, List.prefix_concat_iff, ← hb] at hbegins
      exact String.toList_inj.1 (hbegins.resolve_right hab)
    obtain hle | hle := List.prefix_or_prefix_of_prefix ht hu
    · exact split htu hle
    · exact (split hut hle).symm
  rw [hsame] at h
  exact ⟨String.append_left_inj _ |>.1 hsame, String.append_right_inj _ |>.1 h⟩

/-- Whether the images of a list differ depends on which of its items are told apart. -/
theorem nodup_map_congr {α β γ : Type} {l : List α} {f : α → β} {g : α → γ}
    (h : ∀ a ∈ l, ∀ b ∈ l, (f a = f b ↔ g a = g b)) : (l.map f).Nodup ↔ (l.map g).Nodup := by
  unfold List.Nodup
  rw [List.pairwise_map, List.pairwise_map]
  exact List.Pairwise.iff_of_mem fun {a b} ha hb => not_congr (h a ha b hb)

/-! ## What the names are made of -/

/-- The table and the column of a key. -/
def Edge.label (e : Edge) : String := e.owner.name ++ "_" ++ e.ownerField.name

theorem Edge.constraintName_of_unnamed {e : Edge} (h : e.reference.name? = none) :
    e.constraintName = e.label ++ "_foreign" := by
  rw [constraintName, h]
  rfl

/-- The edges that a plan attaches, in its order. -/
def Plan.edges (p : Plan) : List Edge := p.tasks.flatMap (·.edges)

/-- The names of the indexes of a table. -/
def Table.indexNames (t : Table) : List String :=
  t.indexes.zipIdx.map fun (i, ordinal) => i.resolvedName t.name (ordinal : Nat)

/-- The table and the fields of each index of a table, and its place. -/
def Table.indexLabels (t : Table) : List (String × Nat) :=
  t.indexes.zipIdx.map fun (i, ordinal) => (t.name ++ "_" ++ "_".intercalate i.fields, ordinal)

/-- The indexes are created under these names. -/
theorem Code.Sql.map_fst_namedIndexes {o : Options} (h : o.indexes = true) (t : Table) :
    (namedIndexes o t).map (·.1) = t.indexNames := by
  rw [namedIndexes, if_pos h, List.map_map]
  rfl

theorem Table.indexNames_of_unnamed {t : Table}
    (h : ∀ i ∈ t.indexes, i.name.filter (· ≠ "") = none) :
    t.indexNames = t.indexLabels.map fun a => a.1 ++ "_index_" ++ natText a.2 := by
  unfold indexNames indexLabels
  rw [List.map_map]
  apply List.map_congr_left
  rintro ⟨i, ordinal⟩ hi
  have hname := h i (List.fst_mem_of_mem_zipIdx hi)
  show i.resolvedName t.name ordinal = _
  rw [Index.resolvedName, hname, Option.getD_none, Index.derivedName, intText_natCast]
  rfl

theorem Table.nodup_indexLabels (t : Table) : t.indexLabels.Nodup := by
  apply List.Nodup.of_map Prod.snd
  unfold indexLabels
  rw [List.map_map]
  show (t.indexes.zipIdx.map Prod.snd).Nodup
  rw [List.zipIdx_map_snd]
  exact List.nodup_range'

namespace Schema

def indexNames (s : Schema) : List String := s.tables.flatMap Table.indexNames

def indexLabels (s : Schema) : List (String × Nat) := s.tables.flatMap Table.indexLabels

/-- No reference and no index has a name of its own. -/
structure Unnamed (s : Schema) : Prop where
  references : ∀ r ∈ s.references, r.name? = none
  indexes : ∀ t ∈ s.tables, ∀ i ∈ t.indexes, i.name.filter (· ≠ "") = none

/-- No table name with a low line after it begins the name of another table. -/
def Separated (s : Schema) : Prop :=
  ∀ t ∈ s.tables, ∀ u ∈ s.tables, t.name ≠ u.name → ¬(t.name ++ "_").toList <+: u.name.toList

theorem indexNames_of_unnamed {s : Schema} (h : s.Unnamed) :
    s.indexNames = s.indexLabels.map fun a => a.1 ++ "_index_" ++ natText a.2 := by
  unfold indexNames indexLabels
  rw [List.map_flatMap]
  exact List.flatMap_congr fun t ht => Table.indexNames_of_unnamed (h.indexes t ht)

/-- When the table names are separated, a joined text tells its table. -/
theorem Separated.name_eq {s : Schema} (h : s.Separated) {t u : Table} (ht : t ∈ s.tables)
    (hu : u ∈ s.tables) {c d : String} (hjoined : t.name ++ "_" ++ c = u.name ++ "_" ++ d) :
    t.name = u.name ∧ c = d := by
  by_cases hname : t.name = u.name
  · rw [hname] at hjoined
    exact ⟨hname, String.append_right_inj _ |>.1 hjoined⟩
  · exact name_eq_of_joined (h t ht u hu hname) (h u hu t ht (Ne.symm hname)) hjoined

theorem Separated.nodup_indexLabels {s : Schema} (h : s.Separated)
    (hnames : (s.tables.map Table.name).Nodup) : s.indexLabels.Nodup := by
  refine List.nodup_flatMap.2 ⟨fun t _ => t.nodup_indexLabels, ?_⟩
  have hne : s.tables.Pairwise fun t u => t.name ≠ u.name := List.pairwise_map.1 hnames
  refine hne.imp_of_mem fun {t u} ht hu htu => ?_
  intro a hat hau
  obtain ⟨i, _, hi⟩ := List.mem_map.1 hat
  obtain ⟨j, _, hj⟩ := List.mem_map.1 hau
  exact htu (h.name_eq ht hu (congrArg Prod.fst (hi.trans hj.symm))).1

end Schema

/-- The edges of a schema are those of its references, in their order. -/
theorem Schema.Fits.map_reference {s : Schema} {edges : List Edge} (h : s.Fits edges) :
    edges.map (·.reference) = s.references := by
  have hsame : List.Forall₂ (fun (e : Edge) (r : Reference) => e.reference = r) edges
      s.references :=
    (mapM_eq_ok_iff.1 h.edges_eq).flip.imp fun _ _ => Reference.reference_of_edge
  exact (congrFun₂ List.forall₂_eq_eq_eq _ _).mp (List.forall₂_map_left_iff.2 hsame)

/-! ## Plans -/

namespace Plan

/-- A plan attaches only edges that it was made for. -/
theorem edges_subset {tables : List Table} {edges : List Edge} {base : Instant} {step : Int}
    {p : Plan} (h : order tables edges base step = .ok p) : p.edges ⊆ edges := by
  intro e he
  obtain ⟨t, ht, he⟩ := List.mem_flatMap.1 he
  obtain ⟨-, ⟨-, hnone⟩ | ⟨-, hheld⟩⟩ := task_of_orderBy h ht
  · rw [hnone] at he
    cases he
  · rw [hheld] at he
    exact List.mem_of_mem_filter he

/-- When no name is given, the keys of a plan have different names exactly when the texts of their
tables and columns differ, and the indexes when those of their tables, fields and places do. With
separated table names all indexes have different names, and so have the keys unless two of them are
on columns of one name in one table. -/
theorem names_nodup_iff {s : Schema} {edges : List Edge} {base : Instant} {step : Int} {p : Plan}
    (hresolve : s.resolve.outcome = .ok edges) (horder : order s.tables edges base step = .ok p)
    (hnames : (s.tables.map Table.name).Nodup) (hunnamed : s.Unnamed) :
    ((p.edges.map Edge.constraintName).Nodup ↔ (p.edges.map Edge.label).Nodup) ∧
      (s.indexNames.Nodup ↔ s.indexLabels.Nodup) ∧
      (s.Separated →
        ((p.edges.map Edge.constraintName).Nodup ↔
          (p.edges.map fun e => (e.owner.name, e.ownerField.name)).Nodup) ∧
        s.indexNames.Nodup) := by
  have hfits := Schema.fits_of_resolve hresolve
  have hkey : ∀ e ∈ p.edges, e.constraintName = e.label ++ "_foreign" := by
    intro e he
    have href : e.reference ∈ s.references := by
      rw [← hfits.map_reference]
      exact List.mem_map_of_mem (edges_subset horder he)
    exact Edge.constraintName_of_unnamed (hunnamed.references _ href)
  have hkeys : (p.edges.map Edge.constraintName).Nodup ↔ (p.edges.map Edge.label).Nodup := by
    apply nodup_map_congr
    intro e he e' he'
    rw [hkey e he, hkey e' he']
    exact String.append_left_inj _
  have hindexes : s.indexNames.Nodup ↔ s.indexLabels.Nodup := by
    rw [Schema.indexNames_of_unnamed hunnamed]
    exact List.nodup_map_iff index_name_injective
  refine ⟨hkeys, hindexes, fun hsep => ⟨?_, hindexes.2 (hsep.nodup_indexLabels hnames)⟩⟩
  rw [hkeys]
  apply nodup_map_congr
  intro e he e' he'
  have howner := (hfits.ends_mem e (edges_subset horder he)).1
  have howner' := (hfits.ends_mem e' (edges_subset horder he')).1
  constructor
  · intro h
    obtain ⟨htable, hcolumn⟩ := hsep.name_eq howner howner' h
    exact Prod.ext htable hcolumn
  · intro h
    obtain ⟨htable, hcolumn⟩ := Prod.mk.inj h
    rw [Edge.label, Edge.label, htable, hcolumn]

/-- A whole-number column. -/
def column (id name : String) : Field := { keyField with id, name, primaryKey := false }

/-- Books with an author and an editor, both of them persons. -/
def library : Schema where
  tables := [
    { users with id := "p", name := "persons" },
    { id := "b", name := "books", fields := [column "a" "author", column "e" "editor"]
      nodup_fields := by decide
      indexes := [⟨["author"], false, none, by simp⟩, ⟨["author", "editor"], false, none, by simp⟩] }]
  references := [⟨"r1", "b", "a", "p", "k", .manyToOne, .restrict, .restrict, none⟩,
    ⟨"r2", "b", "e", "p", "k", .manyToOne, .restrict, .restrict, none⟩]
  nodup_tables := by decide

/-- The edges of the references that have one. -/
def edgesOf (s : Schema) : List Edge := s.references.filterMap fun r => (r.edge s).toOption

theorem resolve_edgesOf {s : Schema} (hfits : s.Fits (edgesOf s))
    (hcycle : s.cycle? (edgesOf s) = none) : s.resolve.outcome = .ok (edgesOf s) := by
  rw [Schema.outcome_resolve hfits, hcycle]

/-- The keys and the indexes of the library have names of their own. -/
theorem names_nodup_library : ∃ edges p, library.resolve.outcome = .ok edges ∧
    order library.tables edges ⟨0, by decide⟩ 1 = .ok p ∧
    p.edges.map Edge.constraintName = ["books_author_foreign", "books_editor_foreign"] ∧
    (p.edges.map Edge.constraintName).Nodup ∧ library.indexNames.Nodup := by
  have hfits : library.Fits (edgesOf library) := by
    constructor <;> decide +kernel
  have hedges := resolve_edgesOf hfits (Graph.cycle?_eq_none_of_sinks (by decide +kernel))
  have horder : (order library.tables (edgesOf library) ⟨0, by decide⟩ 1).toOption.map (fun p =>
      p.edges.map Edge.constraintName) = some ["books_author_foreign", "books_editor_foreign"] := by
    decide +kernel
  obtain ⟨p, hp, hkeys⟩ := exists_ok_of_toOption_map horder
  have hunnamed : library.Unnamed := ⟨by decide +kernel, by decide +kernel⟩
  have hsep : library.Separated := by
    unfold Schema.Separated
    decide +kernel
  obtain ⟨hiff, _, hdistinct⟩ := names_nodup_iff hedges hp (by decide) hunnamed
  refine ⟨edgesOf library, p, hedges, hp, hkeys, ?_, (hdistinct hsep).2⟩
  rw [hkeys]
  decide

/-- Two tables of which one is named as the other with the start of a column. -/
def shadowed : Schema where
  tables := [
    { users with id := "p", name := "persons" },
    { id := "a", name := "book", fields := [column "f" "club_owner"]
      indexes := [⟨["club_owner"], false, none, by simp⟩] },
    { id := "b", name := "book_club", fields := [column "f" "owner"]
      indexes := [⟨["owner"], false, none, by simp⟩] }]
  references := [⟨"r1", "a", "f", "p", "k", .manyToOne, .restrict, .restrict, none⟩,
    ⟨"r2", "b", "f", "p", "k", .manyToOne, .restrict, .restrict, none⟩]
  nodup_tables := by decide

/-- Different tables whose keys have one name, and whose indexes do. -/
theorem names_shadowed : ∃ edges p, shadowed.resolve.outcome = .ok edges ∧
    order shadowed.tables edges ⟨0, by decide⟩ 1 = .ok p ∧
    (shadowed.tables.map Table.name).Nodup ∧ shadowed.Unnamed ∧
    (∀ t ∈ shadowed.tables, ∀ i ∈ t.indexes, i.fields ⊆ t.fields.map Field.name) ∧
    p.edges.map Edge.constraintName = ["book_club_owner_foreign", "book_club_owner_foreign"] ∧
    shadowed.indexNames = ["book_club_owner_index_0", "book_club_owner_index_0"] := by
  have hfits : shadowed.Fits (edgesOf shadowed) := by
    constructor <;> decide +kernel
  have hedges := resolve_edgesOf hfits (Graph.cycle?_eq_none_of_sinks (by decide +kernel))
  have horder : (order shadowed.tables (edgesOf shadowed) ⟨0, by decide⟩ 1).toOption.map (fun p =>
      p.edges.map Edge.constraintName) =
        some ["book_club_owner_foreign", "book_club_owner_foreign"] := by decide +kernel
  obtain ⟨p, hp, hkeys⟩ := exists_ok_of_toOption_map horder
  refine ⟨edgesOf shadowed, p, hedges, hp, by decide, ⟨by decide +kernel, by decide +kernel⟩,
    by decide, hkeys, ?_⟩
  decide +kernel

end Plan

end Schemata
