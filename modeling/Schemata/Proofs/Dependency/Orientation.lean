import Schemata.Proofs.Dependency.Resolve

/-!
# References that are drawn the other way round

A reference from one row to many says the same as the reference from many rows to one with its ends
swapped (`Reference.flip`). Both lead to an edge with the same ends, since an edge always starts at the
table that holds the key (`Reference.edge_flip`). So what resolving finds, and whether it fails and
why, does not depend on how references are drawn, and neither do the edges, apart from the references
that they keep (`Schema.IsFlipped.resolve`).
-/

namespace Schemata

/-! ## Flipping -/

def Cardinality.flip : Cardinality → Cardinality
  | oneToOne => oneToOne
  | oneToMany => manyToOne
  | manyToOne => oneToMany

namespace Reference

/-- The reference as it is drawn from its other end. -/
def flip (r : Reference) : Reference :=
  { r with
    sourceTable := r.targetTable
    sourceField := r.targetField
    targetTable := r.sourceTable
    targetField := r.sourceField
    cardinality := r.cardinality.flip }

/-- A reference without its ends and their order. -/
def undrawn (r : Reference) : Reference :=
  { r with
    sourceTable := "", sourceField := "", targetTable := "", targetField := ""
    cardinality := .manyToOne }

theorem ownedByTarget_flip {r : Reference} (h : r.cardinality ≠ .oneToOne) :
    r.flip.ownedByTarget = !r.ownedByTarget := by
  unfold ownedByTarget flip
  cases hcardinality : r.cardinality with
  | oneToOne => exact absurd hcardinality h
  | oneToMany => rfl
  | manyToOne => rfl

end Reference

namespace Schema

/-- Whether there is a field with some id in a table with some id. -/
def HasField (s : Schema) (tableId fieldId : String) : Prop :=
  ∃ t ∈ s.tables, t.id = tableId ∧ ∃ f ∈ t.fields, f.id = fieldId

/-- Both ends of all references exist. -/
def HasEnds (s : Schema) : Prop := ∀ r ∈ s.references,
  s.HasField r.sourceTable r.sourceField ∧ s.HasField r.targetTable r.targetField

instance (s : Schema) : Decidable s.HasEnds := by
  unfold HasEnds HasField
  infer_instance

/-- Two schemas that differ in nothing but the direction in which some references are drawn. -/
structure IsFlipped (s s' : Schema) : Prop where
  tables : s'.tables = s.tables
  references : List.Forall₂
    (fun r r' : Reference => r' = r ∨ r.cardinality ≠ .oneToOne ∧ r' = r.flip)
    s.references s'.references
  enums : s'.enums = s.enums
  dialect : s'.dialect = s.dialect

end Schema

/-- An edge without the ends of its reference and their order. -/
def Edge.undrawn (e : Edge) : Edge := { e with reference := e.reference.undrawn }

@[simp] theorem Edge.owner_undrawn (e : Edge) : e.undrawn.owner = e.owner := rfl

@[simp] theorem Edge.target_undrawn (e : Edge) : e.undrawn.target = e.target := rfl

/-! ## Edges -/

namespace Reference

variable {s : Schema} {r : Reference}

theorem exists_endpoint {tableId fieldId : String} (h : s.HasField tableId fieldId) :
    ∃ p, r.endpoint s tableId fieldId = .ok p := by
  obtain ⟨t, ht, rfl, f, hf, rfl⟩ := h
  obtain ⟨u, hu⟩ : ∃ u, s.tableById? t.id = some u :=
    Option.isSome_iff_exists.1 (List.find?_isSome.2 ⟨t, ht, decide_eq_true rfl⟩)
  have hid : u.id = t.id := by simpa using List.find?_some hu
  -- there is one table with this id
  obtain rfl : u = t :=
    List.inj_on_of_nodup_map s.nodup_tables (List.mem_of_find?_eq_some hu) ht hid
  obtain ⟨g, hg⟩ : ∃ g, u.fieldById? f.id = some g :=
    Option.isSome_iff_exists.1 (List.find?_isSome.2 ⟨f, hf, decide_eq_true rfl⟩)
  rw [endpoint, hu]
  dsimp only
  rw [hg]
  exact ⟨_, rfl⟩

theorem exists_edge (h : s.HasField r.sourceTable r.sourceField ∧
    s.HasField r.targetTable r.targetField) : ∃ e, r.edge s = .ok e := by
  obtain ⟨source, hsource⟩ := exists_endpoint (r := r) h.1
  obtain ⟨target, htarget⟩ := exists_endpoint (r := r) h.2
  rw [edge, hsource, htarget]
  exact ⟨_, rfl⟩

/-- A reference leads to an edge with the same ends when it is drawn the other way round. -/
theorem edge_flip {e : Edge} (hcardinality : r.cardinality ≠ .oneToOne) (h : r.edge s = .ok e) :
    r.flip.edge s = .ok { e with reference := r.flip } := by
  obtain ⟨source, hsource, h⟩ := bind_eq_ok.1 h
  obtain ⟨target, htarget, h⟩ := bind_eq_ok.1 h
  cases h
  refine bind_eq_ok.2 ⟨target, htarget, bind_eq_ok.2 ⟨source, hsource, ?_⟩⟩
  rw [ownedByTarget_flip hcardinality]
  cases r.ownedByTarget <;> rfl

end Reference

/-! ## Resolving -/

/-- The graph that is searched for a cycle has nothing of the references. -/
theorem Edge.graph_undrawn (edges : List Edge) : graph (edges.map undrawn) = graph edges := by
  unfold graph
  rw [List.filter_map, List.foldl_map]
  rfl

namespace Schema

variable {s s' : Schema}

theorem resolveReference_flip {r : Reference} {e : Edge} (hcardinality : r.cardinality ≠ .oneToOne)
    (h : r.edge s = .ok e) :
    Edge.undrawn <$> s.resolveReference r.flip = Edge.undrawn <$> s.resolveReference r := by
  have hsame : Edge.undrawn { e with reference := r.flip } = e.undrawn := by
    rw [Edge.undrawn, Edge.undrawn, Reference.reference_of_edge h]
    rfl
  rw [resolveReference_eq, resolveReference_eq, h, Reference.edge_flip hcardinality h]
  show Edge.undrawn <$> (e.check >>= fun _ => pure { e with reference := r.flip }) =
    Edge.undrawn <$> (e.check >>= fun _ => pure e)
  simp only [map_bind, map_pure, hsame]

theorem resolve_undrawn (s : Schema) : List.map Edge.undrawn <$> s.resolve =
    (List.map Edge.undrawn <$> s.references.mapM s.resolveReference) >>= fun edges =>
      match Graph.cycle? (s.tables.map (·.id)) (Edge.graph edges) with
      | some c => Advised.fail (.circular (s.tableNames c))
      | none => pure edges := by
  unfold resolve
  rw [map_bind, bind_map_left]
  congr 1
  funext edges
  rw [Edge.graph_undrawn]
  cases Graph.cycle? (s.tables.map (·.id)) (Edge.graph edges) <;> rfl

/-- A schema whose references lead somewhere is resolved in the same way, however they are drawn. -/
theorem IsFlipped.resolve (h : s.IsFlipped s') (hends : s.HasEnds) :
    List.map Edge.undrawn <$> s'.resolve = List.map Edge.undrawn <$> s.resolve := by
  have hreference : ∀ r, s'.resolveReference r = s.resolveReference r := by
    intro r
    simp only [resolveReference, Reference.edge, Reference.endpoint, tableById?, h.tables]
  have hreferences : List.Forall₂ (fun r r' => Edge.undrawn <$> s'.resolveReference r' =
      Edge.undrawn <$> s.resolveReference r) s.references s'.references := by
    refine ((List.forall₂_and_left _ _).2 ⟨hends, h.references⟩).imp ?_
    rintro r _ ⟨hr, rfl | ⟨hcardinality, rfl⟩⟩
    · rw [hreference]
    · obtain ⟨e, he⟩ := Reference.exists_edge hr
      rw [hreference, resolveReference_flip hcardinality he]
  rw [resolve_undrawn, resolve_undrawn, map_mapM_congr hreferences]
  simp only [tableNames, tableById?, h.tables]

end Schema

end Schemata
