import Schemata.Plan.Order
import Schemata.Proofs.Dependency.Kahn

/-!
# The graph of the tables that hold keys

`Groups.ofEdges` loses no edge: an owner holds its edges in order (`held_ofEdges`). When the ids of
the tables differ and every owner is one of the tables, the owners with what they need make a
`Kahn.Graph` in which the position of an id is the place of its table (`graph_ofEdges`).
-/

namespace Schemata.Plan

/-! ## Groups -/

namespace Groups

theorem held_add (g : Groups) (e : Edge) (id : String) :
    (g.add e).held id = if id = e.owner.id then g.held id ++ [e] else g.held id := by
  unfold held
  induction g with
  | nil =>
    rw [add, List.lookup_cons]
    by_cases h : id = e.owner.id
    · simp [h]
    · have hne : (id == e.owner.id) = false := beq_eq_false_iff_ne.2 h
      rw [hne, if_neg h]
  | cons p g ih =>
    obtain ⟨owner, es⟩ := p
    rw [add]
    by_cases howner : owner = e.owner.id
    · rw [if_pos howner, List.lookup_cons, List.lookup_cons]
      by_cases h : id = owner
      · simp [h, howner]
      · have hne : (id == owner) = false := beq_eq_false_iff_ne.2 h
        rw [howner] at h
        rw [hne, if_neg h]
    · rw [if_neg howner, List.lookup_cons, List.lookup_cons]
      by_cases h : id = owner
      · simp [h, howner]
      · have hne : (id == owner) = false := beq_eq_false_iff_ne.2 h
        rw [hne]
        exact ih

theorem owners_add (g : Groups) (e : Edge) :
    (g.add e).owners = if e.owner.id ∈ g.owners then g.owners else g.owners ++ [e.owner.id] := by
  unfold owners
  induction g with
  | nil => rfl
  | cons p g ih =>
    obtain ⟨owner, es⟩ := p
    rw [add]
    by_cases howner : owner = e.owner.id
    · simp [howner]
    · rw [if_neg howner, List.map_cons, ih]
      split <;> simp_all [Ne.symm howner]

theorem ofEdges_append (edges : List Edge) (e : Edge) :
    ofEdges (edges ++ [e]) = (ofEdges edges).add e := by
  rw [ofEdges, List.foldl_append]
  rfl

/-- An owner holds its edges in their order, and each of them once. -/
theorem held_ofEdges (edges : List Edge) (id : String) :
    (ofEdges edges).held id = edges.filter (·.owner.id = id) := by
  induction edges using List.reverseRecOn with
  | nil => rfl
  | append_singleton edges e ih =>
    rw [ofEdges_append, held_add, ih, List.filter_append]
    by_cases h : id = e.owner.id
    · simp [h]
    · simp [h, Ne.symm h]

theorem mem_owners_ofEdges {edges : List Edge} {id : String} :
    id ∈ (ofEdges edges).owners ↔ ∃ e ∈ edges, e.owner.id = id := by
  induction edges using List.reverseRecOn with
  | nil => simp [ofEdges, owners]
  | append_singleton edges e ih =>
    rw [ofEdges_append, owners_add]
    by_cases h : e.owner.id ∈ (ofEdges edges).owners
    · rw [if_pos h, ih]
      constructor
      · rintro ⟨f, hf, rfl⟩
        exact ⟨f, List.mem_append_left _ hf, rfl⟩
      · rintro ⟨f, hf, rfl⟩
        rcases List.mem_append.1 hf with hf | hf
        · exact ⟨f, hf, rfl⟩
        · obtain rfl := List.mem_singleton.1 hf
          exact ih.1 h
    · rw [if_neg h, List.mem_append, ih]
      constructor
      · rintro (⟨f, hf, rfl⟩ | hf)
        · exact ⟨f, List.mem_append_left _ hf, rfl⟩
        · exact ⟨e, List.mem_append_right _ (List.mem_singleton_self e),
            (List.mem_singleton.1 hf).symm⟩
      · rintro ⟨f, hf, rfl⟩
        rcases List.mem_append.1 hf with hf | hf
        · exact .inl ⟨f, hf, rfl⟩
        · obtain rfl := List.mem_singleton.1 hf
          exact .inr (List.mem_singleton_self _)

theorem nodup_owners_ofEdges (edges : List Edge) : (ofEdges edges).owners.Nodup := by
  induction edges using List.reverseRecOn with
  | nil => exact List.nodup_nil
  | append_singleton edges e ih =>
    rw [ofEdges_append, owners_add]
    split
    · exact ih
    · next h =>
      refine List.nodup_append.2 ⟨ih, List.nodup_singleton _, ?_⟩
      rintro id hid _ hid' rfl
      exact h (List.mem_singleton.1 hid' ▸ hid)

theorem length_ofEdges (edges : List Edge) :
    (ofEdges edges).length = (ofEdges edges).owners.length := by
  simp [owners]

/-- An owner needs the other owners that one of its edges leads to. -/
theorem mem_needs_ofEdges {edges : List Edge} {owner target : String} :
    target ∈ (ofEdges edges).needs owner ↔
      target ≠ owner ∧ (∃ f ∈ edges, f.owner.id = target) ∧
        ∃ e ∈ edges, e.owner.id = owner ∧ e.target.id = target := by
  unfold needs
  rw [List.mem_filter, mem_owners_ofEdges, held_ofEdges]
  simp only [decide_eq_true_eq, List.mem_map, List.mem_filter]
  constructor
  · rintro ⟨howner, hne, e, ⟨he, ho⟩, ht⟩
    exact ⟨hne, howner, e, he, ho, ht⟩
  · rintro ⟨hne, howner, e, he, ho, ht⟩
    exact ⟨howner, hne, e, ⟨he, ho⟩, ht⟩

end Groups

/-! ## Places -/

theorem find?_eq_some_iff {tables : List Table} (hids : (tables.map Table.id).Nodup) {id : String}
    {t : Table} {n : Nat} : find? tables id = some (t, n) ↔ tables[n]? = some t ∧ t.id = id := by
  have sound : ∀ p : Table × Nat, find? tables id = some p →
      tables[p.2]? = some p.1 ∧ p.1.id = id := by
    intro p hp
    have hmem := List.mem_of_find?_eq_some hp
    rw [List.mem_reverse, List.mem_zipIdx_iff_getElem?] at hmem
    have hid := List.find?_some hp
    exact ⟨hmem, of_decide_eq_true hid⟩
  constructor
  · exact sound (t, n)
  · rintro ⟨ht, rfl⟩
    have hmem : (t, n) ∈ tables.zipIdx.reverse := by
      rwa [List.mem_reverse, List.mem_zipIdx_iff_getElem?]
    obtain ⟨⟨u, m⟩, hu⟩ : ∃ p, find? tables t.id = some p := by
      rw [← Option.isSome_iff_exists, find?, List.find?_isSome]
      exact ⟨(t, n), hmem, decide_eq_true rfl⟩
    obtain ⟨hm, hid⟩ := sound _ hu
    have hn : n < (tables.map Table.id).length := by
      rw [List.length_map]
      exact (List.getElem?_eq_some_iff.1 ht).1
    have hnm : (tables.map Table.id)[n]? = (tables.map Table.id)[m]? := by
      rw [List.getElem?_map, List.getElem?_map, ht, hm]
      exact congrArg some hid.symm
    obtain rfl : n = m := (List.getElem?_inj hn hids).1 hnm
    rw [hu, Option.some.injEq, Prod.mk.injEq]
    exact ⟨Option.some.inj (hm.symm.trans ht), rfl⟩

section Places

variable {tables : List Table} (hids : (tables.map Table.id).Nodup)

include hids

/-- The table with an id stands at the position of the id. -/
theorem find?_of_mem {t : Table} (ht : t ∈ tables) :
    find? tables t.id = some (t, position tables t.id) ∧
      tables[position tables t.id]? = some t := by
  obtain ⟨n, hn⟩ := List.mem_iff_getElem?.1 ht
  have hfind : find? tables t.id = some (t, n) := (find?_eq_some_iff hids).2 ⟨hn, rfl⟩
  have hpos : position tables t.id = n := by
    rw [position, hfind]
    rfl
  rw [hpos]
  exact ⟨hfind, hn⟩

theorem position_injective {t u : Table} (ht : t ∈ tables) (hu : u ∈ tables)
    (h : position tables t.id = position tables u.id) : t = u := by
  have htn := (find?_of_mem hids ht).2
  have hun := (find?_of_mem hids hu).2
  rw [h] at htn
  exact Option.some.inj (htn.symm.trans hun)

theorem idxOf_eq_position {t : Table} (ht : t ∈ tables) :
    tables.idxOf t = position tables t.id := by
  have hidx : tables[tables.idxOf t]? = some t := by
    rw [List.getElem?_eq_getElem (List.idxOf_lt_length_of_mem ht), List.getElem_idxOf]
  have hfind := (find?_eq_some_iff hids).2 ⟨hidx, rfl⟩
  rw [position, hfind]
  rfl

/-- Ids of tables lead back to the tables. -/
theorem tablesOf_map_id {l : List Table} (hl : l ⊆ tables) : tablesOf tables (l.map Table.id) = l := by
  induction l with
  | nil => rfl
  | cons t l ih =>
    have hfind := (find?_of_mem hids (hl List.mem_cons_self)).1
    rw [List.map_cons, tablesOf, List.filterMap_cons_some (b := t) (by rw [hfind]; rfl)]
    exact congrArg (t :: ·) (ih fun u hu => hl (List.mem_cons_of_mem _ hu))

end Places

/-- Ids that all belong to tables are the ids of a list of them. -/
theorem exists_map_id {tables : List Table} {ids : List String}
    (h : ∀ id ∈ ids, ∃ t ∈ tables, t.id = id) : ∃ l ⊆ tables, l.map Table.id = ids := by
  induction ids with
  | nil => exact ⟨[], List.nil_subset _, rfl⟩
  | cons id ids ih =>
    obtain ⟨t, ht, rfl⟩ := h id List.mem_cons_self
    obtain ⟨l, hl, rfl⟩ := ih fun id hid => h id (List.mem_cons_of_mem _ hid)
    exact ⟨t :: l, List.cons_subset.2 ⟨ht, hl⟩, rfl⟩

/-! ## The graph -/

/-- The owners of edges between tables, and what they need, as Kahn's loop reads them. -/
theorem graph_ofEdges {tables : List Table} (hids : (tables.map Table.id).Nodup) {edges : List Edge}
    (hin : ∀ e ∈ edges, ∃ t ∈ tables, t.id = e.owner.id)
    {arrange : String → List String → List String} (harrange : ∀ id l, (arrange id l).Perm l) :
    Kahn.Graph (position tables) (Groups.ofEdges edges).owners (Groups.ofEdges edges).needs
      fun id => arrange id ((Groups.ofEdges edges).dependents id) := by
  have howners := Groups.nodup_owners_ofEdges edges
  constructor
  · exact howners
  · exact fun owner => howners.filter _
  · exact fun target => (harrange _ _).nodup_iff.2 (howners.filter _)
  · intro target owner
    rw [(harrange _ _).mem_iff, Groups.dependents, List.mem_filter, decide_eq_true_eq]
  · intro id hid id' hid' hpos
    obtain ⟨e, he, rfl⟩ := Groups.mem_owners_ofEdges.1 hid
    obtain ⟨e', he', rfl⟩ := Groups.mem_owners_ofEdges.1 hid'
    obtain ⟨t, ht, hte⟩ := hin e he
    obtain ⟨t', ht', hte'⟩ := hin e' he'
    rw [← hte, ← hte'] at hpos ⊢
    rw [position_injective hids ht ht' hpos]

end Schemata.Plan
