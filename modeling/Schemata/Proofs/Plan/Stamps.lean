import Schemata.Proofs.Plan.Instant
import Schemata.Proofs.Plan.Order

/-!
# The stamps of a plan

All stamps of a plan come from one clock that begins at its base (`exists_clock`), so ticks and
moments rise from task to task (`ascends_orderBy`). From year 1000 on the tokens do too.
-/

namespace Schemata

namespace Clock

variable {α : Type} {c : Clock}

theorem base_of_start {base : Instant} {step : Int} (h : start base step = .ok c) :
    c.base = base := by
  unfold start at h
  split at h <;> cases h
  rfl

/-- The moment of a tick lies that many steps after the base. -/
theorem seconds_of_stamp {n : Nat} {s : Stamp} (h : c.stamp n = .ok s) :
    s.instant.seconds = c.base.seconds + n * c.step := by
  unfold stamp Instant.ofSeconds? at h
  split at h
  · next hs =>
    cases h
    split at hs <;> cases hs
    rfl
  · cases h

/-- Stamps handed out after others are handed out together with them. -/
theorem stampFrom_append {l l' : List α} {r r' : List (α × Stamp)} {n : Nat}
    (h : c.stampFrom n l = .ok r) (h' : c.stampFrom (n + l.length) l' = .ok r') :
    c.stampFrom n (l ++ l') = .ok (r ++ r') := by
  induction l generalizing n r with
  | nil =>
    cases h
    exact h'
  | cons x l ih =>
    rw [stampFrom, bind_eq_ok] at h
    obtain ⟨s, hs, h⟩ := h
    obtain ⟨r₁, hr₁, h⟩ := bind_eq_ok.1 h
    cases h
    rw [List.length_cons, Nat.add_comm l.length, ← Nat.add_assoc] at h'
    rw [List.cons_append, stampFrom, hs]
    show (c.stampFrom (n + 1) (l ++ l') >>= _) = _
    rw [ih hr₁ h']
    rfl

/-- Each stamp is the one of its tick. -/
theorem stamp_of_stampFrom {l : List α} {n : Nat} {r : List (α × Stamp)}
    (h : c.stampFrom n l = .ok r) : ∀ a ∈ r, c.stamp a.2.tick = .ok a.2 := by
  induction l generalizing n r with
  | nil =>
    cases h
    simp
  | cons x l ih =>
    rw [stampFrom, bind_eq_ok] at h
    obtain ⟨s, hs, h⟩ := h
    obtain ⟨r₁, hr₁, h⟩ := bind_eq_ok.1 h
    cases h
    rw [List.forall_mem_cons]
    exact ⟨by rwa [tick_of_stamp hs], ih hr₁⟩

end Clock

namespace Plan

variable {tables : List Table} {edges : List Edge} {arrange : String → List String → List String}
  {base : Instant} {step : Int} {p : Plan}

/-- One clock hands out the stamps of a plan in the order of its tasks. -/
theorem exists_clock (h : orderBy arrange tables edges base step = .ok p) :
    ∃ (c : Clock) (l : List Table), c.base = base ∧
      c.stampFrom 0 l = .ok (p.tasks.map fun t => (t.table, t.stamp)) := by
  obtain ⟨c, ids, created, attached, hstart, -, -, hcreated, hattached, htasks⟩ :=
    exists_start_of_orderBy h
  refine ⟨c, tables ++ tablesOf tables ids, Clock.base_of_start hstart, ?_⟩
  rw [← Nat.zero_add tables.length] at hattached
  rw [Clock.stampFrom_append hcreated hattached, htasks]
  simp [Function.comp_def]

/-- Each task has a greater tick and a later moment than those before it. -/
def Ascends (p : Plan) : Prop :=
  p.tasks.Pairwise fun a b =>
    a.stamp.tick < b.stamp.tick ∧ a.stamp.instant.seconds < b.stamp.instant.seconds

theorem ascends_orderBy (h : orderBy arrange tables edges base step = .ok p) : p.Ascends := by
  obtain ⟨c, l, -, hstamps⟩ := exists_clock h
  have hstamp : ∀ t ∈ p.tasks, c.stamp t.stamp.tick = .ok t.stamp := fun t ht =>
    Clock.stamp_of_stampFrom hstamps _ (List.mem_map_of_mem ht)
  have hticks : (p.tasks.map (·.stamp.tick)).Pairwise (· < ·) := by
    have hrange := (Clock.stampFrom_eq_ok hstamps).2
    rw [List.map_map] at hrange
    show (p.tasks.map ((fun a : Table × Stamp => a.2.tick) ∘ fun t => (t.table, t.stamp))).Pairwise _
    rw [hrange]
    exact List.pairwise_lt_range'
  refine (List.pairwise_map.1 hticks).imp_of_mem fun {a b} ha hb hlt => ⟨hlt, ?_⟩
  rw [Clock.seconds_of_stamp (hstamp a ha), Clock.seconds_of_stamp (hstamp b hb)]
  exact Nat.add_lt_add_left (Nat.mul_lt_mul_of_pos_right hlt c.step_pos) _

/-- No task comes before the base. -/
theorem base_le (h : orderBy arrange tables edges base step = .ok p) :
    ∀ t ∈ p.tasks, base.seconds ≤ t.stamp.instant.seconds := by
  obtain ⟨c, l, rfl, hstamps⟩ := exists_clock h
  intro t ht
  have hstamp := Clock.stamp_of_stampFrom hstamps _ (List.mem_map_of_mem ht)
  rw [Clock.seconds_of_stamp hstamp]
  exact Nat.le_add_right _ _

/-- All tokens of a plan that begins in year 1000 or later have one length. -/
theorem length_token (h : orderBy arrange tables edges base step = .ok p)
    (hyear : 1000 ≤ base.civil.year) : ∀ t ∈ p.tasks, t.stamp.token.length = 17 := fun t ht =>
  Stamp.length_token (Nat.le_trans hyear (Instant.year_le_year (base_le h t ht)))

/-- The tokens of a plan that begins in year 1000 or later rise from task to task. -/
theorem pairwise_token (h : orderBy arrange tables edges base step = .ok p)
    (hyear : 1000 ≤ base.civil.year) :
    p.tasks.Pairwise fun a b => a.stamp.token < b.stamp.token := by
  refine (ascends_orderBy h).imp_of_mem fun {a b} ha _ hlt => ?_
  exact Stamp.token_lt_token (Nat.le_trans hyear (Instant.year_le_year (base_le h a ha))) hlt.2

end Plan

end Schemata
