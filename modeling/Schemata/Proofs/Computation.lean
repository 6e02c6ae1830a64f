import Mathlib.Data.List.Forall2
import Schemata.Finding
import Schemata.Limits

/-!
# Computations that succeed

A sequence of computations succeeds exactly when each of its parts does, for those that only fail and
for those that also make findings.
-/

namespace Schemata

theorem bind_eq_ok {α β : Type} {x : Except Fault α} {f : α → Except Fault β} {b : β} :
    (x >>= f) = .ok b ↔ ∃ a, x = .ok a ∧ f a = .ok b := by
  cases x <;> simp [bind, Except.bind]

/-- A computation succeeds if there is something that its value is known to come to. -/
theorem exists_ok_of_toOption_map {ε α β : Type} {x : Except ε α} {f : α → β} {b : β}
    (h : x.toOption.map f = some b) : ∃ a, x = .ok a ∧ f a = b := by
  cases x with
  | error e => simp [Except.toOption] at h
  | ok a => exact ⟨a, rfl, Option.some.inj h⟩

/-- A computation succeeds with a value of some sort if its value is known to be of that sort. -/
theorem exists_ok_of_any {ε α : Type} {x : Except ε α} {P : α → Prop} [DecidablePred P]
    (h : x.toOption.any (P ·) = true) : ∃ a, x = .ok a ∧ P a := by
  cases x with
  | error e => simp [Except.toOption] at h
  | ok a => exact ⟨a, rfl, by simpa [Except.toOption] using h⟩

theorem bind_eq_error {α β : Type} {x : Except Fault α} {f : α → Except Fault β} {e : Fault} :
    (x >>= f) = .error e ↔ x = .error e ∨ ∃ a, x = .ok a ∧ f a = .error e := by
  cases x <;> simp [bind, Except.bind]

theorem mapError_eq_ok {ε ε' α : Type} {x : Except ε α} {f : ε → ε'} {a : α} :
    x.mapError f = .ok a ↔ x = .ok a := by
  cases x <;> simp [Except.mapError]

theorem map_eq_ok {ε α β : Type} {x : Except ε α} {f : α → β} {b : β} :
    x.map f = .ok b ↔ ∃ a, x = .ok a ∧ f a = b := by
  cases x <;> simp [Except.map]

theorem map_eq_error {ε α β : Type} {x : Except ε α} {f : α → β} {e : ε} :
    x.map f = .error e ↔ x = .error e := by
  cases x <;> simp [Except.map]

theorem forM_eq_ok {α : Type} {f : α → Except Fault Unit} {l : List α} :
    l.forM f = .ok () ↔ ∀ x ∈ l, f x = .ok () := by
  induction l with
  | nil => simp [pure, Except.pure]
  | cons x l ih =>
    show (f x >>= fun _ => l.forM f) = .ok () ↔ _
    rw [bind_eq_ok, List.forall_mem_cons, ← ih]
    constructor
    · rintro ⟨_, hx, hl⟩
      exact ⟨hx, hl⟩
    · rintro ⟨hx, hl⟩
      exact ⟨(), hx, hl⟩

theorem mapM_eq_ok_iff {α β : Type} {f : α → Except Fault β} {l : List α} {r : List β} :
    l.mapM f = .ok r ↔ List.Forall₂ (fun x y => f x = .ok y) l r := by
  induction l generalizing r with
  | nil =>
    rw [List.mapM_nil, List.forall₂_nil_left_iff]
    constructor <;> intro h <;> cases h <;> rfl
  | cons x l ih =>
    rw [List.mapM_cons, bind_eq_ok, List.forall₂_cons_left_iff]
    constructor
    · rintro ⟨y, hy, h⟩
      obtain ⟨r', hr', h⟩ := bind_eq_ok.1 h
      cases h
      exact ⟨y, r', hy, ih.1 hr', rfl⟩
    · rintro ⟨y, r', hy, hr', rfl⟩
      exact ⟨y, hy, bind_eq_ok.2 ⟨r', ih.2 hr', rfl⟩⟩

/-- A computation that succeeds for each item succeeds for all of them. -/
theorem exists_mapM_eq_ok {α β : Type} {f : α → Except Fault β} {l : List α}
    (h : ∀ a ∈ l, ∃ b, f a = .ok b) : ∃ r, l.mapM f = .ok r := by
  simp only [mapM_eq_ok_iff]
  induction l with
  | nil => exact ⟨[], .nil⟩
  | cons a l ih =>
    obtain ⟨b, hb⟩ := h a List.mem_cons_self
    obtain ⟨r, hr⟩ := ih fun x hx => h x (List.mem_cons_of_mem a hx)
    exact ⟨b :: r, .cons hb hr⟩

/-- Items that each come to something, unless there is a fault, do so together, unless there is a fault
with one of them. -/
theorem mapM_eq_okUnless {α β : Type} {f : α → Except Fault β} {k : α → Option Fault} {g : α → β}
    {l : List α} (h : ∀ a ∈ l, f a = okUnless (k a) (g a)) :
    l.mapM f = okUnless (l.findSome? k) (l.map g) := by
  induction l with
  | nil => rfl
  | cons a l ih =>
    rw [List.mapM_cons, h a List.mem_cons_self, ih fun x hx => h x (List.mem_cons_of_mem a hx),
      List.findSome?_cons]
    cases k a with
    | some f => rfl
    | none => cases l.findSome? k <;> rfl

theorem mapM_eq_ok_map {α β : Type} {f : α → Except Fault β} {g : α → β} {l : List α}
    (h : ∀ a ∈ l, f a = .ok (g a)) : l.mapM f = .ok (l.map g) := by
  have hnone : l.findSome? (fun _ => (none : Option Fault)) = none := by simp
  rw [mapM_eq_okUnless (k := fun _ => none) h, hnone]
  rfl

theorem forall_mem_right {α β : Type} {P : β → Prop} {l : List α} {r : List β}
    (h : List.Forall₂ (fun _ b => P b) l r) : ∀ b ∈ r, P b := by
  induction h with
  | nil => simp
  | cons hb _ ih => exact List.forall_mem_cons.2 ⟨hb, ih⟩

/-- Computations that come to the same, seen in some way, come to the same together. -/
theorem map_mapM_congr {m : Type → Type} [Monad m] [LawfulMonad m] {α β γ δ : Type} {f : α → m γ}
    {g : β → m γ} {k : γ → δ} {l : List α} {r : List β}
    (h : List.Forall₂ (fun a b => k <$> g b = k <$> f a) l r) :
    List.map k <$> r.mapM g = List.map k <$> l.mapM f := by
  have hcons : ∀ {ε : Type} (f : ε → m γ) (a : ε) (l : List ε), List.map k <$> (a :: l).mapM f =
      (k <$> f a) >>= fun b => (b :: ·) <$> (List.map k <$> l.mapM f) := by
    intro ε f a l
    simp [List.mapM_cons, map_bind, bind_map_left]
  induction h with
  | nil => simp
  | cons hab _ ih => rw [hcons, hcons, hab, ih]

/-- What is done with a result afterwards adds no findings. -/
theorem Noted.findings_bind_pure {α β : Type} (x : Noted α) (g : α → β) :
    (do return g (← x) : Noted β).findings = x.findings := List.append_nil _

/-- A computation that only makes findings is carried out for each item by itself. -/
theorem Noted.value_mapM {α β : Type} (f : α → Noted β) (l : List α) :
    (l.mapM f).value = l.map fun x => (f x).value := by
  induction l with
  | nil => rfl
  | cons x l ih =>
    rw [List.mapM_cons, List.map_cons, ← ih]
    rfl

/-- What is found for the items is found in their order. -/
theorem Noted.findings_mapM {α β : Type} (f : α → Noted β) (l : List α) :
    (l.mapM f).findings = l.flatMap fun x => (f x).findings := by
  induction l with
  | nil => rfl
  | cons x l ih =>
    rw [List.mapM_cons, List.flatMap_cons, ← ih]
    exact congrArg _ (List.append_nil _)

theorem Advised.outcome_mapM_eq_ok_iff {α β : Type} {f : α → Advised β} {l : List α} {r : List β} :
    (l.mapM f).outcome = .ok r ↔ List.Forall₂ (fun x y => (f x).outcome = .ok y) l r := by
  induction l generalizing r with
  | nil =>
    rw [List.mapM_nil, List.forall₂_nil_left_iff]
    constructor <;> intro h <;> cases h <;> rfl
  | cons x l ih =>
    rw [List.mapM_cons, outcome_bind_eq_ok, List.forall₂_cons_left_iff]
    constructor
    · rintro ⟨y, hy, h⟩
      obtain ⟨r', hr', h⟩ := outcome_bind_eq_ok.1 h
      cases h
      exact ⟨y, r', hy, ih.1 hr', rfl⟩
    · rintro ⟨y, r', hy, hr', rfl⟩
      exact ⟨y, hy, outcome_bind_eq_ok.2 ⟨r', ih.2 hr', rfl⟩⟩

theorem Advised.outcome_bind_eq_error {α β : Type} {x : Advised α} {f : α → Advised β} {e : Fault} :
    (x >>= f).outcome = .error e ↔
      x.outcome = .error e ∨ ∃ a, x.outcome = .ok a ∧ (f a).outcome = .error e := by
  cases h : x.outcome with
  | error e' => simp [bind_of_error h]
  | ok a => simp [bind_of_ok h]

/-- A computation fails for items exactly when it fails for one of them after it succeeded for those in
front. -/
theorem Advised.outcome_mapM_eq_error_iff {α β : Type} {f : α → Advised β} {l : List α} {e : Fault} :
    (l.mapM f).outcome = .error e ↔ ∃ before x after, l = before ++ x :: after ∧
      (∀ b ∈ before, ∃ y, (f b).outcome = .ok y) ∧ (f x).outcome = .error e := by
  induction l with
  | nil =>
    constructor
    · intro h
      cases h
    · rintro ⟨before, x, after, h, -⟩
      cases before <;> cases h
  | cons a l ih =>
    rw [List.mapM_cons, outcome_bind_eq_error]
    constructor
    · rintro (h | ⟨b, hb, h⟩)
      · exact ⟨[], a, l, rfl, nofun, h⟩
      · obtain h | ⟨_, -, h⟩ := outcome_bind_eq_error.1 h
        · obtain ⟨before, x, after, rfl, hbefore, hx⟩ := ih.1 h
          exact ⟨a :: before, x, after, rfl, List.forall_mem_cons.2 ⟨⟨b, hb⟩, hbefore⟩, hx⟩
        · cases h
    · rintro ⟨before, x, after, h, hbefore, hx⟩
      cases before with
      | nil =>
        cases h
        exact .inl hx
      | cons b before =>
        cases h
        obtain ⟨⟨y, hy⟩, hbefore⟩ := List.forall_mem_cons.1 hbefore
        exact .inr ⟨y, hy, outcome_bind_eq_error.2
          (.inl (ih.2 ⟨before, x, after, rfl, hbefore, hx⟩))⟩

/-- When a computation fails for items, it fails for one of them. -/
theorem Advised.exists_of_mapM_eq_error {α β : Type} {f : α → Advised β} {l : List α} {e : Fault}
    (h : (l.mapM f).outcome = .error e) : ∃ x ∈ l, (f x).outcome = .error e := by
  obtain ⟨before, x, after, rfl, -, hx⟩ := outcome_mapM_eq_error_iff.1 h
  exact ⟨x, List.mem_append_right before List.mem_cons_self, hx⟩

/-- When a computation succeeds for all items, it succeeds for each of them. -/
theorem Advised.exists_of_mapM_eq_ok {α β : Type} {f : α → Advised β} {l : List α} {r : List β}
    (h : (l.mapM f).outcome = .ok r) {x : α} (hx : x ∈ l) : ∃ y, (f x).outcome = .ok y := by
  have hall : List.Forall₂ (fun _ a => ∃ y, (f a).outcome = .ok y) r l :=
    (outcome_mapM_eq_ok_iff.1 h).flip.imp fun y _ hy => ⟨y, hy⟩
  exact forall_mem_right hall x hx

/-- What a first computation finds is found, whatever comes after it. -/
theorem Advised.findings_subset_bind {α β : Type} (x : Advised α) (f : α → Advised β) :
    x.findings ⊆ (x >>= f).findings := by
  cases h : x.outcome with
  | error e =>
    rw [bind_of_error h]
    exact List.Subset.refl _
  | ok a =>
    rw [bind_of_ok h]
    exact List.subset_append_left _ _

/-- When a computation succeeds for all items, each result comes from an item, and what was found on
the way to it is found. -/
theorem Advised.findings_subset_mapM {α β : Type} {f : α → Advised β} {l : List α} {r : List β}
    (h : (l.mapM f).outcome = .ok r) :
    ∀ y ∈ r, ∃ x ∈ l, (f x).outcome = .ok y ∧ (f x).findings ⊆ (l.mapM f).findings := by
  induction l generalizing r with
  | nil =>
    cases h
    simp
  | cons a l ih =>
    rw [List.mapM_cons] at h ⊢
    obtain ⟨b, hb, h⟩ := outcome_bind_eq_ok.1 h
    obtain ⟨r, hr, h⟩ := outcome_bind_eq_ok.1 h
    cases h
    refine List.forall_mem_cons.2
      ⟨⟨a, List.mem_cons_self, hb, findings_subset_bind _ _⟩, fun y hy => ?_⟩
    obtain ⟨x, hx, hxy, hfindings⟩ := ih hr y hy
    refine ⟨x, List.mem_cons_of_mem a hx, hxy, List.Subset.trans hfindings ?_⟩
    rw [bind_of_ok hb]
    exact List.Subset.trans (findings_subset_bind _ _) (List.subset_append_right _ _)

/-- What holds of the findings of both parts holds of all findings. -/
theorem Advised.forall_findings_bind {α β : Type} {P : Finding → Prop} {x : Advised α}
    {f : α → Advised β} (hx : ∀ y ∈ x.findings, P y) (hf : ∀ a, ∀ y ∈ (f a).findings, P y) :
    ∀ y ∈ (x >>= f).findings, P y := by
  cases h : x.outcome with
  | error e =>
    rw [bind_of_error h]
    exact hx
  | ok a =>
    rw [bind_of_ok h]
    exact List.forall_mem_append.2 ⟨hx, hf a⟩

theorem Advised.forall_findings_mapM {α β : Type} {P : Finding → Prop} {f : α → Advised β}
    (hf : ∀ a, ∀ y ∈ (f a).findings, P y) (l : List α) : ∀ y ∈ (l.mapM f).findings, P y := by
  induction l with
  | nil => exact nofun
  | cons a l ih =>
    rw [List.mapM_cons]
    exact forall_findings_bind (hf a) fun _ => forall_findings_bind ih fun _ => nofun

/-- A computation that succeeds for every item succeeds for all of them, and what is found for the
items is found in their order. -/
theorem Advised.mapM_of_ok {α β : Type} {f : α → Advised β} {g : α → List Finding} {v : α → β}
    (h : ∀ a, f a = ⟨g a, .ok (v a)⟩) (l : List α) :
    l.mapM f = ⟨l.flatMap g, .ok (l.map v)⟩ := by
  induction l with
  | nil => rfl
  | cons a l ih =>
    rw [List.mapM_cons, ih, h, List.flatMap_cons, List.map_cons]
    exact congrArg (Advised.mk · _) (congrArg (g a ++ ·) (List.append_nil _))

/-- A computation that does for other items what a first one does for some comes to the same for all of
them. -/
theorem Advised.mapM_map_of_ok {α β γ δ : Type} {f : α → Advised β} {f' : γ → Advised δ} {g : α → γ}
    {h : β → δ} {l : List α} {r : List β} (hr : (l.mapM f).outcome = .ok r)
    (hf : ∀ a b, (f a).outcome = .ok b → f' (g a) = ⟨(f a).findings, .ok (h b)⟩) :
    (l.map g).mapM f' = ⟨(l.mapM f).findings, .ok (r.map h)⟩ := by
  induction l generalizing r with
  | nil =>
    cases hr
    rfl
  | cons a l ih =>
    rw [List.mapM_cons] at hr ⊢
    obtain ⟨b, hb, hr⟩ := outcome_bind_eq_ok.1 hr
    obtain ⟨r', hr', hr⟩ := outcome_bind_eq_ok.1 hr
    cases hr
    rw [List.map_cons, List.mapM_cons, hf a b hb, ih hr', bind_of_ok hb, bind_of_ok hr']
    rfl

/-! ## Values without findings -/

section Values

variable {α β : Type}

/-- What a computation comes to, if it succeeds. -/
def Advised.value? (x : Advised α) : Option α := x.outcome.toOption

namespace Advised

theorem value?_eq_some {x : Advised α} {a : α} : x.value? = some a ↔ x.outcome = .ok a := by
  unfold value?
  cases x.outcome <;> simp [Except.toOption]

@[simp] theorem value?_pure (a : α) : (pure a : Advised α).value? = some a := rfl

@[simp] theorem value?_bind (x : Advised α) (f : α → Advised β) :
    (x >>= f).value? = x.value?.bind fun a => (f a).value? := by
  cases h : x.outcome with
  | error e => simp [value?, bind_of_error h, h, Except.toOption]
  | ok a => simp [value?, bind_of_ok h, h, Except.toOption]

@[simp] theorem value?_ofExcept (x : Except Fault α) : (ofExcept x).value? = x.toOption := rfl

@[simp] theorem value?_noteIf (c : Prop) [Decidable c] (f : Finding) :
    (noteIf c f).value? = some () := by
  unfold noteIf
  split <;> rfl

end Advised

end Values

end Schemata
