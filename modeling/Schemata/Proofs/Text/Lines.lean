import Mathlib.Tactic.Common
import Schemata.Text.Lines

/-!
# Cutting texts into lines

What the lines of a text have to do with those of its parts. A line feed in the middle of a text ends
a line (`lines_append_cons`), and so does a boundary at the end of the first part
(`lines_append_of_complete`); elsewhere the last line of the one part and the first of the other are one
line (`exists_lines_append`).
-/

namespace Schemata.Text

/-! ## Facts about all characters of a text

They are decided on the text, and not on the set of all characters. -/

instance (priority := 2000) decidableForallMemList {s : List Char} {p : Char → Prop}
    [DecidablePred p] : Decidable (∀ c ∈ s, p c) := List.decidableBAll p s

instance (priority := 2000) decidableForallMemOption {o : Option Char} {p : Char → Prop}
    [DecidablePred p] : Decidable (∀ c ∈ o, p c) := Option.decidableForallMem o

/-! ## Lines of two parts -/

theorem lines_newline (r : List Char) : lines ('\n' :: r) = [] :: lines r := by
  rw [lines]
  · rfl
  · exact fun t h => absurd h (by decide)

theorem lines_cons_of_not_break {c : Char} (hc : isLineBreak c = false) (r : List Char) :
    lines (c :: r) = consHead c (lines r) := by
  rw [lines]
  · rw [hc, if_neg (by simp)]
  · rintro t rfl
    simp [isLineBreak] at hc

/-- A text without boundaries and the line feed behind it are one line. -/
theorem lines_append_newline {s : List Char} (hs : ∀ c ∈ s, isLineBreak c = false)
    (r : List Char) : lines (s ++ '\n' :: r) = s :: lines r := by
  induction s with
  | nil => exact lines_newline r
  | cons c t ih =>
    rw [List.cons_append, lines_cons_of_not_break (hs c (by simp)), ih fun d hd => hs d (by simp [hd])]
    rfl

theorem lines_cons {c : Char} {s : List Char} (h : ¬(c = '\r' ∧ s.head? = some '\n')) :
    lines (c :: s) = if isLineBreak c then [] :: lines s else consHead c (lines s) := by
  rw [lines]
  rintro r rfl rfl
  exact h ⟨rfl, rfl⟩

theorem lines_ne_nil {s : List Char} (h : s ≠ []) : lines s ≠ [] := by
  fun_cases lines s with
  | case1 => exact absurd rfl h
  | case2 r => exact List.cons_ne_nil _ _
  | case3 c r hc hb => exact List.cons_ne_nil _ _
  | case4 c r hc hb =>
    cases lines r with
    | nil => exact List.cons_ne_nil _ _
    | cons l ls => exact List.cons_ne_nil _ _

theorem consHead_append {c : Char} {l : List (List Char)} (h : l ≠ []) (m : List (List Char)) :
    consHead c (l ++ m) = consHead c l ++ m := by
  obtain ⟨x, xs, rfl⟩ := List.exists_cons_of_ne_nil h
  rfl

/-- A line feed in the middle of a text ends a line. -/
theorem lines_append_cons (s r : List Char) :
    lines (s ++ '\n' :: r) = lines (s ++ ['\n']) ++ lines r := by
  induction s using lines.induct with
  | case1 => simp [lines_newline, lines]
  | case2 s ih => simp [lines, ih]
  | case3 c s hc hb ih =>
    by_cases hs : c = '\r' ∧ s = []
    · obtain ⟨rfl, rfl⟩ := hs
      simp [lines]
    · have hcons : ∀ t, lines (c :: (s ++ '\n' :: t)) = [] :: lines (s ++ '\n' :: t) := fun t => by
        rw [lines_cons, if_pos hb]
        rintro ⟨rfl, hhead⟩
        cases s with
        | nil => exact hs ⟨rfl, rfl⟩
        | cons d s =>
          obtain rfl : d = '\n' := by simpa using hhead
          exact hc s rfl rfl
      rw [List.cons_append, List.cons_append, hcons, hcons [], ih]
      rfl
  | case4 c s hc hb ih =>
    have hcons : ∀ t, lines (c :: (s ++ '\n' :: t)) = consHead c (lines (s ++ '\n' :: t)) :=
      fun t => by
        rw [lines_cons, if_neg hb]
        rintro ⟨rfl, -⟩
        exact hb (by decide)
    rw [List.cons_append, List.cons_append, hcons, hcons [], ih,
      consHead_append (lines_ne_nil (by simp))]

theorem no_break_of_mem_lines {s l : List Char} (hl : l ∈ lines s) :
    ∀ c ∈ l, isLineBreak c = false := by
  induction s using lines.induct generalizing l with
  | case1 => cases hl
  | case2 s ih =>
    rw [lines] at hl
    rcases List.mem_cons.1 hl with rfl | hl
    · simp
    · exact ih hl
  | case3 c s hc hb ih =>
    rw [lines, if_pos hb] at hl
    · rcases List.mem_cons.1 hl with rfl | hl
      · simp
      · exact ih hl
    · exact hc
  | case4 c s hc hb ih =>
    have hb : isLineBreak c = false := by simpa using hb
    rw [lines_cons_of_not_break hb] at hl
    cases hrest : lines s with
    | nil =>
      rw [hrest] at hl
      obtain rfl := List.mem_singleton.1 hl
      simpa using hb
    | cons k ks =>
      rw [hrest] at hl
      rcases List.mem_cons.1 hl with rfl | hl
      · exact List.forall_mem_cons.2 ⟨hb, ih (hrest ▸ List.mem_cons_self)⟩
      · exact ih (hrest ▸ List.mem_cons_of_mem k hl)

/-- A text without boundaries goes to the first line of what stands behind it. -/
theorem lines_append_of_no_break {p s l : List Char} {ls : List (List Char)}
    (hp : ∀ c ∈ p, isLineBreak c = false) (hs : lines s = l :: ls) :
    lines (p ++ s) = (p ++ l) :: ls := by
  induction p with
  | nil => exact hs
  | cons c p ih =>
    rw [List.cons_append, lines_cons_of_not_break (hp c (by simp)), ih fun d hd => hp d (by simp [hd])]
    rfl

/-- The last line of a text goes on in what stands behind it, whatever that is, unless a line feed
could complete a boundary there. -/
theorem exists_lines_append (s : List Char) {c : Char} (hc : c ≠ '\n') :
    ∃ before last, ∀ r l ls, lines (c :: r) = l :: ls →
      lines (s ++ c :: r) = before ++ (last ++ l) :: ls := by
  induction s using lines.induct with
  | case1 => exact ⟨[], [], fun r l ls h => h⟩
  | case2 s ih =>
    obtain ⟨before, last, h⟩ := ih
    refine ⟨[] :: before, last, fun r l ls hr => ?_⟩
    rw [List.cons_append, List.cons_append, lines, h r l ls hr]
    rfl
  | case3 d s hd hb ih =>
    obtain ⟨before, last, h⟩ := ih
    refine ⟨[] :: before, last, fun r l ls hr => ?_⟩
    rw [List.cons_append, lines_cons, if_pos hb, h r l ls hr]
    · rfl
    · rintro ⟨rfl, hhead⟩
      cases s with
      | nil => exact hc (by simpa using hhead)
      | cons x s =>
        obtain rfl : x = '\n' := by simpa using hhead
        exact hd s rfl rfl
  | case4 d s hd hb ih =>
    obtain ⟨before, last, h⟩ := ih
    have hb : isLineBreak d = false := by simpa using hb
    cases before with
    | nil =>
      refine ⟨[], d :: last, fun r l ls hr => ?_⟩
      rw [List.cons_append, lines_cons_of_not_break hb, h r l ls hr]
      rfl
    | cons b before =>
      refine ⟨(d :: b) :: before, last, fun r l ls hr => ?_⟩
      rw [List.cons_append, lines_cons_of_not_break hb, h r l ls hr]
      rfl

/-- Behind a text that ends with a boundary, the lines of what follows are added to its own. Only a
carriage return at its end makes one boundary with a line feed that follows. -/
theorem lines_append_of_complete {s : List Char} (hs : ∀ c ∈ s.getLast?, isLineBreak c = true)
    (r : List Char) : lines (s ++ r) = lines s ++ lines r ∨
      ∃ r', r = '\n' :: r' ∧ lines (s ++ r) = lines s ++ lines r' := by
  induction s using lines.induct with
  | case1 => exact .inl rfl
  | case2 s ih =>
    have hs' : ∀ c ∈ s.getLast?, isLineBreak c = true := by
      cases s with
      | nil => simp
      | cons d s => exact hs
    rw [List.cons_append, List.cons_append, lines, lines]
    rcases ih hs' with h | ⟨r', rfl, h⟩
    · exact .inl (congrArg _ h)
    · exact .inr ⟨r', rfl, congrArg _ h⟩
  | case3 c s hc hb ih =>
    cases s with
    | nil =>
      by_cases hr : c = '\r' ∧ r.head? = some '\n'
      · obtain ⟨rfl, hr⟩ := hr
        cases r with
        | nil => cases hr
        | cons d r =>
          obtain rfl := Option.some.inj hr
          refine .inr ⟨r, rfl, ?_⟩
          simp [lines, isLineBreak]
      · left
        rw [List.singleton_append, lines_cons hr, if_pos hb, lines_cons (by simp), if_pos hb]
        rfl
    | cons d s =>
      have hcons : ∀ t, lines (c :: d :: t) = [] :: lines (d :: t) := fun t => by
        rw [lines_cons, if_pos hb]
        rintro ⟨rfl, hd⟩
        exact hc s rfl (congrArg (· :: s) (Option.some.inj hd))
      rw [List.cons_append, List.cons_append, hcons, hcons]
      rcases ih hs with h | ⟨r', rfl, h⟩
      · exact .inl (congrArg _ h)
      · exact .inr ⟨r', rfl, congrArg _ h⟩
  | case4 c s hc hb ih =>
    have hb' : isLineBreak c = false := by simpa using hb
    cases s with
    | nil => exact absurd (hs c rfl) hb
    | cons d s =>
      rw [List.cons_append, lines_cons_of_not_break hb', lines_cons_of_not_break hb',
        ← consHead_append (lines_ne_nil (List.cons_ne_nil d s))]
      rcases ih hs with h | ⟨r', rfl, h⟩
      · exact .inl (congrArg _ h)
      · refine .inr ⟨r', rfl, ?_⟩
        rw [h, consHead_append (lines_ne_nil (List.cons_ne_nil d s))]

/-- A line feed at the end of a text adds at most an empty line. -/
theorem lines_append_newline_end (s : List Char) :
    lines (s ++ ['\n']) = lines s ∨ lines (s ++ ['\n']) = lines s ++ [[]] := by
  induction s using lines.induct with
  | case1 => exact .inr rfl
  | case2 s ih =>
    rw [List.cons_append, List.cons_append, lines, lines, List.cons_append, List.cons.injEq,
      List.cons.injEq]
    exact ih.imp (⟨rfl, ·⟩) (⟨rfl, ·⟩)
  | case3 c s hc hb ih =>
    by_cases hs : c = '\r' ∧ s = []
    · obtain ⟨rfl, rfl⟩ := hs
      exact .inl (by simp [lines, isLineBreak])
    · have hnext : ¬(c = '\r' ∧ s.head? = some '\n') := by
        rintro ⟨rfl, hhead⟩
        obtain ⟨t, rfl⟩ := List.head?_eq_some_iff.1 hhead
        exact hc t rfl rfl
      have hnext' : ¬(c = '\r' ∧ (s ++ ['\n']).head? = some '\n') := by
        cases s with
        | nil => exact fun h => hs ⟨h.1, rfl⟩
        | cons d s => exact hnext
      rw [List.cons_append, lines_cons hnext', lines_cons hnext, if_pos hb, if_pos hb,
        List.cons_append, List.cons.injEq, List.cons.injEq]
      exact ih.imp (⟨rfl, ·⟩) (⟨rfl, ·⟩)
  | case4 c s hc hb ih =>
    have hb : isLineBreak c = false := by simpa using hb
    rw [List.cons_append, lines_cons_of_not_break hb, lines_cons_of_not_break hb]
    cases s with
    | nil => exact .inl rfl
    | cons d s =>
      rw [← consHead_append (lines_ne_nil (List.cons_ne_nil d s))]
      exact ih.imp (congrArg _) (congrArg _)

end Schemata.Text
