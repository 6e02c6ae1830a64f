import Schemata.Notation.Setting
import Schemata.Proofs.Text.Lines

/-!
# What the scanners leave alone

Three scanners pass over a text of the notation before anything in it is recognised: comments are
blanked, the text is cut into lines, and lists of settings are cut at their commas. `Verbatim` and
`Whole` say of a piece of text that the first and the last of them leave it in one piece wherever it
stands outside quotes; quoted pieces are of this sort as soon as their inside is `sealed`, which
means that no mark in it ends the quote early.
-/

namespace Schemata.Notation

open Text

/-! ## The inside of quotes -/

/-- A text that stays between two marks `q`: each `q` in it stands behind a backslash, and no
backslash at its end takes the closing mark along. -/
def isSealed (q : Char) : List Char → Bool
  | [] => true
  | ['\\'] => false
  | '\\' :: _ :: r => isSealed q r
  | c :: r => c != q && isSealed q r

theorem isSealed_cons {q c : Char} (hc : c ≠ '\\') (r : List Char) :
    isSealed q (c :: r) = (c != q && isSealed q r) := by
  rw [isSealed]
  · exact fun h => absurd h hc
  · exact fun d t h => absurd h hc

theorem isSealed_of_forall {q : Char} {s : List Char} (h : ∀ c ∈ s, c ≠ q ∧ c ≠ '\\') :
    isSealed q s = true := by
  induction s with
  | nil => rfl
  | cons c r ih =>
    have hc := h c (by simp)
    rw [isSealed_cons hc.2, ih fun d hd => h d (by simp [hd])]
    simpa using hc.1

/-- What `escape` writes stays between its marks. -/
theorem isSealed_escape (q : Char) (s : List Char) :
    isSealed q (escape q s) = true := by
  induction s with
  | nil => rfl
  | cons c r ih =>
    rw [escape]
    split_ifs with h₁ h₂ h₃
    · simpa [isSealed] using ih
    · simpa [isSealed] using ih
    · simpa [isSealed] using ih
    · rw [isSealed_cons h₁, ih]
      simpa using h₂

theorem blankFrom_quoted {q : Char} (hq : q ≠ '\\') {s : List Char} (h : isSealed q s = true)
    (r : List Char) : blankFrom (.quoted q) (s ++ q :: r) = s ++ q :: blankFrom .code r := by
  fun_induction isSealed q s with
  | case1 =>
    rw [List.nil_append, blankFrom]
    · simp
    · exact fun c t hq' => absurd hq' hq
  | case2 => simp at h
  | case3 c s ih => simp [blankFrom, ih h]
  | case4 c s hc₁ hc₂ ih =>
    have hc := ne_backslash hc₁ hc₂
    simp only [Bool.and_eq_true, bne_iff_ne, ne_eq] at h
    rw [List.cons_append, blankFrom]
    · rw [if_neg h.1, ih h.2, List.cons_append]
    · exact fun d t hc' => absurd hc' hc

/-! ## Comments -/

/-- A piece of text in which no comment starts, and which ends outside quotes if it starts there. -/
def Verbatim (s : List Char) : Prop := ∀ r, blankFrom .code (s ++ r) = s ++ blankFrom .code r

namespace Verbatim

theorem nil : Verbatim [] := fun _ => rfl

theorem append {s t : List Char} (hs : Verbatim s) (ht : Verbatim t) : Verbatim (s ++ t) := by
  intro r
  rw [List.append_assoc, hs, ht, List.append_assoc]

theorem of_forall {s : List Char} (h : ∀ c ∈ s, isQuote c = false ∧ c ≠ '/') : Verbatim s := by
  intro r
  induction s with
  | nil => rfl
  | cons c t ih =>
    have hc := h c (by simp)
    rw [List.cons_append, blankFrom]
    · rw [hc.1, if_neg (by simp), ih fun d hd => h d (by simp [hd]), List.cons_append]
    · exact fun d hc' => absurd hc' hc.2
    · exact fun d hc' => absurd hc' hc.2

theorem enclose {q : Char} (hq : isQuote q = true) {s : List Char} (h : isSealed q s = true) :
    Verbatim (Text.enclose q q s) := by
  have hne : q ≠ '\\' ∧ q ≠ '/' := by
    constructor <;> (rintro rfl; simp [isQuote] at hq)
  intro r
  have step : blankFrom .code (q :: (s ++ q :: r)) = q :: blankFrom (.quoted q) (s ++ q :: r) := by
    rw [blankFrom]
    · rw [if_pos hq]
    · exact fun d hc' => absurd hc' hne.2
    · exact fun d hc' => absurd hc' hne.2
  simp [Text.enclose, step, blankFrom_quoted hne.1 h]

end Verbatim

/-- Blanking leaves a text alone that is `Verbatim`. -/
theorem blankComments_of_verbatim {s : List Char} (h : Verbatim s) : blankComments s = s := by
  simpa [blankComments, blankFrom] using h []

/-! ## Lists of settings -/

/-- Puts a text in front of the first of some pieces. -/
def prependAll (s : List Char) (pieces : List (List Char)) : List (List Char) :=
  s.foldr consHead pieces

theorem prependAll_cons (s l : List Char) (ls : List (List Char)) :
    prependAll s (l :: ls) = (s ++ l) :: ls := by
  induction s with
  | nil => rfl
  | cons c r ih => rw [prependAll, List.foldr_cons, ← prependAll, ih]; rfl

theorem prependAll_append (s t : List Char) (ls : List (List Char)) :
    prependAll (s ++ t) ls = prependAll s (prependAll t ls) := List.foldr_append

theorem flatten_consHead (c : Char) (ls : List (List Char)) :
    (consHead c ls).flatten = c :: ls.flatten := by
  cases ls <;> rfl

theorem flatten_prependAll (s : List Char) (ls : List (List Char)) :
    (prependAll s ls).flatten = s ++ ls.flatten := by
  induction s with
  | nil => rfl
  | cons c r ih => rw [prependAll, List.foldr_cons, ← prependAll, flatten_consHead, ih]; rfl

theorem settingPieces_quoted {q : Char} (hq : q ≠ '\\') {s : List Char} (h : isSealed q s = true)
    (depth : Int) (r : List Char) :
    settingPieces (some q) depth (s ++ q :: r) =
      prependAll (s ++ [q]) (settingPieces none depth r) := by
  fun_induction isSealed q s with
  | case1 =>
    rw [List.nil_append, settingPieces]
    · simp [prependAll]
    · exact fun hq' => absurd hq' hq
    · exact fun c t hq' => absurd hq' hq
  | case2 => simp at h
  | case3 c s ih => simp [settingPieces, prependAll, ih h]
  | case4 c s hc₁ hc₂ ih =>
    have hc := ne_backslash hc₁ hc₂
    simp only [Bool.and_eq_true, bne_iff_ne, ne_eq] at h
    rw [List.cons_append, settingPieces]
    · rw [if_neg h.1, ih h.2]
      rfl
    · exact fun hc' => absurd hc' hc
    · exact fun d t hc' => absurd hc' hc

/-- A piece of text without a comma outside quotes and brackets, its quotes and brackets closed. -/
def Whole (s : List Char) : Prop :=
  ∀ depth r, settingPieces none depth (s ++ r) = prependAll s (settingPieces none depth r)

namespace Whole

theorem append {s t : List Char} (hs : Whole s) (ht : Whole t) : Whole (s ++ t) := by
  intro depth r
  rw [List.append_assoc, hs, ht, prependAll_append]

theorem of_forall {s : List Char}
    (h : ∀ c ∈ s, isQuote c = false ∧ c ∉ ['(', ')', '[', ']', ',']) : Whole s := by
  intro depth r
  induction s with
  | nil => rfl
  | cons c t ih =>
    obtain ⟨hquote, hmark⟩ := h c (by simp)
    simp only [List.mem_cons, List.not_mem_nil, or_false, not_or] at hmark
    obtain ⟨h₁, h₂, h₃, h₄, h₅⟩ := hmark
    rw [List.cons_append, settingPieces, hquote]
    simp only [Bool.false_eq_true, if_false, h₁, h₂, h₃, h₄, h₅, or_self, false_and]
    rw [ih fun d hd => h d (by simp [hd])]
    rfl

theorem enclose {q : Char} (hq : isQuote q = true) {s : List Char} (h : isSealed q s = true) :
    Whole (Text.enclose q q s) := by
  have hne : q ≠ '\\' := by rintro rfl; simp [isQuote] at hq
  intro depth r
  rw [Text.enclose, List.cons_append, settingPieces, if_pos hq, List.append_assoc,
    List.singleton_append, settingPieces_quoted hne h]
  rfl

end Whole

/-- A setting as it stands in a list: in one piece, and without blanks at its ends. -/
structure IsSetting (s : List Char) : Prop where
  whole : Whole s
  strip_eq : strip s = s
  ne_nil : s ≠ []

theorem settingPieces_intercalate {items : List (List Char)} (h : ∀ i ∈ items, Whole i)
    (hne : items ≠ []) :
    ∃ rest, settingPieces none 0 ([',', ' '].intercalate items) = items.head hne :: rest ∧
      rest = items.tail.map (' ' :: ·) := by
  induction items with
  | nil => exact absurd rfl hne
  | cons i items ih =>
    cases items with
    | nil =>
      refine ⟨[], ?_, rfl⟩
      have := h i (by simp) 0 []
      simpa [settingPieces, prependAll_cons] using this
    | cons j items =>
      obtain ⟨rest, hrest, rfl⟩ := ih (fun k hk => h k (by simp [hk])) (by simp)
      refine ⟨_, ?_, rfl⟩
      rw [List.intercalate_cons_cons, List.append_assoc, h i (by simp)]
      have comma : ∀ r, settingPieces none 0 (',' :: r) = [] :: settingPieces none 0 r := fun r => by
        rw [settingPieces]
        rfl
      have space : ∀ r, settingPieces none 0 (' ' :: r) = consHead ' ' (settingPieces none 0 r) :=
        fun r => by
          rw [settingPieces]
          rfl
      simp only [List.cons_append, List.nil_append, comma, space, hrest, prependAll_cons,
        List.append_nil]
      rfl

/-- The items of a list come back from the list. -/
theorem splitSettings_intercalate {items : List (List Char)} (h : ∀ i ∈ items, IsSetting i) :
    splitSettings ([',', ' '].intercalate items) = items := by
  cases items with
  | nil => rfl
  | cons i rest =>
    obtain ⟨_, hpieces, rfl⟩ := settingPieces_intercalate (fun j hj => (h j hj).whole)
      (List.cons_ne_nil i rest)
    have hstrip : ∀ j ∈ i :: rest, strip j = j := fun j hj => (h j hj).strip_eq
    have hmap : (List.map (' ' :: ·) rest).map strip = rest := by
      rw [List.map_map]
      calc rest.map (strip ∘ (' ' :: ·)) = rest.map id :=
            List.map_congr_left fun j hj => hstrip j (by simp [hj])
        _ = rest := List.map_id rest
    rw [splitSettings, hpieces, List.map_cons, List.head_cons, List.tail_cons, hstrip i (by simp),
      hmap]
    exact List.filter_eq_self.2 fun j hj => by simpa using (h j hj).ne_nil

end Schemata.Notation
