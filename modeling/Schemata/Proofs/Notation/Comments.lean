import Mathlib.Data.List.Forall2
import Mathlib.Data.List.Infix
import Mathlib.Data.List.TakeWhile
import Schemata.Notation.Builder
import Schemata.Proofs.Notation.Scan

/-!
# Comments as blanks

A text is a row of pieces: characters of the code, texts in quotes, and comments (`Cut`). Every text can
be cut into pieces (`exists_cut`), and blanking writes spaces over those that are comments and leaves the
others as they are (`Cut.blankFrom_eq`). Character by character it keeps what is there or writes a space
over it, and never over a line feed (`forall₂_blankFrom`). So it moves no line, as long as every carriage
return has its line feed behind it (`forall₂_lines`). What it leaves has no comments any more
(`blankFrom_blankFrom`): a space opens nothing, and no two characters stand side by side that did not
before. So a text with its comments blanked is read as the text itself (`blankComments_faithful`).
-/

namespace Schemata.Notation

open Text

/-! ## Pieces of a text -/

/-- What is written over a character of a comment. -/
def blankOver (c : Char) : Char := if c = '\n' then '\n' else ' '

/-- A piece of a text: a character outside quotes and comments, a text in quotes, or a comment. -/
inductive Piece
  | code (c : Char)
  | quoted (s : List Char)
  | comment (s : List Char)
  deriving DecidableEq

namespace Piece

def chars : Piece → List Char
  | code c => [c]
  | quoted s | comment s => s

/-- The piece as it is without comments. -/
def blanked : Piece → List Char
  | code c => [c]
  | quoted s => s
  | comment s => s.map blankOver

end Piece

/-- The pieces that a text consists of. A line comment ends in front of a line feed and a block comment
at the first mark that ends one; quotes and comments that are not ended reach to the end of the text. -/
inductive Cut : List Char → List Piece → Prop
  | nil : Cut [] []
  | code {c : Char} {r : List Char} {ps : List Piece} (hquote : isQuote c = false)
      (hline : ¬['/', '/'] <+: c :: r) (hblock : ¬['/', '*'] <+: c :: r) (hr : Cut r ps) :
      Cut (c :: r) (.code c :: ps)
  | quoted {q : Char} {s r : List Char} {ps : List Piece} (hquote : isQuote q = true)
      (hsealed : isSealed q s = true) (hr : Cut r ps) :
      Cut (q :: (s ++ q :: r)) (.quoted (q :: (s ++ [q])) :: ps)
  | unclosed {q : Char} {s e : List Char} (hquote : isQuote q = true)
      (hsealed : isSealed q s = true) (hend : e = [] ∨ e = ['\\']) :
      Cut (q :: (s ++ e)) [.quoted (q :: (s ++ e))]
  | lineComment {s r : List Char} {ps : List Piece} (hline : '\n' ∉ s)
      (hend : ∀ c ∈ r.head?, c = '\n') (hr : Cut r ps) :
      Cut ('/' :: '/' :: (s ++ r)) (.comment ('/' :: '/' :: s) :: ps)
  | blockComment {s r : List Char} {ps : List Piece} (hopen : ¬['*', '/'] <:+: s) (hr : Cut r ps) :
      Cut ('/' :: '*' :: (s ++ '*' :: '/' :: r)) (.comment ('/' :: '*' :: (s ++ ['*', '/'])) :: ps)
  | unended {s : List Char} (hopen : ¬['*', '/'] <:+: s) :
      Cut ('/' :: '*' :: s) [.comment ('/' :: '*' :: s)]

theorem Cut.flatMap_chars {s : List Char} {ps : List Piece} (h : Cut s ps) :
    ps.flatMap Piece.chars = s := by
  induction h with
  | nil => rfl
  | code _ _ _ _ ih => rw [List.flatMap_cons, ih]; rfl
  | quoted _ _ _ ih => simp [List.flatMap_cons, ih, Piece.chars]
  | unclosed => simp [Piece.chars]
  | lineComment _ _ _ ih => simp [List.flatMap_cons, ih, Piece.chars]
  | blockComment _ _ ih => simp [List.flatMap_cons, ih, Piece.chars]
  | unended => simp [Piece.chars]

/-! ## Blanking, piece by piece -/

theorem blankFrom_code_cons {c : Char} {r : List Char} (hline : ¬['/', '/'] <+: c :: r)
    (hblock : ¬['/', '*'] <+: c :: r) :
    blankFrom .code (c :: r) = c :: blankFrom (if isQuote c then .quoted c else .code) r := by
  rw [blankFrom]
  · rintro t rfl rfl
    exact hline (List.prefix_append ['/', '/'] t)
  · rintro t rfl rfl
    exact hblock (List.prefix_append ['/', '*'] t)

theorem blankFrom_unclosed {q : Char} {s e : List Char} (hs : isSealed q s = true)
    (he : e = [] ∨ e = ['\\']) : blankFrom (.quoted q) (s ++ e) = s ++ e := by
  fun_induction isSealed q s with
  | case1 => rcases he with rfl | rfl <;> simp [blankFrom]
  | case2 => simp at hs
  | case3 c s ih => simp [blankFrom, ih hs]
  | case4 c s hc₁ hc₂ ih =>
    have hc := ne_backslash hc₁ hc₂
    simp only [Bool.and_eq_true, bne_iff_ne, ne_eq] at hs
    rw [List.cons_append, blankFrom]
    · rw [if_neg hs.1, ih hs.2]
    · exact fun d t hc' => absurd hc' hc

theorem blankFrom_lineComment {s r : List Char} (hs : '\n' ∉ s) (hr : ∀ c ∈ r.head?, c = '\n') :
    blankFrom .lineComment (s ++ r) = s.map blankOver ++ blankFrom .code r := by
  induction s with
  | nil =>
    cases r with
    | nil => rfl
    | cons c r =>
      obtain rfl : c = '\n' := hr c rfl
      simp [blankFrom, isQuote]
  | cons c s ih =>
    obtain ⟨hc, hs⟩ : c ≠ '\n' ∧ '\n' ∉ s := by
      simpa [eq_comm] using hs
    rw [List.cons_append, blankFrom]
    · rw [ih hs, List.map_cons, blankOver, if_neg hc, List.cons_append]
    · exact hc

/-- In a block comment characters are blanked one by one up to the mark that ends it. -/
theorem blankFrom_blockComment_cons {c : Char} {r : List Char} (h : ¬['*', '/'] <+: c :: r) :
    blankFrom .blockComment (c :: r) = blankOver c :: blankFrom .blockComment r := by
  by_cases hc : c = '\n'
  · subst hc
    simp [blankFrom, blankOver]
  · rw [blankFrom, blankOver, if_neg hc]
    · rintro t rfl rfl
      exact h (List.prefix_append ['*', '/'] t)
    · exact hc

theorem blankFrom_unended {s : List Char} (hs : ¬['*', '/'] <:+: s) :
    blankFrom .blockComment s = s.map blankOver := by
  induction s with
  | nil => rfl
  | cons c s ih =>
    rw [List.infix_cons_iff, not_or] at hs
    rw [blankFrom_blockComment_cons hs.1, ih hs.2, List.map_cons]

theorem blankFrom_blockComment {s : List Char} (hs : ¬['*', '/'] <:+: s) (r : List Char) :
    blankFrom .blockComment (s ++ '*' :: '/' :: r) =
      (s ++ ['*', '/']).map blankOver ++ blankFrom .code r := by
  induction s with
  | nil => simp [blankFrom, blankOver]
  | cons c s ih =>
    rw [List.infix_cons_iff, not_or] at hs
    have hopen : ¬['*', '/'] <+: c :: (s ++ '*' :: '/' :: r) := by
      cases s with
      | nil => simp
      | cons d s => simpa using hs.1
    rw [List.cons_append, blankFrom_blockComment_cons hopen, ih hs.2]
    rfl

/-- Blanking writes spaces over the comments of a text, and leaves its other pieces as they are. -/
theorem Cut.blankFrom_eq {s : List Char} {ps : List Piece} (h : Cut s ps) :
    blankFrom .code s = ps.flatMap Piece.blanked := by
  have hmark : ∀ {q : Char}, isQuote q = true → q ≠ '\\' ∧ ∀ a r, ¬['/', a] <+: q :: r := by
    intro q hq
    refine ⟨fun h => by simp [h, isQuote] at hq, fun a r hopen => ?_⟩
    obtain rfl : '/' = q := (List.cons_prefix_cons.1 hopen).1
    simp [isQuote] at hq
  induction h with
  | nil => rfl
  | code hquote hline hblock _ ih =>
    rw [blankFrom_code_cons hline hblock, hquote, if_neg Bool.false_ne_true, ih, List.flatMap_cons]
    rfl
  | quoted hquote hsealed _ ih =>
    obtain ⟨hq, hopen⟩ := hmark hquote
    rw [blankFrom_code_cons (hopen _ _) (hopen _ _), if_pos hquote, blankFrom_quoted hq hsealed, ih,
      List.flatMap_cons]
    simp [Piece.blanked]
  | unclosed hquote hsealed hend =>
    obtain ⟨-, hopen⟩ := hmark hquote
    rw [blankFrom_code_cons (hopen _ _) (hopen _ _), if_pos hquote, blankFrom_unclosed hsealed hend]
    simp [Piece.blanked]
  | lineComment hline hend _ ih =>
    rw [blankFrom, blankFrom_lineComment hline hend, ih, List.flatMap_cons]
    rfl
  | blockComment hopen _ ih =>
    rw [blankFrom, blankFrom_blockComment hopen, ih, List.flatMap_cons]
    rfl
  | unended hopen =>
    rw [blankFrom, blankFrom_unended hopen]
    simp [Piece.blanked, blankOver]

/-! ## Every text has pieces -/

/-- Behind an opening quote stands a closing one, or the quotes reach to the end. -/
theorem exists_sealed (q : Char) (s : List Char) :
    (∃ t r, s = t ++ q :: r ∧ isSealed q t = true) ∨
      ∃ t e, s = t ++ e ∧ isSealed q t = true ∧ (e = [] ∨ e = ['\\']) := by
  fun_induction isSealed q s with
  | case1 => exact .inr ⟨[], [], rfl, rfl, .inl rfl⟩
  | case2 => exact .inr ⟨[], ['\\'], rfl, rfl, .inr rfl⟩
  | case3 c s ih =>
    obtain ⟨t, r, rfl, ht⟩ | ⟨t, e, rfl, ht, he⟩ := ih
    · exact .inl ⟨'\\' :: c :: t, r, rfl, ht⟩
    · exact .inr ⟨'\\' :: c :: t, e, rfl, ht, he⟩
  | case4 c s hc₁ hc₂ ih =>
    have hc := ne_backslash hc₁ hc₂
    by_cases hq : c = q
    · exact .inl ⟨[], s, by rw [hq]; rfl, rfl⟩
    · have hcons : ∀ t, isSealed q t = true → isSealed q (c :: t) = true := fun t ht => by
        rw [isSealed_cons hc, ht, Bool.and_true, bne_iff_ne]
        exact hq
      obtain ⟨t, r, rfl, ht⟩ | ⟨t, e, rfl, ht, he⟩ := ih
      · exact .inl ⟨c :: t, r, rfl, hcons t ht⟩
      · exact .inr ⟨c :: t, e, rfl, hcons t ht, he⟩

/-- What stands in a text stands somewhere in it for the first time. -/
theorem exists_first_infix {a b : Char} {s : List Char} (h : [a, b] <:+: s) :
    ∃ t r, s = t ++ a :: b :: r ∧ ¬[a, b] <:+: t := by
  induction s with
  | nil => simp at h
  | cons c s ih =>
    by_cases hfirst : [a, b] <+: c :: s
    · obtain ⟨r, hr⟩ := hfirst
      exact ⟨[], r, hr.symm, by simp⟩
    · obtain ⟨t, r, rfl, ht⟩ := ih ((List.infix_cons_iff.1 h).resolve_left hfirst)
      refine ⟨c :: t, r, rfl, fun hinfix => ?_⟩
      rcases List.infix_cons_iff.1 hinfix with hstart | hinfix
      · exact hfirst (hstart.trans (List.prefix_append (c :: t) _))
      · exact ht hinfix

theorem exists_cut (s : List Char) : ∃ ps, Cut s ps := by
  obtain ⟨n, hn⟩ : ∃ n, s.length ≤ n := ⟨_, Nat.le_refl _⟩
  induction n generalizing s with
  | zero =>
    obtain rfl := List.length_eq_zero_iff.1 (Nat.le_zero.1 hn)
    exact ⟨[], .nil⟩
  | succ n ih =>
    have hrest : ∀ r : List Char, r.length < s.length → ∃ ps, Cut r ps := fun r hr => ih r (by omega)
    cases s with
    | nil => exact ⟨[], .nil⟩
    | cons c r =>
      cases hquote : isQuote c with
      | true =>
        obtain ⟨t, r, rfl, ht⟩ | ⟨t, e, rfl, ht, he⟩ := exists_sealed c r
        · obtain ⟨ps, hps⟩ := hrest r (by simp; omega)
          exact ⟨_, .quoted hquote ht hps⟩
        · exact ⟨_, .unclosed hquote ht he⟩
      | false =>
        by_cases hline : ['/', '/'] <+: c :: r
        · obtain ⟨u, hu⟩ := hline
          obtain ⟨rfl, rfl⟩ : '/' = c ∧ '/' :: u = r := List.cons.inj hu
          have hfeed : '\n' ∉ u.takeWhile (· ≠ '\n') := fun hmem => by
            simpa using List.mem_takeWhile_imp hmem
          have hend : ∀ c ∈ (u.dropWhile (· ≠ '\n')).head?, c = '\n' := fun c hc => by
            have hhead := List.head?_dropWhile_not (fun c : Char => decide (c ≠ '\n')) u
            rw [Option.mem_def.1 hc] at hhead
            simpa using hhead
          obtain ⟨ps, hps⟩ := hrest (u.dropWhile (· ≠ '\n')) (by
            have := (List.dropWhile_suffix (l := u) fun c : Char => decide (c ≠ '\n')).length_le
            simp only [List.length_cons]
            omega)
          have hcut := Cut.lineComment hfeed hend hps
          rw [List.takeWhile_append_dropWhile] at hcut
          exact ⟨_, hcut⟩
        · by_cases hblock : ['/', '*'] <+: c :: r
          · obtain ⟨u, hu⟩ := hblock
            obtain ⟨rfl, rfl⟩ : '/' = c ∧ '*' :: u = r := List.cons.inj hu
            by_cases hopen : ['*', '/'] <:+: u
            · obtain ⟨t, r, rfl, ht⟩ := exists_first_infix hopen
              obtain ⟨ps, hps⟩ := hrest r (by simp; omega)
              exact ⟨_, .blockComment ht hps⟩
            · exact ⟨_, .unended hopen⟩
          · obtain ⟨ps, hps⟩ := hrest r (by simp)
            exact ⟨_, .code hquote hline hblock hps⟩

/-! ## Blanking, character by character -/

/-- What becomes of a character: it is kept, or a space is written over it if it is no line feed. -/
def Blanked (c d : Char) : Prop := d = c ∨ c ≠ '\n' ∧ d = ' '

theorem forall₂_blankFrom (region : Region) (s : List Char) :
    List.Forall₂ Blanked s (blankFrom region s) := by
  fun_induction blankFrom region s with
  | case1 => exact .nil
  | case2 r ih | case3 r ih | case9 r ih =>
    exact .cons (.inr ⟨by decide, rfl⟩) (.cons (.inr ⟨by decide, rfl⟩) ih)
  | case4 c r _ _ ih => exact .cons (.inl rfl) ih
  | case5 q c r ih => exact .cons (.inl rfl) (.cons (.inl rfl) ih)
  | case6 q c r _ ih => exact .cons (.inl rfl) ih
  | case7 r ih | case10 r ih => exact .cons (.inl rfl) ih
  | case8 c r hc ih => exact .cons (.inr ⟨hc, rfl⟩) ih
  | case11 c r _ hc ih => exact .cons (.inr ⟨hc, rfl⟩) ih

/-- Line feeds stay where they are, and no others come. -/
theorem getElem?_feed_iff {s t : List Char} (h : List.Forall₂ Blanked s t) (i : Nat) :
    t[i]? = some '\n' ↔ s[i]? = some '\n' := by
  induction h generalizing i with
  | nil => rfl
  | @cons c d s t hcd _ ih =>
    cases i with
    | zero =>
      obtain rfl | ⟨hc, rfl⟩ := hcd
      · rfl
      · simp [hc]
    | succ i => simpa using ih i

/-- A text whose line boundaries are line feeds, each alone or behind a carriage return. -/
def FeedBounded (s : List Char) : Prop :=
  ∀ i (h : i < s.length), isLineBreak s[i] = true →
    s[i] = '\n' ∨ s[i] = '\r' ∧ s[i + 1]? = some '\n'

instance (s : List Char) : Decidable (FeedBounded s) := by
  unfold FeedBounded
  infer_instance

theorem FeedBounded.tail {c : Char} {s : List Char} (h : FeedBounded (c :: s)) : FeedBounded s :=
  fun i hi hbreak => h (i + 1) (Nat.succ_lt_succ hi) hbreak

/-- A line with some of its characters blanked, and a space behind it if a carriage return was. -/
def BlankedLine (l m : List Char) : Prop :=
  List.Forall₂ Blanked l m ∨ ∃ m', m = m' ++ [' '] ∧ List.Forall₂ Blanked l m'

theorem BlankedLine.cons {c d : Char} {l m : List Char} (hcd : Blanked c d) (h : BlankedLine l m) :
    BlankedLine (c :: l) (d :: m) := by
  obtain h | ⟨m', rfl, h⟩ := h
  · exact .inl (.cons hcd h)
  · exact .inr ⟨d :: m', rfl, .cons hcd h⟩

/-- Blanking leaves the lines of a text where they are. By induction on the text as it is cut into
lines: a carriage return that is blanked goes to the end of its line, since its line feed stays. -/
theorem forall₂_lines {s t : List Char} (hs : FeedBounded s) (h : List.Forall₂ Blanked s t) :
    List.Forall₂ BlankedLine (lines s) (lines t) := by
  induction s using lines.induct generalizing t with
  | case1 =>
    cases h
    exact .nil
  | case2 r ih =>
    obtain ⟨d, u, hd, hu, rfl⟩ := List.forall₂_cons_left_iff.1 h
    obtain ⟨e, t, he, ht, rfl⟩ := List.forall₂_cons_left_iff.1 hu
    have hrest := ih hs.tail.tail ht
    obtain rfl : e = '\n' := he.resolve_right fun he => he.1 rfl
    rw [lines]
    obtain rfl | ⟨-, rfl⟩ := hd
    · rw [lines]
      exact .cons (.inl .nil) hrest
    · rw [lines_cons_of_not_break (by decide), lines_newline]
      exact .cons (.inr ⟨[], rfl, .nil⟩) hrest
  | case3 c r hc hb ih =>
    obtain ⟨d, t, hd, ht, rfl⟩ := List.forall₂_cons_left_iff.1 h
    have hfeed : c = '\n' := by
      obtain hfeed | ⟨hreturn, hnext⟩ := hs 0 (Nat.zero_lt_succ _) hb
      · exact hfeed
      · cases r with
        | nil => cases hnext
        | cons e r => exact (hc r hreturn (congrArg (· :: r) (Option.some.inj hnext))).elim
    subst hfeed
    obtain rfl : d = '\n' := hd.resolve_right fun hd => hd.1 rfl
    rw [lines_newline, lines_newline]
    exact .cons (.inl .nil) (ih hs.tail ht)
  | case4 c r hc hb ih =>
    obtain ⟨d, t, hd, ht, rfl⟩ := List.forall₂_cons_left_iff.1 h
    have hrest := ih hs.tail ht
    have hb : isLineBreak c = false := by simpa using hb
    have hbd : isLineBreak d = false := by
      obtain rfl | ⟨-, rfl⟩ := hd
      · exact hb
      · decide
    rw [lines_cons_of_not_break hb, lines_cons_of_not_break hbd]
    generalize lines r = ls, lines t = ms at hrest
    cases hrest with
    | nil => exact .cons (.inl (.cons hd .nil)) .nil
    | cons hline hrest => exact .cons (hline.cons hd) hrest

/-! ## Blanking twice -/

/-- The region in which what is left of a text is read again: that of a comment is code by then. -/
def Region.settled : Region → Region
  | code => code
  | quoted q => quoted q
  | lineComment => code
  | blockComment => code

theorem blankFrom_space (s : List Char) : blankFrom .code (' ' :: s) = ' ' :: blankFrom .code s :=
  blankFrom_code_cons (by simp) (by simp)

theorem blankFrom_feed (s : List Char) : blankFrom .code ('\n' :: s) = '\n' :: blankFrom .code s :=
  blankFrom_code_cons (by simp) (by simp)

/-- No two characters stand side by side that did not before, unless one of them is a space. -/
theorem head?_of_blankFrom {region : Region} {s : List Char} {c : Char} (hc : c ≠ ' ')
    (h : (blankFrom region s).head? = some c) : s.head? = some c := by
  have hsame := forall₂_blankFrom region s
  generalize blankFrom region s = t at h hsame
  cases hsame with
  | nil => cases h
  | cons hd _ =>
    obtain rfl := Option.some.inj h
    obtain rfl | ⟨-, rfl⟩ := hd
    · rfl
    · exact absurd rfl hc

/-- What blanking leaves is left as it is. -/
theorem blankFrom_blankFrom (region : Region) (s : List Char) :
    blankFrom region.settled (blankFrom region s) = blankFrom region s := by
  fun_induction blankFrom region s with
  | case1 => simp [blankFrom]
  | case2 r ih | case3 r ih =>
    exact (blankFrom_space _).trans (congrArg _ ((blankFrom_space _).trans (congrArg _ ih)))
  | case4 c r hline hblock ih =>
    have hopen : ∀ a, a ≠ ' ' → (∀ u, c = '/' → r = a :: u → False) →
        ¬['/', a] <+: c :: blankFrom (if isQuote c then .quoted c else .code) r := by
      intro a ha hnot hstart
      obtain ⟨rfl, hstart⟩ := List.cons_prefix_cons.1 hstart
      obtain ⟨u, hu⟩ := hstart
      have hhead := head?_of_blankFrom ha (congrArg List.head? hu.symm)
      obtain ⟨v, hv⟩ := List.head?_eq_some_iff.1 hhead
      exact hnot v rfl hv
    show blankFrom .code _ = _
    rw [blankFrom_code_cons (hopen '/' (by decide) hline) (hopen '*' (by decide) hblock)]
    cases hquote : isQuote c <;> rw [hquote] at ih <;> exact congrArg _ ih
  | case5 q c r ih =>
    show blankFrom (.quoted q) _ = _
    rw [blankFrom]
    exact congrArg _ (congrArg _ ih)
  | case6 q c r hescape ih =>
    show blankFrom (.quoted q) _ = _
    rw [blankFrom]
    · by_cases hc : c = q
      · rw [if_pos hc] at ih ⊢
        exact congrArg _ ih
      · rw [if_neg hc] at ih ⊢
        exact congrArg _ ih
    · intro d u hc hu
      -- a lone backslash has nothing behind it to take along
      have hhead : r ≠ [] := by
        rintro rfl
        simp [blankFrom] at hu
      obtain ⟨e, v, hv⟩ := List.exists_cons_of_ne_nil hhead
      exact hescape e v hc hv
  | case7 r ih => exact (blankFrom_feed _).trans (congrArg _ ih)
  | case8 c r hc ih => exact (blankFrom_space _).trans (congrArg _ ih)
  | case9 r ih =>
    exact (blankFrom_space _).trans (congrArg _ ((blankFrom_space _).trans (congrArg _ ih)))
  | case10 r ih => exact (blankFrom_feed _).trans (congrArg _ ih)
  | case11 c r _ hc ih => exact (blankFrom_space _).trans (congrArg _ ih)

/-- Blanking comments keeps the length of a text and its line feeds. However the text is cut into pieces,
it blanks the comments among them and nothing else, and there is a way to cut it. What it leaves it
leaves as it is, so that a text is read as the same text with its comments blanked. And as long as line
feeds bound the lines, each line is the same line with its comments blanked. -/
theorem blankComments_faithful (s : List Char) :
    (blankComments s).length = s.length ∧
      (∀ i : Nat, (blankComments s)[i]? = some '\n' ↔ s[i]? = some '\n') ∧
      ((∃ ps, Cut s ps) ∧ ∀ ps, Cut s ps →
        ps.flatMap Piece.chars = s ∧ ps.flatMap Piece.blanked = blankComments s) ∧
      blankComments (blankComments s) = blankComments s ∧
      parse (str (blankComments s)) = parse (str s) ∧
      (FeedBounded s → List.Forall₂ BlankedLine (lines s) (lines (blankComments s))) := by
  have hsame : List.Forall₂ Blanked s (blankComments s) := forall₂_blankFrom .code s
  have htwice : blankComments (blankComments s) = blankComments s := blankFrom_blankFrom .code s
  refine ⟨length_blankFrom .code s, getElem?_feed_iff hsame, ⟨exists_cut s, fun ps hps =>
    ⟨hps.flatMap_chars, hps.blankFrom_eq.symm⟩⟩, htwice, ?_, fun hs => forall₂_lines hs hsame⟩
  rw [parse, parse, String.toList_ofList, String.toList_ofList, itemsOf, itemsOf, htwice]

/-- A text with both sorts of comments, marks of comments in quotes, and a carriage return in a
comment. -/
theorem blankComments_faithful_remarks :
    FeedBounded "id int // key\r\n'//' /* two\nlines */ \"/*\" n".toList ∧
      List.Forall₂ BlankedLine ["id int // key".toList, "'//' /* two".toList, "lines */ \"/*\" n".toList]
        ["id int        ".toList, "'//'       ".toList, "         \"/*\" n".toList] := by
  have hbounded : FeedBounded "id int // key\r\n'//' /* two\nlines */ \"/*\" n".toList := by decide
  exact ⟨hbounded, (blankComments_faithful _).2.2.2.2.2 hbounded⟩

end Schemata.Notation
