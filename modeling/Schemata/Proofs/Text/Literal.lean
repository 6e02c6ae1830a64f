import Mathlib.Tactic.Common
import Schemata.Text.Quoted

/-!
# Reading literals

A literal in single quotes is read character by character up to the quote that closes it. Languages
differ in the pairs of characters that stand for something else: a doubled quote, or a backslash and
what is behind it. `readLiteral?` reads by such a table of pairs. What `quoteDoubled` writes is read
back where only a doubled quote is a pair (`readLiteral?_quoteDoubled`), and what `backslashed` writes
where backslashes are escaped (`readLiteral?_backslashed`). Where a backslash makes a pair with every
character, a doubled quote is not enough, and `readLiteral?_quoteDoubled_mysql` says for which texts
it is.
-/

namespace Schemata.Text

/-- What two characters in a literal stand for together, if for anything. -/
abbrev Pairs := Char → Char → Option (List Char)

/-- Reads a literal from behind its opening quote: its value, and what stands behind its closing
quote. A quote closes the literal unless it makes a pair with the next character. -/
def readQuoted? (pair? : Pairs) : List Char → Option (List Char × List Char)
  | [] => none
  | [c] => if c = '\'' then some ([], []) else none
  | c :: d :: r =>
    match pair? c d with
    | some u => (readQuoted? pair? r).map fun x => (u ++ x.1, x.2)
    | none =>
      if c = '\'' then some ([], d :: r)
      else (readQuoted? pair? (d :: r)).map fun x => (c :: x.1, x.2)

/-- Reads a literal: its value, and what stands behind it. -/
def readLiteral? (pair? : Pairs) : List Char → Option (List Char × List Char)
  | '\'' :: r => readQuoted? pair? r
  | _ => none

/-! ## Steps of reading -/

section Steps

variable {pair? : Pairs} {c d : Char} {r : List Char}

theorem readQuoted?_pair {u : List Char} (h : pair? c d = some u) :
    readQuoted? pair? (c :: d :: r) = (readQuoted? pair? r).map fun x => (u ++ x.1, x.2) := by
  rw [readQuoted?, h]

/-- A character that makes no pair is read by itself. -/
theorem readQuoted?_cons (hc : c ≠ '\'') (h : ∀ d, pair? c d = none) :
    readQuoted? pair? (c :: r) = (readQuoted? pair? r).map fun x => (c :: x.1, x.2) := by
  cases r with
  | nil => simp [readQuoted?, hc]
  | cons d r => rw [readQuoted?, h d]; exact if_neg hc

theorem of_readQuoted?_pair {u v r' : List Char} (hpair : pair? c d = some u)
    (h : readQuoted? pair? (c :: d :: r) = some (v, r')) :
    ∃ w, v = u ++ w ∧ readQuoted? pair? r = some (w, r') := by
  rw [readQuoted?_pair hpair, Option.map_eq_some_iff] at h
  obtain ⟨⟨w, x⟩, h, heq⟩ := h
  cases heq
  exact ⟨w, rfl, h⟩

theorem of_readQuoted?_cons {v r' : List Char} (hc : c ≠ '\'') (hnone : ∀ d, pair? c d = none)
    (h : readQuoted? pair? (c :: r) = some (v, r')) :
    ∃ w, v = c :: w ∧ readQuoted? pair? r = some (w, r') := by
  rw [readQuoted?_cons hc hnone, Option.map_eq_some_iff] at h
  obtain ⟨⟨w, x⟩, h, heq⟩ := h
  cases heq
  exact ⟨w, rfl, h⟩

/-- A quote that makes no pair with what is behind it closes the literal. -/
theorem readQuoted?_close (h : ∀ d ∈ r.head?, pair? '\'' d = none) :
    readQuoted? pair? ('\'' :: r) = some ([], r) := by
  cases r with
  | nil => rfl
  | cons d r => rw [readQuoted?, h d rfl]; rfl

/-- A writer that puts each character down alone or as a pair, so that nothing else makes a pair. -/
theorem readQuoted?_flatMap {write : Char → List Char} {s : List Char}
    (hwrite : ∀ c ∈ s, (write c = [c] ∧ c ≠ '\'' ∧ ∀ d, pair? c d = none) ∨
      ∃ a b, write c = [a, b] ∧ pair? a b = some [c])
    (hr : ∀ d ∈ r.head?, pair? '\'' d = none) :
    readQuoted? pair? (s.flatMap write ++ '\'' :: r) = some (s, r) := by
  induction s with
  | nil => exact readQuoted?_close hr
  | cons c s ih =>
    obtain ⟨hc, hs⟩ := List.forall_mem_cons.1 hwrite
    rw [List.flatMap_cons, List.append_assoc]
    rcases hc with ⟨hc, hne, hnone⟩ | ⟨a, b, hc, hpair⟩
    · rw [hc, List.singleton_append, readQuoted?_cons hne hnone, ih hs]
      rfl
    · rw [hc, List.cons_append, List.singleton_append, readQuoted?_pair hpair, ih hs]
      rfl

end Steps

/-! ## Doubled quotes -/

/-- Only a doubled quote is a pair. -/
def doubledPair? : Pairs
  | '\'', '\'' => some ['\'']
  | _, _ => none

theorem doubledPair?_of_ne {c : Char} (hc : c ≠ '\'') (d : Char) : doubledPair? c d = none := by
  unfold doubledPair?
  split
  · exact absurd rfl hc
  · rfl

theorem doubledPair?_quote {d : Char} (hd : d ≠ '\'') : doubledPair? '\'' d = none := by
  unfold doubledPair?
  split
  · next h => exact absurd h hd
  · rfl

theorem double_eq_flatMap (q : Char) (s : List Char) :
    double q s = s.flatMap fun c => if c = q then [q, q] else [c] := by
  induction s with
  | nil => rfl
  | cons c s ih => rw [double, List.flatMap_cons, ih]; split <;> rfl

theorem readLiteral?_quoteDoubled (s : List Char) {r : List Char} (hr : r.head? ≠ some '\'') :
    readLiteral? doubledPair? (quoteDoubled s ++ r) = some (s, r) := by
  have hclose : ∀ d ∈ r.head?, doubledPair? '\'' d = none := by
    rintro d hd
    exact doubledPair?_quote fun h => hr (h ▸ hd)
  show readQuoted? doubledPair? ((double '\'' s ++ ['\'']) ++ r) = some (s, r)
  rw [List.append_assoc, double_eq_flatMap]
  refine readQuoted?_flatMap (fun c _ => ?_) hclose
  rcases eq_or_ne c '\'' with rfl | hc
  · exact .inr ⟨'\'', '\'', rfl, rfl⟩
  · exact .inl ⟨if_neg hc, hc, doubledPair?_of_ne hc⟩

/-! ## Backslashes in PHP -/

/-- A backslash makes a pair with a backslash and with a quote. -/
def phpPair? : Pairs
  | '\\', '\\' => some ['\\']
  | '\\', '\'' => some ['\'']
  | _, _ => none

theorem phpPair?_of_ne {c : Char} (hc : c ≠ '\\') (d : Char) : phpPair? c d = none := by
  unfold phpPair?
  split
  · exact absurd rfl hc
  · exact absurd rfl hc
  · rfl

theorem readLiteral?_backslashed (s r : List Char) :
    readLiteral? phpPair? (enclose '\'' '\'' (backslashed s) ++ r) = some (s, r) := by
  show readQuoted? phpPair? ((backslashed s ++ ['\'']) ++ r) = some (s, r)
  rw [List.append_assoc, backslashed]
  refine readQuoted?_flatMap (fun c _ => ?_) fun d _ => phpPair?_of_ne (by decide) d
  by_cases hc : c = '\\' ∨ c = '\''
  · exact .inr ⟨'\\', c, by rw [if_pos hc], by rcases hc with rfl | rfl <;> rfl⟩
  · rw [not_or] at hc
    exact .inl ⟨if_neg (not_or.2 hc), hc.2, phpPair?_of_ne hc.1⟩

/-! ## Backslashes in MySQL -/

/-- What a backslash and the character behind it stand for. Before the wildcards of patterns it
stays. -/
def mysqlEscaped : Char → List Char
  | '0' => ['\x00']
  | 'b' => ['\x08']
  | 'n' => ['\n']
  | 'r' => ['\r']
  | 't' => ['\t']
  | 'Z' => ['\x1a']
  | '%' => ['\\', '%']
  | '_' => ['\\', '_']
  | c => [c]

/-- A doubled quote is a pair, and a backslash makes one with every character. -/
def mysqlPair? : Pairs
  | '\'', '\'' => some ['\'']
  | '\\', c => some (mysqlEscaped c)
  | _, _ => none

/-- A text whose backslashes all stand before a wildcard of patterns. -/
def Inert : List Char → Prop
  | [] => True
  | ['\\'] => False
  | '\\' :: c :: r => (c = '%' ∨ c = '_') ∧ Inert r
  | _ :: r => Inert r

theorem inert_cons {c : Char} (hc : c ≠ '\\') {s : List Char} : Inert (c :: s) ↔ Inert s := by
  rw [Inert]
  · exact fun h => absurd h hc
  · exact fun _ _ h => absurd h hc

theorem mysqlPair?_of_ne {c : Char} (hc : c ≠ '\'') (hc' : c ≠ '\\') (d : Char) :
    mysqlPair? c d = none := by
  unfold mysqlPair?
  split
  · exact absurd rfl hc
  · exact absurd rfl hc'
  · rfl

theorem mysqlPair?_quote {d : Char} (hd : d ≠ '\'') : mysqlPair? '\'' d = none := by
  unfold mysqlPair?
  split
  · next h => exact absurd h hd
  · next h => cases h
  · rfl

theorem mysqlPair?_backslash (c : Char) : mysqlPair? '\\' c = some (mysqlEscaped c) := rfl

/-- Only before a wildcard of patterns two characters are read for two. -/
theorem length_mysqlEscaped (c : Char) : (mysqlEscaped c).length ≤ 2 ∧
    ((mysqlEscaped c).length = 2 → mysqlEscaped c = ['\\', c] ∧ (c = '%' ∨ c = '_')) := by
  unfold mysqlEscaped
  split <;> simp

theorem double_cons_of_ne {q c : Char} (hc : c ≠ q) (s : List Char) :
    double q (c :: s) = c :: double q s := by
  rw [double, if_neg hc]

theorem double_cons_self (q : Char) (s : List Char) : double q (q :: s) = q :: q :: double q s := by
  rw [double, if_pos rfl]

theorem length_of_readQuoted? {pair? : Pairs} {s v r : List Char}
    (h : readQuoted? pair? s = some (v, r)) : r.length < s.length := by
  induction s using readQuoted?.induct pair? generalizing v r with
  | case1 => simp [readQuoted?] at h
  | case2 =>
    cases h
    simp
  | case3 c hc => simp [readQuoted?, hc] at h
  | case4 c d s u hpair ih =>
    obtain ⟨w, -, h'⟩ := of_readQuoted?_pair hpair h
    have := ih h'
    simp only [List.length_cons]
    omega
  | case5 d s hpair =>
    rw [readQuoted?, hpair] at h
    cases h
    simp
  | case6 c d s hpair hc ih =>
    rw [readQuoted?, hpair] at h
    simp only [hc, if_false, Option.map_eq_some_iff] at h
    obtain ⟨⟨v', r'⟩, h', heq⟩ := h
    cases heq
    have := ih h'
    simp only [List.length_cons] at this ⊢
    omega

section Mysql

variable {s v r r' : List Char}

/-- When a backslash has taken the first of two quotes along, the literal does not end where it
should: it ends before, or it runs on. -/
theorem readQuoted?_displaced
    (h : readQuoted? mysqlPair? ('\'' :: (double '\'' s ++ '\'' :: r)) = some (v, r')) :
    r'.length ≠ r.length := by
  induction s generalizing v r' with
  | nil =>
    -- the quote that should close the literal is the second of a pair
    obtain ⟨w, -, h'⟩ := of_readQuoted?_pair rfl h
    exact Nat.ne_of_lt (length_of_readQuoted? h')
  | cons c s ih =>
    rcases eq_or_ne c '\'' with rfl | hc
    · rw [double_cons_self, List.cons_append] at h
      obtain ⟨w, -, h'⟩ := of_readQuoted?_pair rfl h
      exact ih h'
    · rw [double_cons_of_ne hc, List.cons_append, readQuoted?_close] at h
      · cases h
        simp only [List.length_cons, List.length_append]
        omega
      · rintro d hd
        obtain rfl : c = d := Option.some.inj hd
        exact mysqlPair?_quote hc

/-- A literal that ends where it should has no more characters than the text, and as many only if no
backslash of the text is lost. -/
theorem length_of_readQuoted?_mysql
    (h : readQuoted? mysqlPair? (double '\'' s ++ '\'' :: r) = some (v, r')) (hr : r' = r)
    (hclose : r.head? ≠ some '\'') :
    v.length ≤ s.length ∧ (v.length = s.length → v = s ∧ Inert s) := by
  induction s using Inert.induct generalizing v with
  | case1 =>
    rw [double_nil, List.nil_append, readQuoted?_close] at h
    · cases h
      simp [Inert]
    · exact fun d hd => mysqlPair?_quote fun hq => hclose (hq ▸ hd)
  | case2 =>
    -- a backslash at the end takes the closing quote along
    rw [double_cons_of_ne (by decide), double_nil, List.cons_append, List.nil_append] at h
    obtain ⟨w, -, h'⟩ := of_readQuoted?_pair (mysqlPair?_backslash _) h
    exact absurd (hr ▸ length_of_readQuoted? h') (Nat.lt_irrefl _)
  | case3 c s ih =>
    rw [double_cons_of_ne (by decide), List.cons_append] at h
    rcases eq_or_ne c '\'' with rfl | hc
    · rw [double_cons_self, List.cons_append] at h
      obtain ⟨w, -, h'⟩ := of_readQuoted?_pair (mysqlPair?_backslash _) h
      exact absurd (congrArg List.length hr) (readQuoted?_displaced h')
    · rw [double_cons_of_ne hc, List.cons_append] at h
      obtain ⟨w, rfl, h'⟩ := of_readQuoted?_pair (mysqlPair?_backslash _) h
      obtain ⟨hle, heq⟩ := ih h'
      obtain ⟨hescaped, htwo⟩ := length_mysqlEscaped c
      simp only [List.length_append, List.length_cons]
      refine ⟨by omega, fun hlen => ?_⟩
      obtain ⟨hpair, hwild⟩ := htwo (by omega)
      obtain ⟨rfl, hinert⟩ := heq (by omega)
      exact ⟨by rw [hpair]; rfl, hwild, hinert⟩
  | case4 c s hone hmore ih =>
    have hc' := ne_backslash hone hmore
    rw [inert_cons hc']
    rcases eq_or_ne c '\'' with rfl | hc
    · rw [double_cons_self, List.cons_append, List.cons_append] at h
      obtain ⟨w, rfl, h'⟩ := of_readQuoted?_pair rfl h
      simpa using ih h'
    · rw [double_cons_of_ne hc, List.cons_append] at h
      obtain ⟨w, rfl, h'⟩ := of_readQuoted?_cons hc (mysqlPair?_of_ne hc hc') h
      simpa using ih h'

theorem readQuoted?_of_inert (h : Inert s) (hclose : r.head? ≠ some '\'') :
    readQuoted? mysqlPair? (double '\'' s ++ '\'' :: r) = some (s, r) := by
  induction s using Inert.induct with
  | case1 => exact readQuoted?_close fun d hd => mysqlPair?_quote fun hq => hclose (hq ▸ hd)
  | case2 => exact absurd h id
  | case3 c s ih =>
    obtain ⟨hwild, h⟩ := h
    have hc : c ≠ '\'' := by rcases hwild with rfl | rfl <;> decide
    have hescaped : mysqlEscaped c = ['\\', c] := by rcases hwild with rfl | rfl <;> rfl
    rw [double_cons_of_ne (by decide), double_cons_of_ne hc, List.cons_append, List.cons_append,
      readQuoted?_pair (mysqlPair?_backslash _), ih h, hescaped]
    rfl
  | case4 c s hone hmore ih =>
    have hc' := ne_backslash hone hmore
    rw [inert_cons hc'] at h
    rcases eq_or_ne c '\'' with rfl | hc
    · rw [double_cons_self, List.cons_append, List.cons_append, readQuoted?_pair rfl, ih h]
      rfl
    · rw [double_cons_of_ne hc, List.cons_append, readQuoted?_cons hc (mysqlPair?_of_ne hc hc'),
        ih h]
      rfl

/-- In MySQL a text with its quotes doubled is read back exactly when each of its backslashes stands
before a wildcard of patterns. -/
theorem readLiteral?_quoteDoubled_mysql (hclose : r.head? ≠ some '\'') :
    readLiteral? mysqlPair? (quoteDoubled s ++ r) = some (s, r) ↔ Inert s := by
  have hbody : readLiteral? mysqlPair? (quoteDoubled s ++ r) =
      readQuoted? mysqlPair? (double '\'' s ++ '\'' :: r) := by
    show readQuoted? mysqlPair? ((double '\'' s ++ ['\'']) ++ r) = _
    rw [List.append_assoc, List.singleton_append]
  rw [hbody]
  constructor
  · exact fun h => ((length_of_readQuoted?_mysql h rfl hclose).2 rfl).2
  · exact fun h => readQuoted?_of_inert h hclose

end Mysql

end Schemata.Text
