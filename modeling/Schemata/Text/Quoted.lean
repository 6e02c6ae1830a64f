import Schemata.Text.Blank

/-!
# Quoting

Two ways to carry any text between two marks. `double` writes the closing mark twice wherever the
text has it, and `halve` undoes this. `escape` puts a backslash in front of the mark and of the
backslash and writes a line feed as a letter, and `unescape` undoes that.
-/

namespace Schemata.Text

/-- The text with every mark `q` written twice. -/
def double (q : Char) : List Char → List Char
  | [] => []
  | c :: r => if c = q then q :: q :: double q r else c :: double q r

/-- The text with every two adjacent marks read as one, from the left. -/
def halve (q : Char) : List Char → List Char
  | [] => []
  | [c] => [c]
  | c :: d :: r => if c = q ∧ d = q then q :: halve q r else c :: halve q (d :: r)

/-- The text between an opening and a closing mark. -/
def enclose (opening closing : Char) (s : List Char) : List Char := opening :: (s ++ [closing])

/-- The text in single quotes, an inner quote doubled. -/
def quoteDoubled (s : List Char) : List Char := enclose '\'' '\'' (double '\'' s)

/-- The text with a backslash before every backslash and every mark `q`, and line feeds spelled. -/
def escape (q : Char) : List Char → List Char
  | [] => []
  | c :: r =>
    if c = '\\' then '\\' :: '\\' :: escape q r
    else if c = q then '\\' :: q :: escape q r
    else if c = '\n' then '\\' :: 'n' :: escape q r
    else c :: escape q r

/-- What a backslash and the character after it stand for. -/
def escaped : Char → Char
  | 'n' => '\n'
  | 't' => '\t'
  | c => c

/-- Reads escapes; a backslash at the end or before a line feed stands for itself. -/
def unescape : List Char → List Char
  | [] => []
  | ['\\'] => ['\\']
  | '\\' :: '\n' :: r => '\\' :: '\n' :: unescape r
  | '\\' :: c :: r => escaped c :: unescape r
  | c :: r => c :: unescape r

/-- The text with a backslash before every backslash and every single quote. -/
def backslashed (s : List Char) : List Char :=
  s.flatMap fun c => if c = '\\' ∨ c = '\'' then ['\\', c] else [c]

/-- What is neither a backslash at the end nor one in front of a character is no backslash. -/
theorem ne_backslash {c : Char} {s : List Char} (hend : c = '\\' → s = [] → False)
    (hfront : ∀ d t, c = '\\' → s = d :: t → False) : c ≠ '\\' := by
  intro hc
  cases s with
  | nil => exact hend hc rfl
  | cons d t => exact hfront d t hc rfl

@[simp] theorem double_nil (q : Char) : double q [] = [] := rfl

theorem halve_double (q : Char) (s : List Char) : halve q (double q s) = s := by
  induction s with
  | nil => rfl
  | cons c r ih =>
    by_cases h : c = q
    · subst h; simp [double, halve, ih]
    · cases r with
      | nil => simp [double, halve, h]
      | cons d t =>
        rw [double, if_neg h]
        by_cases hd : d = q
        · subst hd; simp only [double, if_pos] at ih ⊢; rw [halve]; simp [h, ih]
        · simp only [double, if_neg hd] at ih ⊢; rw [halve]; simp [h, ih]

/-- `unescape` reads back what `escape` writes, when the mark is no letter of an escape. -/
theorem unescape_escape {q : Char} (hn : q ≠ 'n') (ht : q ≠ 't') (hq : q ≠ '\n') (s : List Char) :
    unescape (escape q s) = s := by
  induction s with
  | nil => rfl
  | cons c r ih =>
    rw [escape]
    split
    · next h => subst h; simp [unescape, escaped, ih]
    · next h =>
      split
      · next h' =>
        subst h'
        rw [unescape]
        · rw [ih]
          congr 1
          unfold escaped
          split <;> simp_all
        · exact fun h => hq h
      · next h' =>
        split
        · next h'' => subst h''; simp [unescape, escaped, ih]
        · rw [unescape]
          · rw [ih]
          all_goals simp_all

end Schemata.Text
