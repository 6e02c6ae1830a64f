import Schemata.Text.Unicode

/-!
# Letters, digits and case

The character classes that names and numbers are made of, and case. ASCII is decided here; every other
character stands in the tables.
-/

namespace Schemata.Text

open Unicode

def isAscii (c : Char) : Bool := c.toNat < 128

def inRanges (ranges : List (Nat × Nat)) (c : Char) : Bool :=
  ranges.any fun range => range.1 ≤ c.toNat && c.toNat ≤ range.2

/-! ## Digits and words -/

/-- The value of a decimal digit of any script. -/
def digitValue? (c : Char) : Option Nat :=
  if isAscii c then if c.isDigit then some (c.toNat - 48) else none
  else (zeros.find? fun z => z ≤ c.toNat && c.toNat ≤ z + 9).map (c.toNat - ·)

/-- A decimal digit of any script. -/
def isDigit (c : Char) : Bool := (digitValue? c).isSome

/-- A decimal digit, or a digit that has no place in a numeral. -/
def isAnyDigit (c : Char) : Bool := isDigit c || inRanges looseDigitRanges c

/-- The characters a word is made of: letters, digits and the low line. -/
def isWordChar (c : Char) : Bool :=
  if isAscii c then c.isAlphanum || c == '_' else inRanges wordRanges c

/-- An ASCII letter or the low line. -/
def isNameStart (c : Char) : Bool := c.isAlpha || c == '_'

/-! ## Case -/

/-- The partner that a table has for a character. -/
def partner? (ranges : List CaseRange) (c : Char) : Option Char :=
  (ranges.find? fun range =>
    range.first ≤ c.toNat && c.toNat ≤ range.last && (c.toNat - range.first) % range.step == 0).map
      fun range => Char.ofNat (range.partner + (c.toNat - range.first))

/-- The lower-case partner of a letter; any other character is its own. -/
def lowerChar (c : Char) : Char :=
  if isAscii c then c.toLower else (partner? lowerRanges c).getD c

/-- Whether a character outside ASCII has a lower-case partner. -/
def hasLower (c : Char) : Bool := (partner? lowerRanges c).isSome

/-- Whether a character outside ASCII has another upper case. -/
def hasUpper (c : Char) : Bool :=
  (partner? upperRanges c).isSome || (upperSequences.lookup c.toNat).isSome

def isUpper (c : Char) : Bool :=
  if isAscii c then c.isUpper
  else (hasLower c && !hasUpper c) || inRanges unpairedUpperRanges c

def isLower (c : Char) : Bool :=
  if isAscii c then c.isLower
  else (hasUpper c && !hasLower c) || inRanges unpairedLowerRanges c

/-- A pair of letters in one character, of which the first is upper case. -/
def isTitle (c : Char) : Bool := !isAscii c && hasLower c && hasUpper c

def isCased (c : Char) : Bool := isUpper c || isLower c || isTitle c

/-- Whether a character is passed over when the letter before or behind a sigma is looked for. -/
def isCaseIgnorable (c : Char) : Bool :=
  if isAscii c then "'.:^\x60".toList.contains c else inRanges caseIgnorableRanges c

/-- The lower case of a character, where `inWord` says whether a letter stands before it and `rest`
is what comes after it. A sigma at the end of a word has a form of its own. -/
def lowerAt (inWord : Bool) (c : Char) (rest : List Char) : List Char :=
  if isAscii c then [c.toLower]
  else if c = 'Σ' then
    if inWord && !((rest.dropWhile isCaseIgnorable).head?.any isCased) then ['ς'] else ['σ']
  else if c = 'İ' then ['i', '\u0307']
  else [lowerChar c]

def lowerFrom (inWord : Bool) : List Char → List Char
  | [] => []
  | c :: r => lowerAt inWord c r ++ lowerFrom (if isCaseIgnorable c then inWord else isCased c) r

def lower (s : List Char) : List Char := lowerFrom false s

def upperOf (c : Char) : List Char :=
  if isAscii c then [c.toUpper]
  else match upperSequences.lookup c.toNat with
    | some cs => cs.map Char.ofNat
    | none => [(partner? upperRanges c).getD c]

def upper (s : List Char) : List Char := s.flatMap upperOf

def lowered (s : String) : String := String.ofList (lower s.toList)

/-- A text with an upper-case letter in it, and no other letter with a case. -/
def isUpperText (s : List Char) : Bool := s.any isUpper && !s.any fun c => isLower c || isTitle c

/-! ## Words in any case -/

/-- Whether a character is a lower-case letter of ASCII when case does not matter. A dotless `i` and a
long `s` count as these letters. -/
def isInAnyCase (letter c : Char) : Bool :=
  lowerChar c == letter || (letter == 'i' && c == 'ı') || (letter == 's' && c == 'ſ')

/-- An ASCII letter when case does not matter, or the low line. -/
def isNameStartInAnyCase (c : Char) : Bool := isNameStart c || "İıſ\u212A".toList.contains c

/-- Drops a word written in lower case from the front of a text in any case. -/
def dropKeyword? : (keyword : List Char) → List Char → Option (List Char)
  | [], s => some s
  | k :: ks, c :: s => if isInAnyCase k c then dropKeyword? ks s else none
  | _ :: _, [] => none

/-- Whether a text stands somewhere in another one. -/
def hasInfix (pattern : List Char) : List Char → Bool
  | [] => pattern.isEmpty
  | c :: r => pattern.isPrefixOf (c :: r) || hasInfix pattern r

end Schemata.Text
