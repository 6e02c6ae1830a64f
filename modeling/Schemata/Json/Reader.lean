import Schemata.Json.Basic
import Schemata.Number.Flaw

/-!
# Reading JSON

`Json.ofText?` reads a whole text as one value. Besides the standard grammar it takes `NaN`,
`Infinity` and `-Infinity`. A failure is the first `Json.Flaw` from the left; each has one wording.
Half of a surrogate pair stands for the replacement character. Of members with the same key the last
one counts. There may be a limit to the digits of a whole number.
-/

namespace Schemata.Json

/-- What is wrong with a text that is not JSON. -/
inductive Flaw
  | value
  | propertyName
  | colon
  | comma
  | extraData
  | openString
  | badEscape
  | badUnicodeEscape
  | controlCharacter
  | byteOrderMark
  /-- A whole number that cannot be taken, although its text is well formed. -/
  | number (flaw : NumeralFlaw)
  deriving DecidableEq, Repr

def Flaw.message : Flaw → String
  | value => "Expecting value"
  | propertyName => "Expecting property name enclosed in double quotes"
  | colon => "Expecting ':' delimiter"
  | comma => "Expecting ',' delimiter"
  | extraData => "Extra data"
  | openString => "Unterminated string starting at"
  | badEscape => "Invalid \\escape"
  | badUnicodeEscape => "Invalid \\uXXXX escape"
  | controlCharacter => "Invalid control character at"
  | byteOrderMark => "Unexpected UTF-8 BOM (decode using utf-8-sig)"
  | number flaw => flaw.message

def isSpace (c : Char) : Bool := c == ' ' || c == '\t' || c == '\n' || c == '\r'

def skipSpace (s : List Char) : List Char := s.dropWhile isSpace

def hexValue? (c : Char) : Option Nat :=
  if c.isDigit then some (c.toNat - 48)
  else if 'a' ≤ c ∧ c ≤ 'f' then some (c.toNat - 87)
  else if 'A' ≤ c ∧ c ≤ 'F' then some (c.toNat - 55)
  else none

def hex4? (a b c d : Char) : Option Nat := do
  return 4096 * (← hexValue? a) + 256 * (← hexValue? b) + 16 * (← hexValue? c) + (← hexValue? d)

def isHighSurrogate (n : Nat) : Bool := 0xD800 ≤ n && n ≤ 0xDBFF

def isLowSurrogate (n : Nat) : Bool := 0xDC00 ≤ n && n ≤ 0xDFFF

/-- The character of a code unit that pairs with no other. -/
def unitChar (n : Nat) : Char :=
  if isHighSurrogate n || isLowSurrogate n then Char.ofNat 0xFFFD else Char.ofNat n

/-- What a one-letter escape stands for. -/
def shortEscape? : Char → Option Char
  | '"' => some '"'
  | '\\' => some '\\'
  | '/' => some '/'
  | 'b' => some '\x08'
  | 'f' => some '\x0c'
  | 'n' => some '\n'
  | 'r' => some '\r'
  | 't' => some '\t'
  | _ => none

/-- Reads after `\u`: the character that is meant, and whether a second escape belongs to it. The
text has to go on after the digits. -/
def unicodeEscape : List Char → Except Flaw (Char × Bool)
  | a :: b :: c :: d :: next :: r =>
    match hex4? a b c d with
    | none => .error .badUnicodeEscape
    | some high =>
      if isHighSurrogate high then
        match next, r with
        | '\\', 'u' :: e :: f :: g :: h :: _ :: _ =>
          match hex4? e f g h with
          | none => .error .badUnicodeEscape
          | some low =>
            if isLowSurrogate low then
              .ok (Char.ofNat (0x10000 + 1024 * (high - 0xD800) + (low - 0xDC00)), true)
            else .ok (unitChar high, false)
        | _, _ => .ok (unitChar high, false)
      else .ok (unitChar high, false)
  | _ => .error .badUnicodeEscape

/-- Reads a string after its opening quote: its characters and the text after its closing quote. -/
def readString : List Char → Except Flaw (List Char × List Char)
  | [] => .error .openString
  | '"' :: r => .ok ([], r)
  | ['\\'] => .error .openString
  | '\\' :: 'u' :: r =>
    match unicodeEscape r with
    | .error e => .error e
    | .ok (c, paired) =>
      match r with
      | _ :: _ :: _ :: _ :: s =>
        if paired then
          match s with
          | _ :: _ :: _ :: _ :: _ :: _ :: t => cons c (readString t)
          | _ => .error .badUnicodeEscape
        else cons c (readString s)
      | _ => .error .badUnicodeEscape
  | '\\' :: c :: r =>
    match shortEscape? c with
    | none => .error .badEscape
    | some d => cons d (readString r)
  | c :: r => if c.toNat < 32 then .error .controlCharacter else cons c (readString r)
where
  cons (c : Char) : Except Flaw (List Char × List Char) → Except Flaw (List Char × List Char)
    | .ok (s, rest) => .ok (c :: s, rest)
    | .error e => .error e

/-- The digits of a fraction after its point, if there are any. -/
def takeFraction : List Char → Option (List Char) × List Char
  | '.' :: c :: r =>
    if c.isDigit then (some (c :: r.takeWhile Char.isDigit), r.dropWhile Char.isDigit)
    else (none, '.' :: c :: r)
  | s => (none, s)

/-- The exponent after its letter, if it has a digit. -/
def takeExponent (s : List Char) : Option Int × List Char :=
  match s with
  | e :: r =>
    if e = 'e' ∨ e = 'E' then
      let (negative, digits) := Text.takeSign r
      if (digits.head?.map Char.isDigit).getD false then
        (some (Text.signed negative (Text.digitsValue (digits.takeWhile Char.isDigit))),
          digits.dropWhile Char.isDigit)
      else (none, s)
    else (none, s)
  | [] => (none, [])

/-- The digits in front of the point; a leading zero stands alone. -/
def takeWhole? : List Char → Option (List Char × List Char)
  | '0' :: r => some (['0'], r)
  | c :: r =>
    if c.isDigit then some (c :: r.takeWhile Char.isDigit, r.dropWhile Char.isDigit) else none
  | [] => none

/-- Reads a number: a whole one, unless it has a fraction or an exponent. -/
def readNumber? (s : List Char) : Option (Json × List Char) :=
  let (negative, r) := match s with
    | '-' :: r => (true, r)
    | r => (false, r)
  (takeWhole? r).map fun (whole, r) =>
    let (fraction, r) := takeFraction r
    let (exponent, r) := takeExponent r
    if fraction.isNone ∧ exponent.isNone then
      (int (Text.signed negative (Text.digitsValue whole)), r)
    else
      let digits := fraction.getD []
      (float (Binary64.ofDecimal negative (Text.digitsValue (whole ++ digits))
        (exponent.getD 0 - digits.length)), r)

def wordValues : List (List Char × Json) :=
  [("null".toList, null), ("true".toList, bool true), ("false".toList, bool false),
    ("NaN".toList, float .nan), ("Infinity".toList, float (.infinite false)),
    ("-Infinity".toList, float (.infinite true))]

def readWord? (s : List Char) : Option (Json × List Char) :=
  wordValues.findSome? fun (w, j) => if w.isPrefixOf s then some (j, s.drop w.length) else none

/-- What keeps a whole number from being taken: more digits than the limit. -/
def longNumber? (limit : Option Nat) (n : Int) : Option Flaw :=
  (limit.filter (· < digitCount n)).map fun most => .number (.tooLong most (digitCount n))

/-- What keeps a value that was read by itself from being taken. -/
def scalarFlaw? (limit : Option Nat) : Json → Option Flaw
  | int n => longNumber? limit n
  | _ => none

mutual

/-- Reads one value at the front of a text. The fuel bounds the depth and the number of items. -/
def readValue (limit : Option Nat) : (fuel : Nat) → List Char → Except Flaw (Json × List Char)
  | 0, _ => .error .value
  | fuel + 1, s =>
    match s with
    | '"' :: r =>
      match readString r with
      | .ok (t, rest) => .ok (str (String.ofList t), rest)
      | .error e => .error e
    | '{' :: r =>
      match skipSpace r with
      | '}' :: rest => .ok (obj [], rest)
      | t =>
        match readMembers limit fuel t with
        | .ok (members, rest) => .ok (obj (distinct members), rest)
        | .error e => .error e
    | '[' :: r =>
      match skipSpace r with
      | ']' :: rest => .ok (arr [], rest)
      | t =>
        match readItems limit fuel t with
        | .ok (items, rest) => .ok (arr items, rest)
        | .error e => .error e
    | s =>
      match (readWord? s).or (readNumber? s) with
      | some (v, rest) => (scalarFlaw? limit v).elim (.ok (v, rest)) .error
      | none => .error .value

/-- Reads the items of an array from its first item to behind its closing bracket. -/
def readItems (limit : Option Nat) : (fuel : Nat) → List Char → Except Flaw (List Json × List Char)
  | 0, _ => .error .value
  | fuel + 1, s =>
    match readValue limit fuel s with
    | .error e => .error e
    | .ok (v, rest) =>
      match skipSpace rest with
      | ']' :: rest => .ok ([v], rest)
      | ',' :: rest =>
        match readItems limit fuel (skipSpace rest) with
        | .ok (vs, rest) => .ok (v :: vs, rest)
        | .error e => .error e
      | _ => .error .comma

/-- Reads the members of an object from its first key to behind its closing brace. -/
def readMembers (limit : Option Nat) :
    (fuel : Nat) → List Char → Except Flaw (List (String × Json) × List Char)
  | 0, _ => .error .value
  | fuel + 1, s =>
    match s with
    | '"' :: r =>
      match readString r with
      | .error e => .error e
      | .ok (key, rest) =>
        match skipSpace rest with
        | ':' :: rest =>
          match readValue limit fuel (skipSpace rest) with
          | .error e => .error e
          | .ok (v, rest) =>
            match skipSpace rest with
            | '}' :: rest => .ok ([(String.ofList key, v)], rest)
            | ',' :: rest =>
              match readMembers limit fuel (skipSpace rest) with
              | .ok (ms, rest) => .ok ((String.ofList key, v) :: ms, rest)
              | .error e => .error e
            | _ => .error .comma
        | _ => .error .colon
    | _ => .error .propertyName

end

def ofText? (text : String) (limit : Option Nat := none) : Except Flaw Json :=
  match text.toList with
  | '\uFEFF' :: _ => .error .byteOrderMark
  | s =>
    match readValue limit (2 * s.length + 2) (skipSpace s) with
    | .error e => .error e
    | .ok (v, rest) => if (skipSpace rest).isEmpty then .ok v else .error .extraData

end Schemata.Json
