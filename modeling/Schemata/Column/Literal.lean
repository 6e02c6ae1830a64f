import Schemata.Column.Basic
import Schemata.Limits
import Schemata.Text.Quoted

/-!
# Default literals

What a source gives as the default of a column, and the default it means for a column of some type.
Casts behind a value and parentheses around it are dropped, quotes are taken off, and an unquoted
text is an expression only when it is a known keyword or has the shape of a call.
-/

namespace Schemata

open Text

/-- A default as a source gives it. -/
inductive RawDefault
  | bool (b : Bool)
  | int (n : Int)
  | decimal (d : Decimal)
  | float (x : Binary64)
  | text (s : String)
  | expr (sql : String)
  deriving DecidableEq

namespace Literal

/-! ## Casts -/

/-- The characters of the type in a cast. -/
def isCastChar (c : Char) : Bool := isWordChar c || isBlank c || c == '"' || c == '[' || c == ']'

/-- The text in front of the leftmost pair of colons that only a type follows. -/
def castHead? : List Char → Option (List Char)
  | [] => none
  | [_] => none
  | a :: b :: r =>
    if a = ':' ∧ b = ':' ∧ r ≠ [] ∧ r.all isCastChar then some []
    else (castHead? (b :: r)).map (a :: ·)

theorem length_of_castHead? {s t : List Char} (h : castHead? s = some t) : t.length < s.length := by
  fun_induction castHead? s generalizing t with
  | case1 => simp at h
  | case2 => simp at h
  | case3 => simp at h; subst h; simp
  | case4 a b r _ ih =>
    obtain ⟨u, hu, rfl⟩ := Option.map_eq_some_iff.1 h
    have := ih hu
    simpa using this

theorem length_dropWhile_le (p : Char → Bool) (s : List Char) :
    (s.dropWhile p).length ≤ s.length := by
  induction s with
  | nil => simp
  | cons c r ih =>
    rw [List.dropWhile_cons]
    split
    · simp; omega
    · simp

theorem length_strip_le (s : List Char) : (strip s).length ≤ s.length := by
  have h1 := length_dropWhile_le isBlank s
  have h2 := length_dropWhile_le isBlank (s.dropWhile isBlank).reverse
  simp only [strip, dropTrailingBlanks, skipBlanks, List.length_reverse] at *
  omega

def stripCasts (s : List Char) : List Char :=
  match _h : castHead? s with
  | none => s
  | some t => stripCasts (strip t)
termination_by s.length
decreasing_by
  have h1 := length_of_castHead? _h
  have h2 := length_strip_le t
  omega

theorem length_stripCasts_le (s : List Char) : (stripCasts s).length ≤ s.length := by
  induction s using stripCasts.induct with
  | case1 s h => rw [stripCasts]; split <;> simp_all
  | case2 s t h ih =>
    have h1 := length_of_castHead? h
    have h2 := length_strip_le t
    rw [stripCasts]
    split
    · simp
    · next u hu =>
      obtain rfl : t = u := by simpa [h] using hu
      omega

/-! ## Shapes of a text -/

/-- The text between the first and the last character. -/
def inner (s : List Char) : List Char := (s.drop 1).dropLast

/-- Whether a text of two or more characters starts and ends with a quote of one sort. -/
def isQuoted (s : List Char) : Bool :=
  match s with
  | q :: r => (q == '\'' || q == '"') && r.getLast? == some q
  | [] => false

/-- The words that are expressions by themselves. -/
def expressionWords : List String :=
  ["current_timestamp", "current_date", "current_time", "localtimestamp", "localtime", "now()",
    "getdate()", "sysdatetime()"]

/-- A name with dots in it, directly followed by parentheses up to the end. -/
def isCall (s : List Char) : Bool :=
  match s with
  | c :: r =>
    isNameStart c &&
      match r.dropWhile (fun d => isWordChar d || d == '.') with
      | '(' :: args => args.getLast? == some ')'
      | _ => false
  | [] => false

def isExpression (s : List Char) : Bool :=
  let s := strip s
  let l := lower s
  String.ofList l ∈ expressionWords || "current_timestamp(".toList.isPrefixOf l || isCall s

/-- Whether the parenthesis that brings the depth to zero is the last character. -/
def closesAtEnd : (depth : Nat) → List Char → Bool
  | _, [] => false
  | depth, c :: r =>
    if c = '(' then closesAtEnd (depth + 1) r
    else if c = ')' then if depth ≤ 1 then r.isEmpty else closesAtEnd (depth - 1) r
    else closesAtEnd depth r

/-- Whether the opening parenthesis at the front closes at the last character. -/
def wrapsWhole (s : List Char) : Bool :=
  s.head? == some '(' && s.getLast? == some ')' && closesAtEnd 0 s

/-- The text without one line feed at its end. -/
def dropFinalNewline (s : List Char) : List Char :=
  if s.getLast? = some '\n' then s.dropLast else s

/-- A whole number with an optional sign. -/
def isWhole (s : List Char) : Bool := isNumeral (takeSign s).2

/-- A decimal numeral with optional sign, point and exponent. -/
def isNumber (s : List Char) : Bool := (Decimal.parts? s).isSome

theorem length_stripCasts_inner_lt {s : List Char} (h : wrapsWhole s = true) :
    (stripCasts (strip (inner s))).length < s.length := by
  have h1 := length_stripCasts_le (strip (inner s))
  have h2 := length_strip_le (inner s)
  have h3 : (inner s).length < s.length := by
    cases s with
    | nil => simp [wrapsWhole] at h
    | cons c r =>
      simp only [inner, List.length_dropLast, List.length_drop, List.length_cons]
      omega
  omega

/-- Takes the parentheses off an expression, a number, a quoted text or a null. -/
def unwrap (s : List Char) : List Char :=
  if _h : wrapsWhole s = true then
    let t := stripCasts (strip (inner s))
    if wrapsWhole t then
      let u := unwrap t
      if u = t then s else u
    else if isQuoted t || isExpression t || isNumber t || lower t == "null".toList then t
    else s
  else s
termination_by s.length
decreasing_by exact length_stripCasts_inner_lt _h

/-- How many calls of `unwrap` are nested for a text. -/
def unwrapCalls (s : List Char) : Nat :=
  if _h : wrapsWhole s = true then
    let t := stripCasts (strip (inner s))
    if wrapsWhole t then unwrapCalls t + 1 else 1
  else 1
termination_by s.length
decreasing_by exact length_stripCasts_inner_lt _h

/-! ## Typed defaults -/

def trueWords : List String := ["true", "t", "1", "yes", "y", "b'1'"]

def falseWords : List String := ["false", "f", "0", "no", "n", "b'0'"]

/-- A literal text as a value of a type, or as text if it is none. -/
def typed (t : ColumnType) (s : List Char) : Default :=
  let asText := Default.text (String.ofList s)
  let digits := dropFinalNewline s
  if t.kind = .boolean then
    let l := String.ofList (lower s)
    if l ∈ trueWords then .bool true else if l ∈ falseWords then .bool false else asText
  else if t.family = .integer ∧ isWhole digits then
    let (negative, ds) := takeSign digits
    .int (signed negative (digitsValue ds))
  else if t.family = .fixedPoint ∧ isNumber digits then
    (Decimal.ofText? digits).elim asText .decimal
  else asText

/-- A number, kept as it is unless the column holds text. -/
def number (t : ColumnType) (d : Default) (text : String) : Default :=
  if t.family = .string then .text text else d

def ofText (t : ColumnType) (raw : List Char) : Option Default :=
  let s := unwrap (stripCasts (strip raw))
  match s with
  | [] => some (typed t s)
  | q :: _ =>
    if isQuoted s then some (typed t (halve q (inner s)))
    else if lower s = "null".toList then none
    else if "nextval(".toList.isPrefixOf (lower s) then none
    else if 2 ≤ s.length ∧ s.head? = some '\x60' ∧ s.getLast? = some '\x60' then
      some (.expr (String.ofList (inner s)))
    else if isExpression s then some (.expr (String.ofList s))
    else some (typed t s)

end Literal

/-- The decimal with the shortest digits of a floating-point number. -/
def Decimal.ofBinary64 (x : Binary64) : Decimal :=
  match x with
  | .finite .. => (Decimal.ofText? x.text.toList).getD .nan
  | .infinite negative => .infinite negative
  | .nan => .nan

/-- The default that a raw default means for a column of a type. A source that says the value is a
literal has its text kept as it is, apart from truth values and numbers. -/
def Default.ofRaw (t : ColumnType) (raw : Option RawDefault) (literal : Bool := false) :
    Option Default :=
  match raw with
  | none => none
  | some (.expr sql) => some (.expr sql)
  | some (.bool b) => some (.bool b)
  | some (.int n) => some (Literal.number t (.int n) (intText n))
  | some (.decimal d) => some (Literal.number t (.decimal d) d.text)
  | some (.float x) => some (.decimal (Decimal.ofBinary64 x))
  | some (.text s) =>
    if literal then some (Literal.typed t s.toList) else Literal.ofText t s.toList

/-! ## Limits -/

namespace Literal

variable (l : Limits) (t : ColumnType)

/-- What keeps a literal text from being read as a value of a type: too many digits. -/
def typedFault? (s : List Char) : Option Fault :=
  let digits := dropFinalNewline s
  if t.kind ≠ .boolean ∧ t.family = .integer ∧ isWhole digits then
    match l.readDigits (takeSign digits).2 with
    | .error f => some f
    | .ok _ => none
  else none

/-- What keeps a text from being read: too many parentheses, or what keeps the literal in it from being
read. Whether it is a literal does not depend on the type. -/
def textFault? (raw : List Char) : Option Fault :=
  (l.callFault? (unwrapCalls (stripCasts (strip raw)))).or <|
    match ofText (.plain .text) raw with
    | some (.text s) => typedFault? l t s.toList
    | _ => none

@[simp] theorem typedFault?_none (s : List Char) : typedFault? {} t s = none := by
  unfold typedFault?
  dsimp only
  split
  · next h => rw [Limits.readDigits_of_isNumeral h.2.2]
  · rfl

@[simp] theorem textFault?_none (raw : List Char) : textFault? {} t raw = none := by
  unfold textFault?
  rw [Limits.callFault?_none, Option.none_or]
  split
  · exact typedFault?_none t _
  · rfl

end Literal

/-- What keeps a raw default from being read for a column of a type. -/
def Default.rawFault? (l : Limits) (t : ColumnType) (raw : Option RawDefault)
    (literal : Bool := false) : Option Fault :=
  match raw with
  | some (.int n) => if t.family = .string then l.writeFault? [n] else none
  | some (.text s) =>
    if literal then Literal.typedFault? l t s.toList else Literal.textFault? l t s.toList
  | _ => none

@[simp] theorem Default.rawFault?_none (t : ColumnType) (raw : Option RawDefault) (literal : Bool) :
    rawFault? {} t raw literal = none := by
  unfold rawFault?
  split
  · split <;> rfl
  · split
    · exact Literal.typedFault?_none t _
    · exact Literal.textFault?_none t _
  · rfl

end Schemata
