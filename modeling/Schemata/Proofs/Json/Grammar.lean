import Mathlib.Tactic.Common
import Schemata.Proofs.Json.Numeral

/-!
# The texts of JSON values

A value has many texts: blanks may stand between the parts of a text, and a character of a string may be
written by itself or by an escape. `IsText` says which texts a value has, given what is written for a
number with a fraction; the other things to know of a value are its whole numbers in the order of a text
(`ints`) and whether it is one that a reader can give at all (`IsReadable`).
-/

namespace Schemata.Json

/-! ## Texts -/

/-- What may stand between two parts of a text. -/
def IsBlanks (s : List Char) : Prop := ∀ c ∈ s, isSpace c = true

/-- A text that stands for a character in a string: the character, a short escape of it, its code unit
or its pair of code units. -/
inductive IsCharText : Char → List Char → Prop
  | self {c : Char} (hquote : c ≠ '"') (hslash : c ≠ '\\') (hcontrol : ¬c.toNat < 32) :
      IsCharText c [c]
  | short {c d : Char} (h : shortEscape? d = some c) : IsCharText c ['\\', d]
  | unit {c h₁ h₂ h₃ h₄ : Char} (h : hex4? h₁ h₂ h₃ h₄ = some c.toNat) :
      IsCharText c ['\\', 'u', h₁, h₂, h₃, h₄]
  | pair {h₁ h₂ h₃ h₄ l₁ l₂ l₃ l₄ : Char} {high low : Nat} (hhigh : hex4? h₁ h₂ h₃ h₄ = some high)
      (hlow : hex4? l₁ l₂ l₃ l₄ = some low) (hishigh : isHighSurrogate high = true)
      (hislow : isLowSurrogate low = true) :
      IsCharText (Char.ofNat (0x10000 + 1024 * (high - 0xD800) + (low - 0xDC00)))
        ['\\', 'u', h₁, h₂, h₃, h₄, '\\', 'u', l₁, l₂, l₃, l₄]

/-- What stands between the quotes of a string. -/
inductive IsStringText : List Char → List Char → Prop
  | nil : IsStringText [] []
  | cons {c : Char} {s t u : List Char} (hc : IsCharText c t) (hs : IsStringText s u) :
      IsStringText (c :: s) (t ++ u)

section

variable (floatText : Binary64 → List Char)

mutual

/-- A text of a value. -/
inductive IsText : Json → List Char → Prop
  | null : IsText null "null".toList
  | bool (b : Bool) : IsText (bool b) (if b then "true" else "false").toList
  | int (n : Int) : IsText (int n) (Text.intText n).toList
  | float (x : Binary64) : IsText (float x) (floatText x)
  | str {s : String} {t : List Char} (h : IsStringText s.toList t) :
      IsText (str s) ('"' :: (t ++ ['"']))
  | arr_nil {b : List Char} (hb : IsBlanks b) : IsText (arr []) ('[' :: (b ++ [']']))
  | arr_cons {b t u : List Char} {v : Json} {vs : List Json} (hb : IsBlanks b) (hv : IsText v t)
      (hvs : AreItems vs u) : IsText (arr (v :: vs)) ('[' :: (b ++ (t ++ (u ++ [']']))))
  | obj_nil {b : List Char} (hb : IsBlanks b) : IsText (obj []) ('\x7b' :: (b ++ ['\x7d']))
  | obj_cons {b t u : List Char} {key : String} {v : Json} {ms : List (String × Json)}
      (hb : IsBlanks b) (hm : IsMember key v t) (hms : AreMembers ms u) :
      IsText (obj ((key, v) :: ms)) ('\x7b' :: (b ++ (t ++ (u ++ ['\x7d']))))

/-- What stands behind an item, up to the closing bracket. -/
inductive AreItems : List Json → List Char → Prop
  | nil {b : List Char} (hb : IsBlanks b) : AreItems [] b
  | cons {b b' t u : List Char} {v : Json} {vs : List Json} (hb : IsBlanks b) (hb' : IsBlanks b')
      (hv : IsText v t) (hvs : AreItems vs u) : AreItems (v :: vs) (b ++ ',' :: (b' ++ (t ++ u)))

/-- A text of a member. -/
inductive IsMember : String → Json → List Char → Prop
  | mk {key : String} {v : Json} {k b b' t : List Char} (hk : IsStringText key.toList k)
      (hb : IsBlanks b) (hb' : IsBlanks b') (hv : IsText v t) :
      IsMember key v ('"' :: (k ++ '"' :: (b ++ ':' :: (b' ++ t))))

/-- What stands behind a member, up to the closing brace. -/
inductive AreMembers : List (String × Json) → List Char → Prop
  | nil {b : List Char} (hb : IsBlanks b) : AreMembers [] b
  | cons {b b' t u : List Char} {key : String} {v : Json} {ms : List (String × Json)}
      (hb : IsBlanks b) (hb' : IsBlanks b') (hm : IsMember key v t) (hms : AreMembers ms u) :
      AreMembers ((key, v) :: ms) (b ++ ',' :: (b' ++ (t ++ u)))

end

/-! ## What a reader can give -/

/-- A text is a numeral that means a number with a fraction. -/
def MeansFloat (t : List Char) (x : Binary64) : Prop :=
  ∃ n : Numeral, n.IsGood ∧ n.value = float x ∧ t = n.chars

mutual

/-- The values that are read back from their texts: each number is the one that its text means, and no
object has a key twice. -/
def IsReadable : Json → Prop
  | float x => MeansFloat (floatText x) x
  | arr items => AreReadable items
  | obj members => (members.map Prod.fst).Nodup ∧ MembersReadable members
  | _ => True

def AreReadable : List Json → Prop
  | [] => True
  | v :: vs => IsReadable v ∧ AreReadable vs

def MembersReadable : List (String × Json) → Prop
  | [] => True
  | (_, v) :: ms => IsReadable v ∧ MembersReadable ms

end

variable {floatText}

@[simp] theorem isReadable_null : IsReadable floatText null := by simp [IsReadable]

@[simp] theorem isReadable_bool (b : Bool) : IsReadable floatText (bool b) := by simp [IsReadable]

@[simp] theorem isReadable_int (n : Int) : IsReadable floatText (int n) := by simp [IsReadable]

@[simp] theorem isReadable_str (s : String) : IsReadable floatText (str s) := by simp [IsReadable]

@[simp] theorem isReadable_float (x : Binary64) :
    IsReadable floatText (float x) ↔ MeansFloat (floatText x) x := by simp [IsReadable]

@[simp] theorem isReadable_arr (items : List Json) :
    IsReadable floatText (arr items) ↔ ∀ v ∈ items, IsReadable floatText v := by
  rw [IsReadable]
  induction items with
  | nil => simp [AreReadable]
  | cons v vs ih => rw [AreReadable, List.forall_mem_cons, ih]

@[simp] theorem isReadable_obj (members : List (String × Json)) :
    IsReadable floatText (obj members) ↔
      (members.map Prod.fst).Nodup ∧ ∀ m ∈ members, IsReadable floatText m.2 := by
  have hall : MembersReadable floatText members ↔ ∀ m ∈ members, IsReadable floatText m.2 := by
    induction members with
    | nil => simp [MembersReadable]
    | cons m ms ih => rw [MembersReadable, List.forall_mem_cons, ih]
  rw [IsReadable, hall]

@[simp] theorem isReadable_ofOption (s : Option String) : IsReadable floatText (ofOption s) := by
  cases s <;> simp [ofOption]

@[simp] theorem isReadable_strings (items : List String) : IsReadable floatText (strings items) := by
  simp [strings]

end

/-! ## Whole numbers -/

mutual

/-- The whole numbers of a value, in the order in which they stand in a text. -/
def ints : Json → List Int
  | int n => [n]
  | arr items => itemInts items
  | obj members => memberInts members
  | _ => []

def itemInts : List Json → List Int
  | [] => []
  | v :: vs => ints v ++ itemInts vs

def memberInts : List (String × Json) → List Int
  | [] => []
  | (_, v) :: ms => ints v ++ memberInts ms

end

@[simp] theorem ints_null : ints null = [] := by simp [ints]

@[simp] theorem ints_bool (b : Bool) : ints (bool b) = [] := by simp [ints]

@[simp] theorem ints_int (n : Int) : ints (int n) = [n] := by simp [ints]

@[simp] theorem ints_float (x : Binary64) : ints (float x) = [] := by simp [ints]

@[simp] theorem ints_str (s : String) : ints (str s) = [] := by simp [ints]

@[simp] theorem ints_arr (items : List Json) : ints (arr items) = items.flatMap ints := by
  rw [ints]
  induction items with
  | nil => rfl
  | cons v vs ih => rw [itemInts, List.flatMap_cons, ih]

@[simp] theorem ints_obj (members : List (String × Json)) :
    ints (obj members) = members.flatMap fun m => ints m.2 := by
  rw [ints]
  induction members with
  | nil => rfl
  | cons m ms ih => rw [memberInts, List.flatMap_cons, ih]

@[simp] theorem ints_ofOption (s : Option String) : ints (ofOption s) = [] := by
  cases s <;> simp [ofOption]

@[simp] theorem ints_strings (items : List String) : ints (strings items) = [] := by
  simp [strings, List.flatMap_map]

end Schemata.Json
