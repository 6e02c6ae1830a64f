import Mathlib.Data.List.Forall2
import Schemata.Document.Checked
import Schemata.Limits
import Schemata.Proofs.Json.Grammar

/-!
# What a library promises

A library for checked values is used through what is known of it. `Validation.IsDocumented` says which
values its readers take and what is true of all that they take: a value of the declared sort is taken as
it stands, a record is made of its members, and bounds are kept. `Validation.DumpsText` says that JSON is
written as a text of it. Nothing is said of how values of other sorts are read, of how failures are
reported, or of how a text is laid out.
-/

namespace Schemata

namespace Check

variable {α : Type}

/-- A value is taken for something, wherever it stands. -/
def Takes (c : Check α) (j : Json) (a : α) : Prop := ∀ path, c path j = .valid a

/-- What some value is taken for. -/
def Gives (c : Check α) (a : α) : Prop := ∃ path j, c path j = .valid a

end Check

namespace Validation

structure IsDocumented (lib : Validation) : Prop where
  string (s : String) : lib.string.Takes (.str s) s
  bool (b : Bool) : lib.bool.Takes (.bool b) b
  float (x : Binary64) : lib.float.Takes (.float x) x
  bounded {low high : Option Int} {n : Int} (hlow : ∀ k ∈ low, k ≤ n) (hhigh : ∀ k ∈ high, n ≤ k) :
    (lib.bounded low high).Takes (.int n) n
  scalar (s : Scalar) : lib.scalar.Takes s.toJson s
  named {α : Type} {ofName? : String → Option α} {name : String} {a : α}
    (h : ofName? name = some a) : (lib.named ofName?).Takes (.str name) a
  parsed {α : Type} {parse : Json → Except String α} {j : Json} {a : α} (h : parse j = .ok a) :
    (lib.parsed parse).Takes j a
  nullable_null {α : Type} (c : Check α) : (lib.nullable c).Takes .null none
  nullable {α : Type} {c : Check α} {j : Json} {a : α} (h : c.Takes j a) (hj : j ≠ .null) :
    (lib.nullable c).Takes j (some a)
  list {α : Type} {c : Check α} {js : List Json} {as : List α} (h : List.Forall₂ c.Takes js as) :
    (lib.list c).Takes (.arr js) as
  nonempty {α : Type} {c : Check α} {js : List Json} {as : List α}
    (h : List.Forall₂ c.Takes js as) (hne : as ≠ []) : (lib.nonempty c).Takes (.arr js) as
  /-- A member that is there is read, under its own name first. -/
  member {α : Type} {key other : String} {default : Option α} {c : Check α} {j v : Json} {a : α}
    (hmember : (j.memberUnder? key other).map Prod.snd = some v) (h : c.Takes v a) :
    (lib.member key other default c).Takes j a
  both {α β : Type} {c : Check α} {d : Check β} {j : Json} {a : α} {b : β} (hc : c.Takes j a)
    (hd : d.Takes j b) : (lib.both c d).Takes j (a, b)
  record {α β : Type} {parts : Check α} {members : List (String × Json)} {a : α}
    (h : parts.Takes (.obj members) a) (make : α → β) :
    (lib.record parts make).Takes (.obj members) (make a)
  le_of_bounded {low n : Int} {high : Option Int} (h : (lib.bounded (some low) high).Gives n) :
    low ≤ n
  of_nullable {α : Type} {c : Check α} {a : α} (h : (lib.nullable c).Gives (some a)) : c.Gives a
  of_list {α : Type} {c : Check α} {as : List α} (h : (lib.list c).Gives as) : ∀ a ∈ as, c.Gives a
  of_nonempty {α : Type} {c : Check α} {as : List α} (h : (lib.nonempty c).Gives as) : as ≠ []
  of_member {α : Type} {key other : String} {default : Option α} {c : Check α} {a : α}
    (h : (lib.member key other default c).Gives a) : default = some a ∨ c.Gives a
  of_both {α β : Type} {c : Check α} {d : Check β} {a : α} {b : β}
    (h : (lib.both c d).Gives (a, b)) : c.Gives a ∧ d.Gives b
  of_record {α β : Type} {parts : Check α} {make : α → β} {b : β}
    (h : (lib.record parts make).Gives b) : ∃ a, parts.Gives a ∧ make a = b

/-- JSON is written as a text of it, where there is room for its whole numbers, and a finite number as a
numeral with a fraction or an exponent. -/
structure DumpsText (lib : Validation) (l : Limits) : Prop where
  floatText (negative : Bool) (m : Nat) (e : Int) : ∃ n : Json.Numeral, n.IsGood ∧
    ¬(n.fraction.isNone ∧ n.exponent.isNone) ∧
      (lib.floatText (.finite negative m e)).toList = n.chars
  exists_dump (style : Json.Style) {j : Json} (hj : ∀ limit, ¬l.Exceeds j.ints limit) :
    ∃ text, lib.dump style j = .ok text
  isText {style : Json.Style} {j : Json} {text : String} (h : lib.dump style j = .ok text) :
    Json.IsText (fun x => (lib.floatText x).toList) j text.toList

/-- A finite number whose text means the number itself. -/
def Keeps (lib : Validation) : Binary64 → Prop
  | .finite negative m e =>
    Binary64.ofText? (lib.floatText (.finite negative m e)).toList = some (.finite negative m e)
  | _ => False

instance (lib : Validation) (x : Binary64) : Decidable (lib.Keeps x) :=
  match x with
  | .finite .. => inferInstanceAs (Decidable (_ = _))
  | .infinite _ | .nan => isFalse id

theorem DumpsText.meansFloat {lib : Validation} {l : Limits} (h : lib.DumpsText l) {x : Binary64}
    (hx : lib.Keeps x) : Json.MeansFloat (lib.floatText x).toList x := by
  cases x with
  | finite negative m e =>
    obtain ⟨n, hgood, hsome, hchars⟩ := h.floatText negative m e
    refine ⟨n, hgood, ?_, hchars⟩
    have hmeans : Binary64.ofText? n.chars = some (.finite negative m e) := hchars ▸ hx
    rw [Json.Numeral.ofText?_chars hgood] at hmeans
    rw [Json.Numeral.value, if_neg hsome, Option.some.inj hmeans]
  | infinite _ => exact hx.elim
  | nan => exact hx.elim

namespace IsDocumented

variable {lib : Validation} {α : Type} {c : Check α} {a : α} {key other : String}

theorem nullable_ofOption (h : lib.IsDocumented) (s : Option String) :
    (lib.nullable lib.string).Takes (Json.ofOption s) s := by
  cases s with
  | none => exact h.nullable_null _
  | some s => exact h.nullable (h.string s) (by rintro ⟨⟩)

theorem nullable_bounded (h : lib.IsDocumented) {low : Int} {n : Option Int}
    (hn : ∀ k ∈ n, low ≤ k) :
    (lib.nullable (lib.bounded (some low) none)).Takes (n.elim .null .int) n := by
  cases n with
  | none => exact h.nullable_null _
  | some k => exact h.nullable (h.bounded (by simpa using hn) (by simp)) (by rintro ⟨⟩)

theorem nullable_scalar (h : lib.IsDocumented) (s : Option Scalar) :
    (lib.nullable lib.scalar).Takes (s.elim .null Scalar.toJson) s := by
  cases s with
  | none => exact h.nullable_null _
  | some s => exact h.nullable (h.scalar s) (by cases s <;> rintro ⟨⟩)

/-- Items are taken when each one is. -/
theorem list_map (h : lib.IsDocumented) {g : α → Json} {as : List α}
    (has : ∀ a ∈ as, c.Takes (g a) a) : (lib.list c).Takes (.arr (as.map g)) as := by
  apply h.list
  rw [List.forall₂_map_left_iff, List.forall₂_same]
  exact has

theorem list_strings (h : lib.IsDocumented) (items : List String) :
    (lib.list lib.string).Takes (Json.strings items) items := h.list_map fun s _ => h.string s

theorem nonempty_strings (h : lib.IsDocumented) {items : List String} (hne : items ≠ []) :
    (lib.nonempty lib.string).Takes (Json.strings items) items := by
  refine h.nonempty ?_ hne
  rw [List.forall₂_map_left_iff, List.forall₂_same]
  exact fun s _ => h.string s

theorem of_required (h : lib.IsDocumented) (ha : (lib.required key c other).Gives a) : c.Gives a :=
  (h.of_member ha).resolve_left (by simp)

theorem of_optional (h : lib.IsDocumented) {default : α}
    (ha : (lib.optional key c default other).Gives a) : a = default ∨ c.Gives a :=
  (h.of_member ha).imp_left fun heq => (Option.some.inj heq).symm

theorem le_of_optional (h : lib.IsDocumented) {low : Int} {n : Option Int}
    (hn : (lib.optional key (lib.nullable (lib.bounded (some low) none)) none other).Gives n) :
    ∀ k ∈ n, low ≤ k := by
  rintro k rfl
  obtain hnone | hsome := h.of_optional hn
  · cases hnone
  · exact h.le_of_bounded (h.of_nullable hsome)

/-- What is true of all that is taken is true of each item of a list. -/
theorem forall_mem_of_optional (h : lib.IsDocumented) {P : α → Prop} (hc : ∀ a, c.Gives a → P a)
    {as : List α} (has : (lib.optional key (lib.list c) [] other).Gives as) : ∀ a ∈ as, P a := by
  obtain rfl | has := h.of_optional has
  · simp
  · exact fun a ha => hc a (h.of_list has a ha)

end IsDocumented

end Validation

end Schemata
