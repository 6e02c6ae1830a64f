import Schemata.Fault

/-!
# Limits of the machine

What the machine that runs a conversion has room for. There may be a limit to the digits of a whole
number in a text, in either direction, and to the depth of nested calls. A limit that is missed ends
the run; without a number there is no limit.
-/

namespace Schemata

open Text

structure Limits where
  /-- The greatest number of digits that a whole number may have in a text. -/
  digits : Option Nat := none
  /-- How many calls may be nested when parentheses are taken off a text. -/
  calls : Option Nat := none
  deriving DecidableEq

namespace Limits

variable (l : Limits)

/-- Reads a whole number from its digits. The digits in front are counted, zeros too, before anything
else is looked at. -/
def readDigits (s : List Char) : Except Fault Nat :=
  let count := (s.takeWhile isDigit).length
  match l.digits.filter (· < count) with
  | some most => .error (.badNumeral (.tooLong most count))
  | none =>
    if isNumeral s then .ok (digitsValue s) else .error (.badNumeral (.malformed (String.ofList s)))

/-- What keeps some whole numbers from being written. -/
def writeFault? (ns : List Int) : Option Fault :=
  (l.digits.filter fun most => ns.any fun n => most < digitCount n).map fun most =>
    .badNumeral (.unwritable most)

/-- What keeps some calls from being nested. -/
def callFault? (calls : Nat) : Option Fault :=
  (l.calls.filter (· < calls)).map fun _ => .nestedTooDeeply

theorem readDigits_of_isNumeral {s : List Char} (h : isNumeral s = true) :
    ({} : Limits).readDigits s = .ok (digitsValue s) := if_pos h

@[simp] theorem callFault?_none (calls : Nat) : ({} : Limits).callFault? calls = none := rfl

variable {l} {ns : List Int}

/-- Among some numbers is one with more digits than the limit allows. -/
def Exceeds (l : Limits) (ns : List Int) (limit : Nat) : Prop :=
  l.digits = some limit ∧ ∃ n ∈ ns, limit < digitCount n

theorem callFault?_eq_none {calls : Nat} :
    l.callFault? calls = none ↔ ∀ most ∈ l.calls, calls ≤ most := by
  simp [callFault?]

theorem callFault?_mono {m n : Nat} (hle : m ≤ n) (h : l.callFault? n = none) :
    l.callFault? m = none :=
  callFault?_eq_none.2 fun most hmost => Nat.le_trans hle (callFault?_eq_none.1 h most hmost)

theorem writeFault?_eq_some {f : Fault} : l.writeFault? ns = some f ↔
    ∃ limit, l.Exceeds ns limit ∧ f = .badNumeral (.unwritable limit) := by
  unfold writeFault? Exceeds
  rw [Option.map_eq_some_iff]
  simp only [Option.filter_eq_some_iff, List.any_eq_true, decide_eq_true_eq, eq_comm (a := f)]

/-- Where the numbers of one list are written without fail, those of another decide. -/
theorem Exceeds.of_append {ms : List Int} {limit : Nat} (h : l.Exceeds (ms ++ ns) limit)
    (hms : l.writeFault? ms = none) : l.Exceeds ns limit := by
  obtain ⟨hlimit, n, hn, hlong⟩ := h
  refine ⟨hlimit, n, (List.mem_append.1 hn).resolve_left fun hm => ?_, hlong⟩
  have hsome := writeFault?_eq_some.2 ⟨limit, ⟨hlimit, n, hm, hlong⟩, rfl⟩
  rw [hms] at hsome
  cases hsome

end Limits

/-- A result, unless there is a fault. -/
def okUnless {α : Type} (x : Option Fault) (a : α) : Except Fault α := x.elim (.ok a) .error

/-- Goes on unless there is a fault. -/
def unlessFault (x : Option Fault) : Except Fault Unit := okUnless x ()

theorem unlessFault_eq_ok {x : Option Fault} : unlessFault x = .ok () ↔ x = none := by
  cases x <;> simp [unlessFault, okUnless]

@[simp] theorem unlessFault_eq_error {x : Option Fault} {f : Fault} :
    unlessFault x = .error f ↔ x = some f := by
  cases x <;> simp [unlessFault, okUnless]

end Schemata
