import Schemata.Text.Numeral

/-!
# Instants

Moments of the Gregorian calendar to the second, from the first second of year 1 to the last one of
year 9999, counted in seconds. `Instant.civil` gives the date and the time of day, found as the
greatest year and the greatest month that do not begin later; `Civil.token` writes them so that the
order of texts is the order of time.
-/

namespace Schemata

/-- The greatest number up to a bound at which `f` is at most `d`, or zero. -/
def lastWithin (f : Nat → Nat) (d : Nat) : (bound : Nat) → Nat
  | 0 => 0
  | k + 1 => if f (k + 1) ≤ d then k + 1 else lastWithin f d k

theorem lastWithin_le_bound (f : Nat → Nat) (d bound : Nat) : lastWithin f d bound ≤ bound := by
  induction bound with
  | zero => simp [lastWithin]
  | succ k ih => rw [lastWithin]; split <;> omega

theorem apply_lastWithin_le {f : Nat → Nat} {d : Nat} (h : f 0 ≤ d) (bound : Nat) :
    f (lastWithin f d bound) ≤ d := by
  induction bound with
  | zero => exact h
  | succ k ih => rw [lastWithin]; split <;> assumption

theorem lt_apply_of_lastWithin_lt {f : Nat → Nat} {d bound k : Nat} (hk : lastWithin f d bound < k)
    (hb : k ≤ bound) : d < f k := by
  induction bound with
  | zero => omega
  | succ b ih =>
    rw [lastWithin] at hk
    split at hk
    · omega
    · next h =>
      by_cases hkb : k = b + 1
      · subst hkb; omega
      · exact ih hk (by omega)

namespace Calendar

/-- The days of the first `y` years. -/
def daysOfYears (y : Nat) : Nat := 365 * y + y / 4 - y / 100 + y / 400

def isLeap (year : Nat) : Bool := year % 4 == 0 && (year % 100 != 0 || year % 400 == 0)

/-- The days of each month of a year. -/
def monthDays (leap : Bool) : List Nat :=
  [31, if leap then 29 else 28, 31, 30, 31, 30, 31, 31, 30, 31, 30, 31]

/-- The days of the first `m` months of a year. -/
def daysOfMonths (leap : Bool) (m : Nat) : Nat := ((monthDays leap).take m).foldl (· + ·) 0

/-- The seconds of the years from 1 to 9999. -/
def span : Nat := 86400 * daysOfYears 9999

end Calendar

/-- A moment, as the number of seconds since year 1 began. -/
structure Instant where
  seconds : Nat
  seconds_lt : seconds < Calendar.span
  deriving DecidableEq

/-- A date and a time of day. -/
structure Civil where
  year : Nat
  month : Nat
  day : Nat
  hour : Nat
  minute : Nat
  second : Nat
  deriving DecidableEq

namespace Civil

open Text

/-- The seconds from the beginning of year 1 to a date and a time. -/
def seconds (c : Civil) : Nat :=
  86400 * (Calendar.daysOfYears (c.year - 1) +
      Calendar.daysOfMonths (Calendar.isLeap c.year) (c.month - 1) + (c.day - 1)) +
    3600 * c.hour + 60 * c.minute + c.second

/-- The date and the time with low lines between, for names of files. -/
def token (c : Civil) : String :=
  natText c.year ++ "_" ++ padded 2 c.month ++ "_" ++ padded 2 c.day ++ "_" ++ padded 2 c.hour ++
    padded 2 c.minute ++ padded 2 c.second

/-- The date and the time in the international form. -/
def iso (c : Civil) : String :=
  padded 4 c.year ++ "-" ++ padded 2 c.month ++ "-" ++ padded 2 c.day ++ "T" ++ padded 2 c.hour ++
    ":" ++ padded 2 c.minute ++ ":" ++ padded 2 c.second

/-- Reads the international form, with any mark between the numbers; a fraction of a second is
dropped. -/
def ofText? (s : String) : Option Civil :=
  match (s.toList.splitOnP fun c => !c.isDigit).map digitsValue with
  | year :: month :: day :: hour :: minute :: second :: _ =>
    some ⟨year, month, day, hour, minute, second⟩
  | _ => none

end Civil

namespace Instant

/-- The moment at a number of seconds, before year 10000. -/
def ofSeconds? (n : Nat) : Option Instant :=
  if h : n < Calendar.span then some ⟨n, h⟩ else none

/-- The moment of a date and a time in the international form. -/
def ofText? (s : String) : Option Instant := (Civil.ofText? s).bind fun c => ofSeconds? c.seconds

/-- The full days before a moment. -/
def days (i : Instant) : Nat := i.seconds / 86400

/-- The full years before a moment. -/
def years (i : Instant) : Nat := lastWithin Calendar.daysOfYears i.days (i.days / 365)

def civil (i : Instant) : Civil :=
  let dayOfYear := i.days - Calendar.daysOfYears i.years
  let months := Calendar.daysOfMonths (Calendar.isLeap (i.years + 1))
  let month := lastWithin months dayOfYear 11
  let time := i.seconds % 86400
  { year := i.years + 1, month := month + 1, day := dayOfYear - months month + 1
    hour := time / 3600, minute := time / 60 % 60, second := time % 60 }

end Instant

end Schemata
