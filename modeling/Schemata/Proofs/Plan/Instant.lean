import Mathlib.Tactic.IntervalCases
import Schemata.Plan.Clock
import Schemata.Proofs.Text.Padded

/-!
# The order of moments

A later moment has a later date or time of day (`civil_before`): the years before it are at least as
many, in one year its months are, in one month its days, and on one day its seconds. Between the
years 1000 and 9999 every part of a token has a fixed width, so tokens have one length
(`length_token`) and are ordered as the moments that they stand for (`token_lt_token`).
-/

namespace Schemata

/-- A greater number is at least as far in a table as a smaller one. -/
theorem lastWithin_mono {f : Nat → Nat} {d d' b b' : Nat} (h : f 0 ≤ d) (hd : d ≤ d')
    (hb : b ≤ b') : lastWithin f d b ≤ lastWithin f d' b' := by
  by_contra hlt
  have hbound := lastWithin_le_bound f d b
  have hlater := lt_apply_of_lastWithin_lt (Nat.lt_of_not_le hlt) (by omega)
  have hearlier := apply_lastWithin_le h b
  omega

namespace Calendar

theorem daysOfYears_mono {a b : Nat} (h : a ≤ b) : daysOfYears a ≤ daysOfYears b := by
  obtain rfl | hlt := Nat.eq_or_lt_of_le h
  · exact Nat.le_refl _
  · unfold daysOfYears
    omega

/-- A month has at most 31 days. -/
theorem daysOfMonths_succ_le (leap : Bool) {m : Nat} (h : m < 12) :
    daysOfMonths leap (m + 1) ≤ daysOfMonths leap m + 31 := by
  cases leap <;> interval_cases m <;> decide

/-- December ends with the year. -/
theorem le_daysOfMonths (leap : Bool) : 366 ≤ daysOfMonths leap 11 + 32 := by
  cases leap <;> decide

end Calendar

open Calendar

/-! ## Dates and times of day -/

/-- The first part in which two dates and times differ is less in the first one. -/
def Civil.Before (a b : Civil) : Prop :=
  a.year < b.year ∨ a.year = b.year ∧ (a.month < b.month ∨ a.month = b.month ∧
    (a.day < b.day ∨ a.day = b.day ∧ (a.hour < b.hour ∨ a.hour = b.hour ∧
      (a.minute < b.minute ∨ a.minute = b.minute ∧ a.second < b.second))))

namespace Instant

theorem daysOfYears_years_le (i : Instant) : daysOfYears i.years ≤ i.days :=
  apply_lastWithin_le (Nat.zero_le _) _

/-- A moment comes before the end of its year. -/
theorem days_lt (i : Instant) : i.days < daysOfYears (i.years + 1) := by
  by_cases hlast : i.years + 1 ≤ i.days / 365
  · exact lt_apply_of_lastWithin_lt (Nat.lt_succ_self _) hlast
  · unfold daysOfYears
    omega

theorem years_le_years {i j : Instant} (h : i.days ≤ j.days) : i.years ≤ j.years :=
  lastWithin_mono (Nat.zero_le _) h (Nat.div_le_div_right h)

theorem years_lt (i : Instant) : i.years < 9999 := by
  by_contra hle
  have hyears := daysOfYears_years_le i
  have hmono := daysOfYears_mono (Nat.le_of_not_lt hle)
  have hdays : i.days < daysOfYears 9999 := Nat.div_lt_of_lt_mul i.seconds_lt
  omega

/-- The days of the year before a moment. -/
def dayOfYear (i : Instant) : Nat := i.days - daysOfYears i.years

/-- The full months of the year before a moment. -/
def months (i : Instant) : Nat :=
  lastWithin (daysOfMonths (isLeap (i.years + 1))) i.dayOfYear 11

theorem daysOfMonths_months_le (i : Instant) :
    daysOfMonths (isLeap (i.years + 1)) i.months ≤ i.dayOfYear :=
  apply_lastWithin_le (Nat.zero_le _) 11

theorem months_le (i : Instant) : i.months ≤ 11 := lastWithin_le_bound _ _ 11

theorem dayOfYear_lt (i : Instant) : i.dayOfYear < 366 := by
  have hlt := i.days_lt
  unfold dayOfYear
  unfold daysOfYears at *
  omega

/-- The days of the month before a moment. -/
def dayOfMonth (i : Instant) : Nat := i.dayOfYear - daysOfMonths (isLeap (i.years + 1)) i.months

theorem dayOfMonth_lt (i : Instant) : i.dayOfMonth < 32 := by
  unfold dayOfMonth
  obtain hlast | hlt := Nat.eq_or_lt_of_le i.months_le
  · have hyear := i.dayOfYear_lt
    have hmonths := le_daysOfMonths (isLeap (i.years + 1))
    rw [hlast]
    omega
  · have hmonth : i.dayOfYear < daysOfMonths (isLeap (i.years + 1)) (i.months + 1) :=
      lt_apply_of_lastWithin_lt (Nat.lt_succ_self _) hlt
    have hsucc := daysOfMonths_succ_le (isLeap (i.years + 1)) (m := i.months) (by omega)
    omega

section Order

variable {i j : Instant} (hyears : i.years = j.years)

include hyears

theorem dayOfYear_le_dayOfYear (h : i.days ≤ j.days) : i.dayOfYear ≤ j.dayOfYear := by
  unfold dayOfYear
  rw [hyears]
  exact Nat.sub_le_sub_right h _

theorem days_eq_days (h : i.dayOfYear = j.dayOfYear) : i.days = j.days := by
  have hi := i.daysOfYears_years_le
  have hj := j.daysOfYears_years_le
  unfold dayOfYear at h
  rw [hyears] at h hi
  omega

theorem months_le_months (h : i.dayOfYear ≤ j.dayOfYear) : i.months ≤ j.months := by
  unfold months
  rw [hyears]
  exact lastWithin_mono (Nat.zero_le _) h (Nat.le_refl _)

/-- In one month, a later day of the year is a later day of the month. -/
theorem dayOfMonth_lt_dayOfMonth (hmonths : i.months = j.months) (h : i.dayOfYear < j.dayOfYear) :
    i.dayOfMonth < j.dayOfMonth := by
  have hi := i.daysOfMonths_months_le
  unfold dayOfMonth
  rw [hyears, hmonths] at *
  omega

end Order

/-- On one day, a later moment has a later time of day. -/
theorem time_before {i j : Instant} (hdays : i.days = j.days) (h : i.seconds < j.seconds) :
    i.civil.hour < j.civil.hour ∨ i.civil.hour = j.civil.hour ∧
      (i.civil.minute < j.civil.minute ∨ i.civil.minute = j.civil.minute ∧
        i.civil.second < j.civil.second) := by
  show i.seconds % 86400 / 3600 < j.seconds % 86400 / 3600 ∨
    i.seconds % 86400 / 3600 = j.seconds % 86400 / 3600 ∧
      (i.seconds % 86400 / 60 % 60 < j.seconds % 86400 / 60 % 60 ∨
        i.seconds % 86400 / 60 % 60 = j.seconds % 86400 / 60 % 60 ∧
          i.seconds % 86400 % 60 < j.seconds % 86400 % 60)
  unfold days at hdays
  omega

/-- An earlier moment has an earlier date, or the same date and an earlier time of day. -/
theorem civil_before {i j : Instant} (h : i.seconds < j.seconds) : i.civil.Before j.civil := by
  have hdays : i.days ≤ j.days := Nat.div_le_div_right (Nat.le_of_lt h)
  obtain hyears | hyears := Nat.lt_or_eq_of_le (years_le_years hdays)
  · exact .inl (Nat.succ_lt_succ hyears)
  refine .inr ⟨congrArg (· + 1) hyears, ?_⟩
  have hday := dayOfYear_le_dayOfYear hyears hdays
  obtain hmonths | hmonths := Nat.lt_or_eq_of_le (months_le_months hyears hday)
  · exact .inl (Nat.succ_lt_succ hmonths)
  refine .inr ⟨congrArg (· + 1) hmonths, ?_⟩
  obtain hday | hday := Nat.lt_or_eq_of_le hday
  · exact .inl (Nat.succ_lt_succ (dayOfMonth_lt_dayOfMonth hyears hmonths hday))
  have hsame : i.dayOfMonth = j.dayOfMonth := by
    unfold dayOfMonth
    rw [hyears, hmonths, hday]
  exact .inr ⟨congrArg (· + 1) hsame, time_before (days_eq_days hyears hday) h⟩

end Instant

/-! ## Tokens -/

namespace Civil

open Text

/-- The parts of a date and a time have no more digits than a token has room for. -/
structure Fits (c : Civil) : Prop where
  year : 1000 ≤ c.year ∧ c.year < 10000
  month : c.month < 100
  day : c.day < 100
  hour : c.hour < 100
  minute : c.minute < 100
  second : c.second < 100

theorem Fits.toList_token {c : Civil} (h : c.Fits) : c.token.toList =
    digits 4 c.year ++ '_' :: (digits 2 c.month ++ '_' :: (digits 2 c.day ++ '_' ::
      (digits 2 c.hour ++ (digits 2 c.minute ++ digits 2 c.second)))) := by
  simp only [token, String.toList_append, toList_natText (w := 3) h.year.1 h.year.2,
    toList_padded (w := 1) h.month, toList_padded (w := 1) h.day, toList_padded (w := 1) h.hour,
    toList_padded (w := 1) h.minute, toList_padded (w := 1) h.second]
  simp

theorem Fits.length_token {c : Civil} (h : c.Fits) : c.token.length = 17 := by
  rw [← String.length_toList, h.toList_token]
  simp [length_digits]

/-- Whatever the year is, a token has digits and low lines only. -/
theorem forall_mem_token (c : Civil) : ∀ x ∈ c.token.toList, x.isDigit = true ∨ x = '_' := by
  have hyear : ∀ x ∈ (natText c.year).toList, x.isDigit = true ∨ x = '_' := fun x hx =>
    .inl (isDigit_of_mem_natText hx)
  have hpart : ∀ n, ∀ x ∈ (padded 2 n).toList, x.isDigit = true ∨ x = '_' := fun n x hx =>
    .inl (isDigit_of_mem_padded hx)
  have hline : ∀ x ∈ "_".toList, x.isDigit = true ∨ x = '_' := by simp
  simp only [token, String.toList_append, List.forall_mem_append]
  exact ⟨⟨⟨⟨⟨⟨⟨⟨hyear, hline⟩, hpart _⟩, hline⟩, hpart _⟩, hline⟩, hpart _⟩, hpart _⟩, hpart _⟩

/-- The part in which two dates and times differ is the first in which their tokens do. -/
theorem Before.token_lt {a b : Civil} (h : a.Before b) (ha : a.Fits) (hb : b.Fits) :
    a.token < b.token := by
  have mark : ∀ {x y : List Char}, x < y → '_' :: x < '_' :: y := fun hxy =>
    List.cons_lt_cons_iff.2 (.inr ⟨rfl, hxy⟩)
  rw [String.lt_iff, ha.toList_token, hb.toList_token]
  refine digits_append_lt hb.year.2 (h.imp_right (And.imp_right fun h => mark ?_))
  refine digits_append_lt hb.month (h.imp_right (And.imp_right fun h => mark ?_))
  refine digits_append_lt hb.day (h.imp_right (And.imp_right fun h => mark ?_))
  refine digits_append_lt hb.hour (h.imp_right (And.imp_right fun h => ?_))
  have hsecond : ∀ {n : Nat}, n < b.second → digits 2 n < digits 2 b.second := fun hn =>
    digits_lt hn hb.second
  exact digits_append_lt hb.minute (h.imp_right (And.imp_right hsecond))

end Civil

namespace Instant

/-- From year 1000 on all parts of a moment fit. -/
theorem fits_civil {i : Instant} (h : 1000 ≤ i.civil.year) : i.civil.Fits := by
  have hyears := i.years_lt
  have hmonths := i.months_le
  have hday := i.dayOfMonth_lt
  constructor
  · exact ⟨h, Nat.succ_lt_succ hyears⟩
  · show i.months + 1 < 100
    omega
  · show i.dayOfMonth + 1 < 100
    omega
  · show i.seconds % 86400 / 3600 < 100
    omega
  · show i.seconds % 86400 / 60 % 60 < 100
    omega
  · show i.seconds % 86400 % 60 < 100
    omega

theorem year_le_year {i j : Instant} (h : i.seconds ≤ j.seconds) : i.civil.year ≤ j.civil.year :=
  Nat.succ_le_succ (years_le_years (Nat.div_le_div_right h))

end Instant

namespace Stamp

theorem length_token {s : Stamp} (h : 1000 ≤ s.instant.civil.year) : s.token.length = 17 :=
  (Instant.fits_civil h).length_token

/-- From year 1000 on tokens are ordered as their moments. -/
theorem token_lt_token {s t : Stamp} (hyear : 1000 ≤ s.instant.civil.year)
    (h : s.instant.seconds < t.instant.seconds) : s.token < t.token := by
  have hlater : 1000 ≤ t.instant.civil.year :=
    Nat.le_trans hyear (Instant.year_le_year (Nat.le_of_lt h))
  exact (Instant.civil_before h).token_lt (Instant.fits_civil hyear) (Instant.fits_civil hlater)

end Stamp

end Schemata
