/-
The calendar `datetime` counts days by, and periods of calendar months.

`ordinal` is `date.toordinal`: day 1 is the first of January of year 1.
A period of `n` months ends on the day of the month it began on, at the
same time of day, or on the last day of a month that is too short.
-/
import Mathlib.Algebra.Ring.Int.Defs
import ResumeScreening.Py.Builtins

namespace ResumeScreening.Py

def isLeap (y : Int) : Bool :=
  y % 4 == 0 && (y % 100 != 0 || y % 400 == 0)

def daysInMonth (y m : Int) : Int :=
  if m = 2 then if isLeap y then 29 else 28
  else if m = 4 ∨ m = 6 ∨ m = 9 ∨ m = 11 then 30
  else 31

/-- The days before the first of January of a year. -/
def daysBeforeYear (y : Int) : Int :=
  (y - 1) * 365 + (y - 1) / 4 - (y - 1) / 100 + (y - 1) / 400

/-- The days of a year before the first of a month. -/
def daysBeforeMonth (y m : Int) : Int :=
  ((List.range (m - 1).toNat).map fun (k : Nat) => daysInMonth y (k + 1)).sum

structure Date where
  year : Int
  month : Int
  day : Int
  month_range : 1 ≤ month ∧ month ≤ 12
  day_range : 1 ≤ day ∧ day ≤ daysInMonth year month

namespace Date

def ordinal (d : Date) : Int :=
  daysBeforeYear d.year + daysBeforeMonth d.year d.month + d.day

theorem one_le_daysInMonth (y m : Int) : 1 ≤ daysInMonth y m := by
  unfold daysInMonth
  split
  · split <;> omega
  · split <;> omega

/-- The same day `n` months on, or the last day of that month. -/
def addMonths (d : Date) (n : Int) : Date where
  year := (12 * d.year + (d.month - 1) + n) / 12
  month := (12 * d.year + (d.month - 1) + n) % 12 + 1
  day := min d.day (daysInMonth ((12 * d.year + (d.month - 1) + n) / 12)
    ((12 * d.year + (d.month - 1) + n) % 12 + 1))
  month_range := by omega
  day_range := by
    have hday := d.day_range.1
    have hlast := one_le_daysInMonth
      ((12 * d.year + (d.month - 1) + n) / 12)
      ((12 * d.year + (d.month - 1) + n) % 12 + 1)
    omega

end Date

/-- The ordinal of the first of January 1970. -/
def epochOrdinal : Int := 719163

def dayMicros : Int := 86400000000

/-- The instant at a time of a day. -/
def instant (d : Date) (time : Int) : Int :=
  (d.ordinal - epochOrdinal) * dayMicros + time

/-- `stop` lies `n` calendar months after `start`. -/
def MonthsLater (n : Int) (start stop : DateTime) : Prop :=
  ∃ (d : Date) (time : Int), 0 ≤ time ∧ time < dayMicros
    ∧ start.micros = instant d time
    ∧ stop.micros = instant (d.addMonths n) time

-- ==================================================================== a year

/-- One more in a leap year. -/
def leapDay (y : Int) : Int := if isLeap y then 1 else 0

theorem daysBeforeYear_succ (y : Int) :
    daysBeforeYear (y + 1) = daysBeforeYear y + 365 + leapDay y := by
  unfold daysBeforeYear leapDay isLeap
  simp only [Bool.and_eq_true, Bool.or_eq_true, beq_iff_eq, bne_iff_ne, ne_eq]
  split <;> omega

theorem daysInMonth_leap (y m : Int) :
    daysInMonth y m = daysInMonth 1 m + if m = 2 then leapDay y else 0 := by
  unfold daysInMonth leapDay
  by_cases hm : m = 2
  · simp only [hm, if_true]
    by_cases hy : isLeap y = true
    · rw [if_pos hy, if_pos hy, if_neg (by decide)]
      rfl
    · rw [if_neg hy, if_neg hy, if_neg (by decide)]
      rfl
  · simp only [hm, if_false]
    omega

theorem daysBefore_leap (y : Int) (n : Nat) :
    ((List.range n).map fun (k : Nat) => daysInMonth y (k + 1)).sum
      = ((List.range n).map fun (k : Nat) => daysInMonth 1 (k + 1)).sum
        + if 2 ≤ n then leapDay y else 0 := by
  induction n with
  | zero => rfl
  | succ n ih =>
      rw [List.range_succ, List.map_append, List.map_append, List.sum_append,
        List.sum_append, ih]
      simp only [List.map_cons, List.map_nil, List.sum_cons, List.sum_nil]
      rw [daysInMonth_leap]
      split <;> split <;> split <;> omega

theorem daysBeforeMonth_leap (y m : Int) (hm : 1 ≤ m) :
    daysBeforeMonth y m
      = daysBeforeMonth 1 m + if 2 < m then leapDay y else 0 := by
  unfold daysBeforeMonth
  rw [daysBefore_leap]
  by_cases h : 2 < m
  · rw [if_pos h, if_pos (by omega)]
  · rw [if_neg h, if_neg (by omega)]

/-- The same date a year later is at least 365 days on. -/
theorem ordinal_addMonths_twelve (d : Date) :
    d.ordinal + 365 ≤ (d.addMonths 12).ordinal := by
  have hm := d.month_range
  have hd := d.day_range
  have hyear : (12 * d.year + (d.month - 1) + 12) / 12 = d.year + 1 := by omega
  have hmonth : (12 * d.year + (d.month - 1) + 12) % 12 + 1 = d.month := by
    omega
  unfold Date.ordinal Date.addMonths
  simp only [hyear, hmonth]
  rw [daysBeforeYear_succ, daysBeforeMonth_leap d.year d.month hm.1,
    daysBeforeMonth_leap (d.year + 1) d.month hm.1]
  rw [daysInMonth_leap] at hd ⊢
  have hthis : 0 ≤ leapDay d.year ∧ leapDay d.year ≤ 1 := by
    unfold leapDay
    split <;> omega
  have hnext : 0 ≤ leapDay (d.year + 1) ∧ leapDay (d.year + 1) ≤ 1 := by
    unfold leapDay
    split <;> omega
  split
  next => split at hd <;> split <;> omega
  next => split at hd <;> split <;> omega

/-- A period of twelve months is at least 365 days. -/
theorem MonthsLater.year {start stop : DateTime} (h : MonthsLater 12 start stop) :
    365 * dayMicros ≤ stop.micros - start.micros := by
  obtain ⟨d, time, -, -, hstart, hstop⟩ := h
  have hlong := ordinal_addMonths_twelve d
  rw [hstart, hstop]
  unfold instant dayMicros
  omega

end ResumeScreening.Py
