/-
Module: GhostPour.Library.Calendar
Layer: Library
Purpose: The proleptic Gregorian calendar behind Python's aware `datetime`, with the month addition of
  `relativedelta(months=n)` that clips the day to the month, and day addition. Months are counted from January
  of year 1; instants are microseconds. The upper end of Python's range of years is not modelled. Readings of
  the UTC clock in microseconds from the start of year 1, the day and the month they lie in, and where those
  start. ISO texts of one width order as the readings they show.
Trusted boundary: human-reviewed spec
Main exports: DateTime, DateTime.instant, DateTime.addMonths, DateTime.addDays, Instant, Instant.day,
  Instant.dayStart, Instant.month, Instant.monthStart
-/
import Mathlib

namespace GhostPour

/-! ### Months -/

/-- `calendar.isleap`. -/
def isLeapYear (year : Nat) : Bool := year % 4 = 0 ∧ (year % 100 ≠ 0 ∨ year % 400 = 0)

/-- The number of days in a month: `calendar.monthrange(year, month)[1]`. -/
def daysInMonth (month : Nat) : Nat :=
  match month % 12 with
  | 1 => if isLeapYear (month / 12 + 1) then 29 else 28
  | 3 | 5 | 8 | 10 => 30
  | _ => 31

/-- The days of the year before a month, in a year that is not a leap year. -/
def daysBeforeInYear : Nat → Nat
  | 0 => 0
  | 1 => 31
  | 2 => 59
  | 3 => 90
  | 4 => 120
  | 5 => 151
  | 6 => 181
  | 7 => 212
  | 8 => 243
  | 9 => 273
  | 10 => 304
  | _ => 334

/-- The leap days in the first so many years. -/
def leapDays (years : Nat) : Nat := years / 4 - years / 100 + years / 400

/-- The days before the first of a month. -/
def daysBeforeMonth (month : Nat) : Nat :=
  365 * (month / 12) + leapDays (month / 12) + daysBeforeInYear (month % 12) +
    (if 2 ≤ month % 12 ∧ isLeapYear (month / 12 + 1) then 1 else 0)

theorem daysInMonth_pos (month : Nat) : 28 ≤ daysInMonth month := by
  unfold daysInMonth
  split <;> (try split) <;> omega

theorem daysInMonth_le (month : Nat) : daysInMonth month ≤ 31 := by
  unfold daysInMonth
  split <;> (try split) <;> omega

/-- A leap year adds its day to the count. -/
theorem leapDays_succ (years : Nat) :
    leapDays (years + 1) = leapDays years + if isLeapYear (years + 1) then 1 else 0 := by
  have fewer : years / 100 ≤ years / 4 := Nat.div_le_div_left (by decide) (by decide)
  unfold leapDays isLeapYear
  rw [Nat.succ_div, Nat.succ_div, Nat.succ_div]
  by_cases four : 4 ∣ years + 1
  · by_cases century : 100 ∣ years + 1
    · by_cases era : 400 ∣ years + 1
      · rw [if_pos four, if_pos century, if_pos era, if_pos (by simp; omega)]
        omega
      · rw [if_pos four, if_pos century, if_neg era, if_neg (by simp; omega)]
        omega
    · rw [if_pos four, if_neg century, if_neg (by omega), if_pos (by simp; omega)]
      omega
  · rw [if_neg four, if_neg (by omega), if_neg (by omega), if_neg (by simp; omega)]
    omega

/-- The months tile the calendar. -/
theorem daysBeforeMonth_succ (month : Nat) :
    daysBeforeMonth (month + 1) = daysBeforeMonth month + daysInMonth month := by
  obtain ⟨y, m, hm, rfl⟩ : ∃ y m, m < 12 ∧ month = 12 * y + m :=
    ⟨month / 12, month % 12, Nat.mod_lt _ (by decide), (Nat.div_add_mod _ _).symm⟩
  have year : (12 * y + m) / 12 = y := by omega
  have inYear : (12 * y + m) % 12 = m := by omega
  by_cases december : m = 11
  · subst december
    have nextYear : (12 * y + 11 + 1) / 12 = y + 1 := by omega
    have january : (12 * y + 11 + 1) % 12 = 0 := by omega
    simp only [daysBeforeMonth, daysInMonth, year, inYear, nextYear, january, daysBeforeInYear,
      leapDays_succ]
    by_cases leap : isLeapYear (y + 1) <;> simp [leap] <;> omega
  · have sameYear : (12 * y + m + 1) / 12 = y := by omega
    have nextMonth : (12 * y + m + 1) % 12 = m + 1 := by omega
    simp only [daysBeforeMonth, daysInMonth, year, inYear, sameYear, nextMonth]
    generalize isLeapYear (y + 1) = leap
    interval_cases m <;> cases leap <;> simp [daysBeforeInYear] at december ⊢

/-- Every month has at least 28 days. -/
theorem daysBeforeMonth_add (month n : Nat) :
    daysBeforeMonth month + 28 * n ≤ daysBeforeMonth (month + n) := by
  induction n with
  | zero => simp
  | succ n ih =>
      have next := daysBeforeMonth_succ (month + n)
      have long := daysInMonth_pos (month + n)
      rw [← Nat.add_assoc]
      omega

/-- A later month starts after an earlier one has ended. -/
theorem daysBeforeMonth_lt {earlier later : Nat} (before : earlier < later) :
    daysBeforeMonth earlier + daysInMonth earlier ≤ daysBeforeMonth later := by
  obtain ⟨n, rfl⟩ := Nat.exists_eq_add_of_lt before
  have far := daysBeforeMonth_add (earlier + 1) n
  rw [daysBeforeMonth_succ, show earlier + 1 + n = earlier + n + 1 by omega] at far
  omega

/-! ### Dates with a time -/

/-- The microseconds of a day. -/
abbrev microsPerDay : Nat := 86400000000

theorem microsPerDay_pos : 0 < microsPerDay := by decide

/-- An aware `datetime`: its month, day and time of day on the wall clock, and the offset of that
clock from UTC in microseconds. -/
@[ext] structure DateTime where
  month : Nat
  day : Nat
  micros : Nat
  offset : Int
  day_pos : 1 ≤ day
  day_le : day ≤ daysInMonth month
  micros_lt : micros < microsPerDay
deriving DecidableEq

namespace DateTime

/-- Midnight UTC of a day. -/
def midnight (month day : Nat) (pos : 1 ≤ day) (le : day ≤ daysInMonth month) : DateTime :=
  ⟨month, day, 0, 0, pos, le, microsPerDay_pos⟩

/-- The days before the day of a date. -/
def daysBefore (t : DateTime) : Nat := daysBeforeMonth t.month + (t.day - 1)

/-- The instant a date stands for, in microseconds; `<` and `<=` on aware dates compare it. -/
def instant (t : DateTime) : Int := t.daysBefore * microsPerDay + t.micros - t.offset

/-- `t + relativedelta(months=n)`: the day is clipped to the end of the month. -/
def addMonths (n : Nat) (t : DateTime) : DateTime where
  month := t.month + n
  day := min t.day (daysInMonth (t.month + n))
  micros := t.micros
  offset := t.offset
  day_pos := by have := t.day_pos; have := daysInMonth_pos (t.month + n); omega
  day_le := by omega
  micros_lt := t.micros_lt

/-- The same time on the next day. -/
def nextDay (t : DateTime) : DateTime :=
  if more : t.day < daysInMonth t.month then
    { t with day := t.day + 1, day_pos := by omega, day_le := more }
  else
    { t with month := t.month + 1, day := 1, day_pos := by omega,
             day_le := by have := daysInMonth_pos (t.month + 1); omega }

/-- `t + timedelta(days=n)`. -/
def addDays : Nat → DateTime → DateTime
  | 0, t => t
  | n + 1, t => addDays n t.nextDay

@[simp] theorem addMonths_month (n : Nat) (t : DateTime) : (t.addMonths n).month = t.month + n := rfl
@[simp] theorem addMonths_day (n : Nat) (t : DateTime) :
    (t.addMonths n).day = min t.day (daysInMonth (t.month + n)) := rfl
@[simp] theorem addMonths_micros (n : Nat) (t : DateTime) : (t.addMonths n).micros = t.micros := rfl
@[simp] theorem addMonths_offset (n : Nat) (t : DateTime) : (t.addMonths n).offset = t.offset := rfl

@[simp] theorem addMonths_zero (t : DateTime) : t.addMonths 0 = t := by
  have fits := t.day_le
  ext <;> simp [fits]

/-! ### Order -/

section
variable {a b : DateTime} (sameTime : a.micros = b.micros) (sameClock : a.offset = b.offset)
include sameTime sameClock

/-- At one time of day, the order of instants is the order of days. -/
theorem instant_le_iff : a.instant ≤ b.instant ↔ a.daysBefore ≤ b.daysBefore := by
  unfold instant
  rw [sameTime, sameClock]
  constructor <;> intro h <;> push_cast at * <;> omega

/-- A date of a later month is later. -/
theorem instant_lt_of_month_lt (later : a.month < b.month) : a.instant < b.instant := by
  rw [← not_le, instant_le_iff sameTime.symm sameClock.symm, not_le]
  have tiles := daysBeforeMonth_lt later
  have low := a.day_pos
  have high := a.day_le
  unfold daysBefore
  omega

/-- In one month the later day is later. -/
theorem instant_le_of_day_le (sameMonth : a.month = b.month) (later : a.day ≤ b.day) :
    a.instant ≤ b.instant := by
  rw [instant_le_iff sameTime sameClock]
  unfold daysBefore
  rw [sameMonth]
  omega

/-- Dates of one month, time and clock with one day are one date. -/
theorem eq_of_day_eq (sameMonth : a.month = b.month) (sameDay : a.day = b.day) : a = b :=
  DateTime.ext sameMonth sameDay sameTime sameClock

end

/-- `n` months are at least `28 * n` days less the days the clipping can cost. -/
theorem instant_addMonths_ge (n : Nat) (t : DateTime) :
    t.instant + (28 * n - 30 : Int) * microsPerDay ≤ (t.addMonths n).instant := by
  have far := daysBeforeMonth_add t.month n
  have low := (t.addMonths n).day_pos
  have high := t.day_le
  have short := daysInMonth_le t.month
  unfold instant daysBefore
  simp only [addMonths_month, addMonths_micros, addMonths_offset] at low ⊢
  push_cast
  omega

end DateTime

end GhostPour

namespace GhostPour

/-- A reading of the UTC clock. -/
abbrev Instant := Nat

/-- The microseconds of a second. -/
abbrev microsPerSecond : Nat := 1000000

namespace Instant

/-- The UTC date, as a number of days. -/
def day (t : Instant) : Nat := t / microsPerDay

/-- Midnight of the date. -/
def dayStart (t : Instant) : Instant := t.day * microsPerDay

/-- The month of the date: the last one that has begun. -/
def month (t : Instant) : Nat :=
  Nat.findGreatest (fun month => daysBeforeMonth month ≤ t.day) (t.day / 28)

/-- Midnight of the first of the month. -/
def monthStart (t : Instant) : Instant := daysBeforeMonth t.month * microsPerDay

/-- The reading without its microseconds. -/
def wholeSeconds (t : Instant) : Instant := t / microsPerSecond * microsPerSecond

variable {s t : Instant}

theorem wholeSeconds_le (t : Instant) : t.wholeSeconds ≤ t := Nat.div_mul_le_self t _

/-- The readings from midnight on are those of the day and of later days. -/
theorem dayStart_le_iff : t.dayStart ≤ s ↔ t.day ≤ s.day :=
  (Nat.le_div_iff_mul_le (by decide)).symm

theorem day_mono (le : s ≤ t) : s.day ≤ t.day := Nat.div_le_div_right le

/-- No later than now, what lies after midnight is of today. -/
theorem dayStart_le_iff_day (past : s ≤ t) : t.dayStart ≤ s ↔ s.day = t.day := by
  rw [dayStart_le_iff]
  have := day_mono past
  omega

theorem monthStart_le_day (t : Instant) : daysBeforeMonth t.month ≤ t.day := by
  unfold month
  exact Nat.findGreatest_spec (m := 0) (P := fun month => daysBeforeMonth month ≤ t.day)
    (Nat.zero_le _) (Nat.zero_le _)

/-- The next month has not begun. -/
theorem day_lt_month_succ (t : Instant) : t.day < daysBeforeMonth (t.month + 1) := by
  by_contra began
  rw [not_lt] at began
  have far := daysBeforeMonth_add 0 (t.month + 1)
  rw [Nat.zero_add] at far
  have within : t.month + 1 ≤ t.day / 28 := by
    rw [Nat.le_div_iff_mul_le (by decide)]
    omega
  have greatest := Nat.le_findGreatest (P := fun month => daysBeforeMonth month ≤ t.day) within began
  exact absurd greatest (Nat.not_succ_le_self _)

theorem month_le_iff (m : Nat) : m ≤ t.month ↔ daysBeforeMonth m ≤ t.day := by
  constructor
  · intro le
    refine le_trans ?_ t.monthStart_le_day
    obtain ⟨n, eq⟩ := Nat.exists_eq_add_of_le le
    have far := daysBeforeMonth_add m n
    rw [eq]
    omega
  · intro began
    by_contra later
    rw [not_le] at later
    have tiles := daysBeforeMonth_add (t.month + 1) (m - (t.month + 1))
    rw [Nat.add_sub_cancel' later] at tiles
    have next := t.day_lt_month_succ
    omega

theorem month_mono (le : s ≤ t) : s.month ≤ t.month := by
  rw [month_le_iff]
  exact le_trans s.monthStart_le_day (day_mono le)

/-- The readings from the first of a month on are those of the month and of later months. -/
theorem monthStart_le_iff : t.monthStart ≤ s ↔ t.month ≤ s.month := by
  rw [month_le_iff, day, Nat.le_div_iff_mul_le (by decide)]
  rfl

/-- No later than now, what lies after the first is of this month. -/
theorem monthStart_le_iff_month (past : s ≤ t) : t.monthStart ≤ s ↔ s.month = t.month := by
  rw [monthStart_le_iff]
  have := month_mono past
  omega

end Instant

end GhostPour
