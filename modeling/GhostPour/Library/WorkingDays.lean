/-
Module: GhostPour.Library.WorkingDays
Layer: Library
Purpose: Days as numbers, and the working-day functions of spreadsheets on them: `WORKDAY` and
  `NETWORKDAYS` with Saturday and Sunday off. Numbering the working days turns the first into
  addition and the second into subtraction, and the numbering is monotone.
Trusted boundary: human-reviewed spec
Main exports: isWorkday, workday, networkdays, workIndex, workdayAt, workday_workdayAt,
  networkdays_workdayAt, workdaysIn, networkdays_eq_card, max_networkdays
-/
import Mathlib

namespace GhostPour

/-! ### Days

A day is counted from Monday, January 1 of year 1: its number is one less than `date.toordinal`. -/

/-- `date.weekday`: Monday is 0, Sunday is 6. -/
def weekday (d : Int) : Int := d % 7

/-- Monday to Friday. -/
def isWorkday (d : Int) : Bool := weekday d < 5

/-- The first working day after a day. -/
def workdayAfter (d : Int) : Int :=
  if weekday d = 4 then d + 3 else if weekday d = 5 then d + 2 else d + 1

/-- The last working day before a day. -/
def workdayBefore (d : Int) : Int :=
  if weekday d = 0 then d - 3 else if weekday d = 6 then d - 2 else d - 1

/-- `WORKDAY(d, k)`: the `k`-th working day after a day, before it for a negative `k`; the day
    itself for 0. -/
def workday (d : Int) : Int → Int
  | .ofNat k => workdayAfter^[k] d
  | .negSucc k => workdayBefore^[k + 1] d

/-- The working days among `n` days from a day on. -/
def countWorkdays (d : Int) : Nat → Nat
  | 0 => 0
  | n + 1 => countWorkdays d n + if isWorkday (d + n) then 1 else 0

/-- `NETWORKDAYS(a, b)`: the working days from one day to another, both ends counted; negative when
    the days are the other way round. -/
def networkdays (a b : Int) : Int :=
  if a ≤ b then countWorkdays a (b - a + 1).toNat else -countWorkdays b (a - b + 1).toNat

/-! ### Numbering the working days -/

/-- The working days before a day, counted from day 0. -/
def workIndex (d : Int) : Int := 5 * (d / 7) + min (d % 7) 5

/-- The working day with so many working days before it. -/
def workdayAt (n : Int) : Int := 7 * (n / 5) + n % 5

@[simp] theorem workIndex_workdayAt (n : Int) : workIndex (workdayAt n) = n := by
  unfold workIndex workdayAt
  omega

@[simp] theorem isWorkday_workdayAt (n : Int) : isWorkday (workdayAt n) = true := by
  unfold isWorkday weekday workdayAt
  rw [decide_eq_true_eq]
  omega

theorem workdayAt_workIndex {d : Int} (works : isWorkday d = true) :
    workdayAt (workIndex d) = d := by
  unfold isWorkday weekday at works
  rw [decide_eq_true_eq] at works
  unfold workIndex workdayAt
  omega

theorem workIndex_succ (d : Int) :
    workIndex (d + 1) = workIndex d + if isWorkday d then 1 else 0 := by
  unfold workIndex isWorkday weekday
  by_cases works : d % 7 < 5
  · rw [decide_eq_true works, if_pos rfl]
    omega
  · rw [decide_eq_false works, if_neg Bool.false_ne_true]
    omega

theorem workIndex_mono : Monotone workIndex := by
  intro a b le
  unfold workIndex
  omega

@[simp] theorem workdayAt_le_iff {m n : Int} : workdayAt m ≤ workdayAt n ↔ m ≤ n := by
  unfold workdayAt
  omega

@[simp] theorem workdayAt_inj {m n : Int} : workdayAt m = workdayAt n ↔ m = n := by
  unfold workdayAt
  omega

theorem workdayAt_mono : Monotone workdayAt := fun _ _ => workdayAt_le_iff.mpr

theorem workIndex_le_iff {a b : Int} (works : isWorkday a = true) (works' : isWorkday b = true) :
    workIndex a ≤ workIndex b ↔ a ≤ b := by
  rw [← workdayAt_le_iff, workdayAt_workIndex works, workdayAt_workIndex works']

theorem workIndex_inj {a b : Int} (works : isWorkday a = true) (works' : isWorkday b = true) :
    workIndex a = workIndex b ↔ a = b := by
  rw [← workdayAt_inj, workdayAt_workIndex works, workdayAt_workIndex works']

/-! ### The spreadsheet functions on working days -/

theorem workdayAfter_workdayAt (n : Int) : workdayAfter (workdayAt n) = workdayAt (n + 1) := by
  unfold workdayAfter weekday workdayAt
  split
  · omega
  · split
    · omega
    · omega

theorem workdayBefore_workdayAt (n : Int) : workdayBefore (workdayAt n) = workdayAt (n - 1) := by
  unfold workdayBefore weekday workdayAt
  split
  · omega
  · split
    · omega
    · omega

/-- On working days `WORKDAY` adds. -/
@[simp] theorem workday_workdayAt (n k : Int) : workday (workdayAt n) k = workdayAt (n + k) := by
  have after : ∀ (j : Nat) (m : Int), workdayAfter^[j] (workdayAt m) = workdayAt (m + j) := by
    intro j
    induction j with
    | zero => intro m; simp
    | succ j ih =>
        intro m
        rw [Function.iterate_succ_apply, workdayAfter_workdayAt, ih]
        congr 1
        omega
  have before : ∀ (j : Nat) (m : Int), workdayBefore^[j] (workdayAt m) = workdayAt (m - j) := by
    intro j
    induction j with
    | zero => intro m; simp
    | succ j ih =>
        intro m
        rw [Function.iterate_succ_apply, workdayBefore_workdayAt, ih]
        congr 1
        omega
  cases k with
  | ofNat k => exact after k n
  | negSucc k => exact before (k + 1) n

theorem workday_of_isWorkday {d : Int} (works : isWorkday d = true) (k : Int) :
    workday d k = workdayAt (workIndex d + k) := by
  conv_lhs => rw [← workdayAt_workIndex works, workday_workdayAt]

/-- Counting working days subtracts their numbers. -/
theorem countWorkdays_eq (d : Int) (n : Nat) :
    (countWorkdays d n : Int) = workIndex (d + n) - workIndex d := by
  induction n with
  | zero => simp [countWorkdays]
  | succ n ih =>
      rw [countWorkdays, Nat.cast_add, ih, Nat.cast_succ, ← add_assoc, workIndex_succ]
      split
      · simp; omega
      · simp

/-- `NETWORKDAYS` of a span in order, whatever its ends. -/
theorem networkdays_of_le {a b : Int} (le : a ≤ b) :
    networkdays a b = workIndex (b + 1) - workIndex a := by
  rw [networkdays, if_pos le, countWorkdays_eq]
  congr 2
  omega

/-! ### Counting a set of working days -/

/-- The working days from one day to another, both ends among them. -/
noncomputable def workdaysIn (a b : Int) : Finset Int := (Finset.Icc a b).filter fun d => isWorkday d

@[simp] theorem mem_workdaysIn {a b d : Int} :
    d ∈ workdaysIn a b ↔ (a ≤ d ∧ d ≤ b) ∧ isWorkday d = true := by
  rw [workdaysIn, Finset.mem_filter, Finset.mem_Icc]

theorem workdaysIn_of_lt {a b : Int} (lt : b < a) : workdaysIn a b = ∅ := by
  rw [workdaysIn, Finset.Icc_eq_empty (not_le.mpr lt), Finset.filter_empty]

/-- The days of a span up to a day are those of the span cut there. -/
theorem workdaysIn_filter_le (a b w : Int) :
    (workdaysIn a b).filter (· ≤ w) = workdaysIn a (min b w) := by
  ext d
  rw [Finset.mem_filter, mem_workdaysIn, mem_workdaysIn, le_min_iff]
  tauto

theorem card_workdaysIn_eq_countWorkdays (a : Int) (n : Nat) :
    (workdaysIn a (a + n - 1)).card = countWorkdays a n := by
  induction n with
  | zero => rw [workdaysIn_of_lt (by omega)]; rfl
  | succ n ih =>
      have grown : Finset.Icc a (a + (n + 1 : Nat) - 1) = insert (a + n) (Finset.Icc a (a + n - 1)) := by
        ext d
        rw [Finset.mem_insert, Finset.mem_Icc, Finset.mem_Icc]
        omega
      have fresh : a + n ∉ workdaysIn a (a + n - 1) := fun member => by
        have last := (mem_workdaysIn.mp member).1.2
        omega
      rw [countWorkdays, ← ih, workdaysIn, grown, Finset.filter_insert]
      split
      · exact Finset.card_insert_of_notMem fresh
      · rfl

/-- Between days in order `NETWORKDAYS` counts the working days. -/
theorem networkdays_eq_card {a b : Int} (le : a ≤ b) : networkdays a b = (workdaysIn a b).card := by
  rw [networkdays, if_pos le, ← card_workdaysIn_eq_countWorkdays]
  congr 3
  omega

/-- `MAX(0, NETWORKDAYS(a, b))` counts the working days, none where the days are the other way
    round. -/
theorem max_networkdays (a b : Int) : max 0 (networkdays a b) = (workdaysIn a b).card := by
  by_cases le : a ≤ b
  · rw [networkdays_eq_card le]
    exact max_eq_right (Int.natCast_nonneg _)
  · rw [workdaysIn_of_lt (not_le.mp le), networkdays, if_neg le]
    exact max_eq_left (neg_nonpos.mpr (Int.natCast_nonneg _))

/-- On working days in order `NETWORKDAYS` subtracts, counting both ends. -/
theorem networkdays_workdayAt {m n : Int} (le : m ≤ n) :
    networkdays (workdayAt m) (workdayAt n) = n - m + 1 := by
  rw [networkdays_of_le (workdayAt_le_iff.mpr le), workIndex_succ, isWorkday_workdayAt, if_pos rfl,
    workIndex_workdayAt, workIndex_workdayAt]
  omega

end GhostPour
