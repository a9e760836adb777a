/-
Module: GhostPour.Library.IsoText
Layer: Library
Purpose: The texts of dates and times, as `datetime.isoformat` and SQLite's `datetime` write them, and
  the order of those texts. Texts that start with dates compare as the dates do, and where the dates
  are one, what separates date and time decides.
Trusted boundary: human-reviewed spec
Main exports: digits, DateTime.dateText, DateTime.isoformat, DateTime.ofInstant, Instant.sqliteText,
  append_lt_append_iff, DateTime.dateText_lt_iff, DateTime.isoformat_lt_sqliteText,
  DateTime.isoformat_lt_iff, DateTime.isoformat_mem_day
-/
import GhostPour.Library.Calendar
import GhostPour.Library.PyText

namespace GhostPour

/-! ### Texts of one length -/

section
variable {α : Type} [LinearOrder α] {s t u v : List α}

/-- Where two texts of one length go on, they compare first, and what follows them after that. -/
theorem append_lt_append_iff (length : s.length = t.length) :
    s ++ u < t ++ v ↔ s < t ∨ s = t ∧ u < v := by
  induction s generalizing t with
  | nil =>
      cases t with
      | nil => simp
      | cons b t => cases length
  | cons a s ih =>
      cases t with
      | nil => cases length
      | cons b t =>
          rw [List.cons_append, List.cons_append, List.cons_lt_cons_iff, List.cons_lt_cons_iff,
            ih (Nat.succ.inj length), List.cons.injEq]
          tauto

theorem append_le_append_iff (length : s.length = t.length) :
    s ++ u ≤ t ++ v ↔ s < t ∨ s = t ∧ u ≤ v := by
  rw [← not_lt, append_lt_append_iff length.symm]
  rcases lt_trichotomy s t with before | rfl | after
  · simp [before, before.not_gt, before.ne']
  · simp
  · simp [after, after.not_gt, after.ne']

end

/-! ### Digits -/

/-- Numbers compare as their quotients, and where these are one as their remainders. -/
theorem lt_iff_div_mod (m a b : Nat) : a < b ↔ a / m < b / m ∨ a / m = b / m ∧ a % m < b % m := by
  have splitA := Nat.div_add_mod a m
  have splitB := Nat.div_add_mod b m
  rcases lt_trichotomy (a / m) (b / m) with before | same | after
  · simp [before, Nat.lt_of_div_lt_div before]
  · rw [same] at splitA ⊢
    omega
  · simp [after.not_gt, after.ne', (Nat.lt_of_div_lt_div after).le]

/-- The last digits of a number, as many as asked for: `f"{n:02d}"` of a number that fits. -/
def digits : Nat → Nat → PyStr
  | 0, _ => []
  | width + 1, n => digits width (n / 10) ++ [48 + n % 10]

@[simp] theorem length_digits (width n : Nat) : (digits width n).length = width := by
  induction width generalizing n with
  | zero => rfl
  | succ width ih => rw [digits, List.length_append, ih, List.length_singleton]

/-- Numbers that fit are told apart by their digits, and ordered as they are. -/
theorem digits_lt_iff {width a b : Nat} (first : a < 10 ^ width) (second : b < 10 ^ width) :
    digits width a < digits width b ↔ a < b := by
  induction width generalizing a b with
  | zero =>
      rw [pow_zero, Nat.lt_one_iff] at first second
      simp [digits, first, second]
  | succ width ih =>
      rw [pow_succ] at first second
      have front := ih (Nat.div_lt_of_lt_mul (mul_comm _ 10 ▸ first))
        (Nat.div_lt_of_lt_mul (mul_comm _ 10 ▸ second))
      have back := ih (Nat.div_lt_of_lt_mul (mul_comm _ 10 ▸ second))
        (Nat.div_lt_of_lt_mul (mul_comm _ 10 ▸ first))
      have same : digits width (a / 10) = digits width (b / 10) ↔ a / 10 = b / 10 := by
        rw [eq_iff_le_not_lt, ← not_lt, front, back]
        omega
      rw [digits, digits, append_lt_append_iff (by simp), front, same, List.cons_lt_cons_iff]
      simp only [List.not_lt_nil, and_false, or_false]
      omega

theorem digits_inj {width a b : Nat} (first : a < 10 ^ width) (second : b < 10 ^ width) :
    digits width a = digits width b ↔ a = b := by
  rw [eq_iff_le_not_lt, eq_iff_le_not_lt, ← not_lt, ← not_lt, digits_lt_iff first second,
    digits_lt_iff second first]

/-- No greater number and no greater text after it. -/
theorem digits_append_le {width a b : Nat} {u v : PyStr} (fits : b < 10 ^ width) (le : a ≤ b)
    (rest : u ≤ v) : digits width a ++ u ≤ digits width b ++ v := by
  rw [append_le_append_iff (by simp), digits_lt_iff (le.trans_lt fits) fits,
    digits_inj (le.trans_lt fits) fits]
  rcases le.lt_or_eq with less | same
  · exact .inl less
  · exact .inr ⟨same, rest⟩

theorem cons_le_cons {c : Nat} {u v : PyStr} (rest : u ≤ v) : c :: u ≤ c :: v := by
  rw [← not_lt] at rest ⊢
  rw [List.cons_lt_cons_iff]
  rintro (smaller | ⟨-, before⟩)
  · exact lt_irrefl c smaller
  · exact rest before

/-! ### Dates and times -/

/-- `HH:MM:SS` of a time of day. -/
def secondsText (micros : Nat) : PyStr :=
  digits 2 (micros / (3600 * microsPerSecond)) ++ (colon ::
    (digits 2 (micros / (60 * microsPerSecond) % 60) ++ (colon ::
      digits 2 (micros / microsPerSecond % 60))))

/-- The fraction of a second, which is left out when it is zero. -/
def fractionText (micros : Nat) : PyStr :=
  if micros % microsPerSecond = 0 then [] else ord '.' :: digits 6 (micros % microsPerSecond)

/-- The UTC offset: hours and minutes, and seconds where there are any. -/
def offsetText (offset : Int) : PyStr :=
  let size := offset.natAbs
  (if offset < 0 then ord '-' else ord '+') ::
    (digits 2 (size / (3600 * microsPerSecond)) ++ (colon ::
      (digits 2 (size / (60 * microsPerSecond) % 60) ++
        (if size % (60 * microsPerSecond) = 0 then []
          else colon :: (digits 2 (size / microsPerSecond % 60) ++ fractionText size)))))

namespace DateTime

/-- The date of a reading of the UTC clock, at offset zero. -/
def ofInstant (t : Instant) : DateTime where
  month := t.month
  day := t.day - daysBeforeMonth t.month + 1
  micros := t % microsPerDay
  offset := 0
  day_pos := Nat.succ_pos _
  day_le := by
    have ends := t.day_lt_month_succ
    have starts := t.monthStart_le_day
    rw [daysBeforeMonth_succ] at ends
    omega
  micros_lt := Nat.mod_lt _ (by decide)

/-- `date.isoformat()`: `YYYY-MM-DD`. -/
def dateText (t : DateTime) : PyStr :=
  digits 4 (t.month / 12 + 1) ++ (ord '-' ::
    (digits 2 (t.month % 12 + 1) ++ (ord '-' :: digits 2 t.day)))

/-- `datetime.isoformat()` of an aware date. -/
def isoformat (t : DateTime) : PyStr :=
  t.dateText ++ (ord 'T' :: (secondsText t.micros ++ (fractionText t.micros ++ offsetText t.offset)))

/-- The year is one that `datetime` has. -/
def Dated (t : DateTime) : Prop := t.month < 12 * 9999

instance (t : DateTime) : Decidable t.Dated := inferInstanceAs (Decidable (_ < _))

end DateTime

/-- SQLite's `datetime(…)` of a reading: `YYYY-MM-DD HH:MM:SS`. -/
def Instant.sqliteText (t : Instant) : PyStr :=
  (DateTime.ofInstant t).dateText ++ (32 :: secondsText (DateTime.ofInstant t).micros)

namespace DateTime

variable {s t : DateTime}

@[simp] theorem length_dateText (t : DateTime) : t.dateText.length = 10 := by simp [dateText]

theorem day_lt (t : DateTime) : t.day < 100 := by
  have := t.day_le
  have := daysInMonth_le t.month
  omega

/-- The date text tells month and day apart. -/
theorem dateText_lt (first : s.Dated) (second : t.Dated) :
    s.dateText < t.dateText ↔ s.month < t.month ∨ s.month = t.month ∧ s.day < t.day := by
  unfold Dated at first second
  have year : s.month / 12 + 1 < 10 ^ 4 := by omega
  have year' : t.month / 12 + 1 < 10 ^ 4 := by omega
  have month : s.month % 12 + 1 < 10 ^ 2 := by omega
  have month' : t.month % 12 + 1 < 10 ^ 2 := by omega
  unfold dateText
  rw [append_lt_append_iff (by simp), digits_lt_iff year year', digits_inj year year',
    List.cons_lt_cons_iff, append_lt_append_iff (by simp), digits_lt_iff month month',
    digits_inj month month', List.cons_lt_cons_iff, digits_lt_iff s.day_lt t.day_lt]
  simp only [lt_self_iff_false, false_or, true_and]
  omega

theorem daysBefore_lt_iff (s t : DateTime) :
    s.daysBefore < t.daysBefore ↔ s.month < t.month ∨ s.month = t.month ∧ s.day < t.day := by
  have := s.day_pos
  have := s.day_le
  have := t.day_pos
  have := t.day_le
  unfold daysBefore
  rcases lt_trichotomy s.month t.month with before | same | after
  · have tiles := daysBeforeMonth_lt before
    omega
  · rw [same]
    omega
  · have tiles := daysBeforeMonth_lt after
    omega

/-- Texts of dates compare as their days. -/
theorem dateText_lt_iff (first : s.Dated) (second : t.Dated) :
    s.dateText < t.dateText ↔ s.daysBefore < t.daysBefore := by
  rw [dateText_lt first second, daysBefore_lt_iff]

theorem dateText_inj (first : s.Dated) (second : t.Dated) :
    s.dateText = t.dateText ↔ s.daysBefore = t.daysBefore := by
  rw [eq_iff_le_not_lt, eq_iff_le_not_lt, ← not_lt, ← not_lt, dateText_lt_iff first second,
    dateText_lt_iff second first]

/-! ### Readings of the clock -/

@[simp] theorem daysBefore_ofInstant (t : Instant) : (ofInstant t).daysBefore = t.day := by
  have starts := t.monthStart_le_day
  change daysBeforeMonth t.month + (t.day - daysBeforeMonth t.month + 1 - 1) = t.day
  omega

@[simp] theorem instant_ofInstant (t : Instant) : (ofInstant t).instant = t := by
  have whole : t.day * microsPerDay + t % microsPerDay = t := Nat.div_add_mod' t microsPerDay
  unfold instant
  rw [daysBefore_ofInstant]
  change ((t.day : Int) * (microsPerDay : Nat) + (t % microsPerDay : Nat) - 0 = t)
  rw [sub_zero]
  exact_mod_cast whole

/-- An ISO text is before the text of a cutoff exactly when its date is: on the date of the cutoff the
`T` comes after the space. -/
theorem isoformat_lt_sqliteText {c : Instant} (first : t.Dated) (second : (ofInstant c).Dated) :
    t.isoformat < c.sqliteText ↔ t.daysBefore < c.day := by
  unfold isoformat Instant.sqliteText
  rw [append_lt_append_iff (by simp), dateText_lt_iff first second, daysBefore_ofInstant,
    List.cons_lt_cons_iff]
  constructor
  · rintro (before | ⟨-, late | ⟨same, -⟩⟩)
    · exact before
    · exact absurd late (by decide)
    · exact absurd same (by decide)
  · exact .inl

/-! ### The order of readings -/

theorem length_secondsText (micros : Nat) : (secondsText micros).length = 8 := by simp [secondsText]

/-- The texts of two times of a day compare as their whole seconds. -/
theorem secondsText_lt_iff {a b : Nat} (first : a < microsPerDay) (second : b < microsPerDay) :
    secondsText a < secondsText b ↔ a / microsPerSecond < b / microsPerSecond := by
  have hours : ∀ {n : Nat}, n < microsPerDay → n / (3600 * microsPerSecond) < 10 ^ 2 := by
    intro n fits
    have day : n < 3600 * microsPerSecond * 24 := fits
    exact (Nat.div_lt_of_lt_mul day).trans (by decide)
  have sixty : ∀ n : Nat, n % 60 < 10 ^ 2 := fun n => (Nat.mod_lt n (by decide)).trans (by decide)
  unfold secondsText
  rw [append_lt_append_iff (by simp), digits_lt_iff (hours first) (hours second),
    digits_inj (hours first) (hours second), List.cons_lt_cons_iff, append_lt_append_iff (by simp),
    digits_lt_iff (sixty _) (sixty _), digits_inj (sixty _) (sixty _), List.cons_lt_cons_iff,
    digits_lt_iff (sixty _) (sixty _)]
  have whole : ∀ n : Nat, n / (3600 * microsPerSecond) = n / microsPerSecond / 60 / 60 ∧
      n / (60 * microsPerSecond) = n / microsPerSecond / 60 := by
    intro n
    constructor
    · exact (by rw [Nat.div_div_eq_div_mul, Nat.div_div_eq_div_mul] :
        n / microsPerSecond / 60 / 60 = n / (microsPerSecond * (60 * 60))).symm
    · exact (Nat.div_div_eq_div_mul n microsPerSecond 60).symm
  rw [(whole a).1, (whole a).2, (whole b).1, (whole b).2]
  simp only [lt_self_iff_false, false_or, true_and]
  omega

theorem secondsText_inj {a b : Nat} (first : a < microsPerDay) (second : b < microsPerDay) :
    secondsText a = secondsText b ↔ a / microsPerSecond = b / microsPerSecond := by
  rw [eq_iff_le_not_lt, eq_iff_le_not_lt, ← not_lt, ← not_lt, secondsText_lt_iff first second,
    secondsText_lt_iff second first]

/-- A fraction that is left out is before every other, as the `+` of an offset is before the point. -/
theorem fractionText_lt_iff (a b : Nat) :
    fractionText a ++ py "+00:00" < fractionText b ++ py "+00:00" ↔
      a % microsPerSecond < b % microsPerSecond := by
  have fits : ∀ n : Nat, n % microsPerSecond < 10 ^ 6 := fun n => Nat.mod_lt n (by decide)
  unfold fractionText
  by_cases wholeA : a % microsPerSecond = 0
  · by_cases wholeB : b % microsPerSecond = 0
    · simp [wholeA, wholeB]
    · rw [if_pos wholeA, if_neg wholeB, wholeA]
      exact iff_of_true (List.cons_lt_cons_iff.mpr (.inl (by decide))) (Nat.pos_of_ne_zero wholeB)
  · by_cases wholeB : b % microsPerSecond = 0
    · rw [if_neg wholeA, if_pos wholeB, wholeB]
      refine iff_of_false (fun before => ?_) (Nat.not_lt_zero _)
      rcases List.cons_lt_cons_iff.mp before with less | ⟨same, -⟩
      · exact absurd less (by decide)
      · exact absurd same (by decide)
    · rw [if_neg wholeA, if_neg wholeB, List.cons_append, List.cons_append, List.cons_lt_cons_iff,
        append_lt_append_iff (by simp), digits_lt_iff (fits a) (fits b)]
      simp

/-- The texts of two readings of the UTC clock compare as the readings. -/
theorem isoformat_lt_iff {s t : Instant} (first : (ofInstant s).Dated) (second : (ofInstant t).Dated) :
    (ofInstant s).isoformat < (ofInstant t).isoformat ↔ s < t := by
  have utc : ∀ r : Instant, offsetText (ofInstant r).offset = py "+00:00" := by
    intro r
    change offsetText 0 = _
    decide
  have fitsS := (ofInstant s).micros_lt
  have fitsT := (ofInstant t).micros_lt
  unfold isoformat
  rw [append_lt_append_iff (by simp), dateText_lt_iff first second, dateText_inj first second,
    daysBefore_ofInstant, daysBefore_ofInstant, List.cons_lt_cons_iff,
    append_lt_append_iff (by rw [length_secondsText, length_secondsText]),
    secondsText_lt_iff fitsS fitsT, secondsText_inj fitsS fitsT, utc, utc, fractionText_lt_iff]
  rw [← lt_iff_div_mod, lt_iff_div_mod microsPerDay s t]
  simp only [lt_self_iff_false, false_or, true_and]
  rfl

/-! ### The bounds of a day -/

theorem secondsText_append (micros : Nat) (rest : PyStr) :
    secondsText micros ++ rest = digits 2 (micros / (3600 * microsPerSecond)) ++ (colon ::
      (digits 2 (micros / (60 * microsPerSecond) % 60) ++ (colon ::
        (digits 2 (micros / microsPerSecond % 60) ++ rest)))) := by
  simp [secondsText]

/-- No time of the day is before midnight as texts go, with or without a fraction. -/
theorem midnight_le_time (micros : Nat) (fits : micros < microsPerDay) :
    py "00:00:00+00:00" ≤ secondsText micros ++ (fractionText micros ++ py "+00:00") := by
  have hours : micros / (3600 * microsPerSecond) < 24 := Nat.div_lt_of_lt_mul fits
  have minutes : micros / (60 * microsPerSecond) % 60 < 60 := Nat.mod_lt _ (by decide)
  have seconds : micros / microsPerSecond % 60 < 60 := Nat.mod_lt _ (by decide)
  have zeros : py "00:00:00+00:00" = digits 2 0 ++ (colon :: (digits 2 0 ++ (colon ::
      (digits 2 0 ++ py "+00:00")))) := by decide
  rw [secondsText_append, zeros]
  apply digits_append_le (hours.trans (by decide)) (Nat.zero_le _)
  apply cons_le_cons
  apply digits_append_le (minutes.trans (by decide)) (Nat.zero_le _)
  apply cons_le_cons
  apply digits_append_le (seconds.trans (by decide)) (Nat.zero_le _)
  unfold fractionText
  split
  · exact le_refl _
  · exact le_of_lt (List.cons_lt_cons_iff.mpr (.inl (by decide)))

/-- The last microsecond of the day is the last as texts go. -/
theorem time_le_lastMicrosecond (micros : Nat) (fits : micros < microsPerDay) :
    secondsText micros ++ (fractionText micros ++ py "+00:00") ≤ py "23:59:59.999999+00:00" := by
  have last : py "23:59:59.999999+00:00" = digits 2 23 ++ (colon :: (digits 2 59 ++ (colon ::
      (digits 2 59 ++ (ord '.' :: (digits 6 999999 ++ py "+00:00")))))) := by decide
  have hours : micros / (3600 * microsPerSecond) < 24 := Nat.div_lt_of_lt_mul fits
  have minutes : micros / (60 * microsPerSecond) % 60 < 60 := Nat.mod_lt _ (by decide)
  have seconds : micros / microsPerSecond % 60 < 60 := Nat.mod_lt _ (by decide)
  have fraction : micros % microsPerSecond < 1000000 := Nat.mod_lt _ (by decide)
  rw [secondsText_append, last]
  apply digits_append_le (by decide) (Nat.le_of_lt_succ hours)
  apply cons_le_cons
  apply digits_append_le (by decide) (Nat.le_of_lt_succ minutes)
  apply cons_le_cons
  apply digits_append_le (by decide) (Nat.le_of_lt_succ seconds)
  unfold fractionText
  split
  · exact le_of_lt (List.cons_lt_cons_iff.mpr (.inl (by decide)))
  · rw [List.cons_append]
    apply cons_le_cons
    exact digits_append_le (by decide) (Nat.le_of_lt_succ fraction) (le_refl _)

/-- The date text of a day. -/
def dayText (day : Nat) : PyStr := (ofInstant (day * microsPerDay)).dateText

theorem day_mul (day : Nat) : Instant.day (day * microsPerDay) = day :=
  Nat.mul_div_cancel day (by decide)

theorem dayText_inj {a b : Nat} (first : (ofInstant (a * microsPerDay)).Dated)
    (second : (ofInstant (b * microsPerDay)).Dated) : dayText a = dayText b ↔ a = b := by
  unfold dayText
  rw [dateText_inj first second, daysBefore_ofInstant, daysBefore_ofInstant, day_mul, day_mul]

/-- An earlier reading is in a year that `datetime` has. -/
theorem Dated.of_le {s t : Instant} (dated : (ofInstant t).Dated) (le : s ≤ t) :
    (ofInstant s).Dated :=
  (Instant.month_mono le).trans_lt dated

/-- Between the texts of the first and the last microsecond of a day lie the texts of its readings. -/
theorem isoformat_mem_day {x : Instant} {day : Nat} (first : (ofInstant x).Dated)
    (second : (ofInstant (day * microsPerDay)).Dated) :
    dayText day ++ py "T00:00:00+00:00" ≤ (ofInstant x).isoformat ∧
        (ofInstant x).isoformat ≤ dayText day ++ py "T23:59:59.999999+00:00" ↔
      x.day = day := by
  have start : py "T00:00:00+00:00" = ord 'T' :: py "00:00:00+00:00" := by decide
  have finish : py "T23:59:59.999999+00:00" = ord 'T' :: py "23:59:59.999999+00:00" := by decide
  have utc : offsetText (ofInstant x).offset = py "+00:00" := by
    change offsetText 0 = _
    decide
  have low := cons_le_cons (c := ord 'T') (midnight_le_time _ (ofInstant x).micros_lt)
  have high := cons_le_cons (c := ord 'T') (time_le_lastMicrosecond _ (ofInstant x).micros_lt)
  unfold dayText isoformat
  rw [start, finish, utc, append_le_append_iff (by simp), append_le_append_iff (by simp),
    dateText_lt_iff first second, dateText_lt_iff second first, dateText_inj first second,
    dateText_inj second first, daysBefore_ofInstant, daysBefore_ofInstant, day_mul]
  simp only [low, high, and_true]
  omega

end DateTime

end GhostPour
