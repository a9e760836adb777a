/-
Module: GhostPour.N400.Proofs.DateSpans
Layer: Proofs
Purpose: What the values of dated rows mean: the days of the calendar each can stand for, and when the
  comparison of two spans as texts is the comparison of these days.
Trusted boundary: none
Main exports: CalendarDate, Means, SurelyLater, ComparesRight, certainlyInverted_iff_surelyLater_iff,
  comparesRight_of_ascii
-/
import GhostPour.Library.RegexLanguage
import GhostPour.N400.Refusals

namespace GhostPour.N400

open Regex

/-! ### Days -/

/-- A day of the calendar. -/
structure CalendarDate where
  year : Nat
  month : Nat
  day : Nat
  month_pos : 1 ≤ month
  month_le : month ≤ 12
  day_pos : 1 ≤ day
  day_le : day ≤ lastDayOfMonth year month

theorem lastDayOfMonth_cases (year month : Nat) :
    lastDayOfMonth year month = 28 ∨ lastDayOfMonth year month = 29 ∨
      lastDayOfMonth year month = 30 ∨ lastDayOfMonth year month = 31 := by
  unfold lastDayOfMonth
  split
  · split <;> simp
  · split <;> simp

namespace CalendarDate

/-- The day comes before the other. -/
def Before (a b : CalendarDate) : Prop :=
  a.year < b.year ∨ a.year = b.year ∧ (a.month < b.month ∨ a.month = b.month ∧ a.day < b.day)

/-- A number in the order of the days: the digits of the day, with a zero for each hyphen. -/
def key (a : CalendarDate) : Nat := a.year * 1000000 + a.month * 1000 + a.day

theorem day_lt (a : CalendarDate) : a.day < 100 := by
  have le := a.day_le
  have := lastDayOfMonth_cases a.year a.month
  omega

theorem before_iff (a b : CalendarDate) : a.Before b ↔ a.key < b.key := by
  have := a.month_le
  have := b.month_le
  have := a.day_lt
  have := b.day_lt
  unfold Before key
  omega

/-- The first of a month. -/
def monthStart (year month : Nat) (pos : 1 ≤ month) (le : month ≤ 12) : CalendarDate where
  year := year
  month := month
  day := 1
  month_pos := pos
  month_le := le
  day_pos := Nat.one_pos
  day_le := by have := lastDayOfMonth_cases year month; omega

/-- The last of a month. -/
def monthEnd (year month : Nat) (pos : 1 ≤ month) (le : month ≤ 12) : CalendarDate where
  year := year
  month := month
  day := lastDayOfMonth year month
  month_pos := pos
  month_le := le
  day_pos := by have := lastDayOfMonth_cases year month; omega
  day_le := le_refl _

end CalendarDate

/-! ### What a value means -/

/-- A date in one of the three precisions. -/
inductive DateReading where
  | year (year : Nat)
  | month (year month : Nat)
  | day (year month day : Nat)
deriving DecidableEq

/-- The days a reading leaves open. -/
def DateReading.Allows : DateReading → CalendarDate → Prop
  | .year y, date => date.year = y
  | .month y m, date => date.year = y ∧ date.month = m
  | .day y m d, date => date.year = y ∧ date.month = m ∧ date.day = d

section
variable [PyRuntime]

/-- The worth of a text's digits; any other character is a zero. -/
def worth (text : PyStr) : Nat := text.foldl (fun n c => 10 * n + (decimal c).getD 0) 0

/-- The date of a match: a year, a year and a month, or a whole date. -/
def readingOf (m : Match) : Option DateReading :=
  match m.group 2, m.group 3 with
  | some month, some day => some (.day (worth (groupText m 1)) (worth month) (worth day))
  | some month, none => some (.month (worth (groupText m 1)) (worth month))
  | none, none => some (.year (worth (groupText m 1)))
  | none, some _ => none

/-- The date that a value starts with. -/
def readDate (value : Json) : Option DateReading :=
  match value with
  | .str s => (matchStart isoPrefix s).bind readingOf
  | _ => none

/-- The value can stand for the day. -/
def Means (value : Json) (date : CalendarDate) : Prop :=
  ∃ reading, readDate value = some reading ∧ reading.Allows date

/-- Each value can stand for some day, and the start, whatever day it means, comes after the end. -/
def SurelyLater (start finish : Json) : Prop :=
  (∃ date, Means start date) ∧ (∃ date, Means finish date) ∧
    ∀ first last, Means start first → Means finish last → last.Before first

/-! ### Digits -/

/-- So many decimal digits. -/
def Digits (n : Nat) (t : PyStr) : Prop := t.length = n ∧ ∀ x ∈ t, isDecimal x = true

theorem foldl_worth (t : PyStr) (n : Nat) :
    t.foldl (fun n c => 10 * n + (decimal c).getD 0) n = n * 10 ^ t.length + worth t := by
  unfold worth
  induction t generalizing n with
  | nil => simp
  | cons c t ih =>
      rw [List.foldl_cons, List.foldl_cons, ih, ih (10 * 0 + (decimal c).getD 0), List.length_cons,
        pow_succ]
      ring

theorem worth_append (a b : PyStr) : worth (a ++ b) = worth a * 10 ^ b.length + worth b := by
  rw [worth, List.foldl_append, foldl_worth]
  rfl

theorem worth_hyphen : worth (py "-") = 0 := by
  rw [worth, show py "-" = [45] from rfl, List.foldl_cons, List.foldl_nil,
    PyRuntime.decimal_ascii 45 (by decide)]
  rfl

theorem worth_lt (t : PyStr) : worth t < 10 ^ t.length := by
  induction t using List.reverseRecOn with
  | nil => exact Nat.one_pos
  | append_singleton t c ih =>
      have digit : (decimal c).getD 0 < 10 := by
        cases value : decimal c with
        | none => decide
        | some d => exact PyRuntime.decimal_lt c d value
      rw [worth, List.foldl_append, List.foldl_cons, List.foldl_nil, List.length_append,
        List.length_singleton, pow_succ]
      change 10 * worth t + _ < _
      omega

/-- `int` of decimal digits. -/
theorem natOfDecimals_digits {t : PyStr} (nonempty : t ≠ []) (digits : ∀ x ∈ t, isDecimal x = true) :
    natOfDecimals t = some (worth t) := by
  have folds : ∀ n, t.foldlM (fun n c => (decimal c).map (10 * n + ·)) n =
      some (t.foldl (fun n c => 10 * n + (decimal c).getD 0) n) := by
    clear nonempty
    induction t with
    | nil => exact fun n => rfl
    | cons c t ih =>
        intro n
        rw [List.forall_mem_cons] at digits
        obtain ⟨d, value⟩ := Option.isSome_iff_exists.mp digits.1
        rw [List.foldlM_cons, List.foldl_cons, value]
        exact ih digits.2 _
  rw [natOfDecimals, if_neg nonempty, folds]
  rfl

theorem decimal_digit {c : Nat} (ascii : isAsciiDigit c = true) : decimal c = some (c - 48) := by
  have bounds := ascii
  rw [isAsciiDigit, Bool.and_eq_true, decide_eq_true_eq, decide_eq_true_eq] at bounds
  rw [PyRuntime.decimal_ascii c (by omega), if_pos ascii]

theorem worth_pair {a b : Nat} (first : isAsciiDigit a = true) (second : isAsciiDigit b = true) :
    worth [a, b] = 10 * (a - 48) + (b - 48) := by
  rw [worth, List.foldl_cons, List.foldl_cons, List.foldl_nil, decimal_digit first,
    decimal_digit second, Option.getD_some, Option.getD_some]
  omega

theorem digits_pair {a b : Nat} (first : isAsciiDigit a = true) (second : isAsciiDigit b = true) :
    Digits 2 [a, b] := by
  refine ⟨rfl, fun x member => ?_⟩
  rcases List.mem_pair.mp member with rfl | rfl
  · rw [isDecimal, decimal_digit first]
    rfl
  · rw [isDecimal, decimal_digit second]
    rfl

theorem worth_lastDay (year month : Nat) :
    worth (strOfNat (lastDayOfMonth year month)) = lastDayOfMonth year month ∧
      Digits 2 (strOfNat (lastDayOfMonth year month)) := by
  rcases lastDayOfMonth_cases year month with last | last | last | last <;> rw [last]
  · exact ⟨@worth_pair _ 50 56 rfl rfl, @digits_pair _ 50 56 rfl rfl⟩
  · exact ⟨@worth_pair _ 50 57 rfl rfl, @digits_pair _ 50 57 rfl rfl⟩
  · exact ⟨@worth_pair _ 51 48 rfl rfl, @digits_pair _ 51 48 rfl rfl⟩
  · exact ⟨@worth_pair _ 51 49 rfl rfl, @digits_pair _ 51 49 rfl rfl⟩

/-- The text of a date is worth its key. -/
theorem worth_date {month day : PyStr} (year : PyStr) (m : month.length = 2) (d : day.length = 2) :
    worth (year ++ py "-" ++ month ++ py "-" ++ day) =
      worth year * 1000000 + worth month * 1000 + worth day := by
  have one : (py "-").length = 1 := rfl
  rw [worth_append, worth_append, worth_append, worth_append, worth_hyphen, m, d, one]
  ring

/-! ### The parts of a date -/

/-- What `_ISO_PREFIX` remembers: four digits, and two for a month and a day if they are there. -/
theorem groups_isoPrefix {s : PyStr} {d : Cursor} (reached : d ∈ run isoPrefix ⟨none, s, []⟩) :
    ∃ (year : PyStr) (month day : Option PyStr), Digits 4 year ∧ (∀ t ∈ month, Digits 2 t) ∧
      (∀ t ∈ day, Digits 2 t) ∧
      d.groups = day.toList.map (3, ·) ++ (month.toList.map (2, ·) ++ [(1, year)]) := by
  have part : ∀ (n : Nat) (c e : Cursor),
      e ∈ run (opt (.seq (lit "-".toList) (group n (times 2 digit)))) c →
      ∃ part : Option PyStr, (∀ t ∈ part, Digits 2 t) ∧
        e.groups = part.toList.map (n, ·) ++ c.groups := by
    intro n c e member
    rw [opt, run, List.mem_append] at member
    rcases member with there | absent
    · obtain ⟨b, hyphen, member⟩ := mem_run_seq.mp there
      obtain ⟨_, _, _, moved⟩ := (spells_lit _ c b).mp hyphen
      obtain ⟨t, two, _, remembered⟩ := (mem_run_group (spells_times_set isDecimal 2) n).mp member
      refine ⟨some t, ?_, ?_⟩
      · rintro _ ⟨⟩
        exact two
      · rw [remembered, moved]
        rfl
    · rw [run, List.mem_singleton] at absent
      exact ⟨none, nofun, by rw [absent]; rfl⟩
  obtain ⟨c₀, begins, reached⟩ := mem_run_seqs.mp reached
  obtain ⟨c₁, spaces, reached⟩ := mem_run_seqs.mp reached
  obtain ⟨c₂, four, reached⟩ := mem_run_seqs.mp reached
  obtain ⟨c₃, middle, reached⟩ := mem_run_seqs.mp reached
  obtain ⟨c₄, last, reached⟩ := mem_run_seqs.mp reached
  obtain ⟨-, ended⟩ := mem_run_test.mp reached
  obtain ⟨-, begun⟩ := mem_run_test.mp begins
  obtain ⟨_, _, _, moved⟩ := (spells_many_set isSpace c₀ c₁).mp spaces
  obtain ⟨year, digits, _, remembered⟩ := (mem_run_group (spells_times_set isDecimal 4) 1).mp four
  obtain ⟨month, month_, groups₃⟩ := part 2 c₂ c₃ middle
  obtain ⟨day, day_, groups₄⟩ := part 3 c₃ c₄ last
  refine ⟨year, month, day, digits, month_, day_, ?_⟩
  rw [ended, groups₄, groups₃, remembered, moved, begun]
  rfl

/-- The groups of a match of `_ISO_PREFIX`. -/
theorem matchStart_isoPrefix {s : PyStr} {m : Match} (found : matchStart isoPrefix s = some m) :
    Digits 4 (groupText m 1) ∧ (∀ t ∈ m.group 2, Digits 2 t) ∧ ∀ t ∈ m.group 3, Digits 2 t := by
  obtain ⟨d, first, rfl⟩ := Option.map_eq_some_iff.mp found
  obtain ⟨year, month, day, four, month_, day_, groups⟩ :=
    groups_isoPrefix (List.mem_of_head? first)
  have text : ∀ n, (matchBetween 0 ⟨none, s, []⟩ d).group n = (d.groups.find? (·.1 = n)).map Prod.snd :=
    fun n => rfl
  rw [groupText, text, text, text, groups]
  cases month <;> cases day <;> exact ⟨four, month_, day_⟩

/-! ### Spans -/

theorem natOfDecimals_two {t : PyStr} (two : Digits 2 t) : natOfDecimals t = some (worth t) :=
  natOfDecimals_digits (List.ne_nil_of_length_eq_add_one two.1) two.2

/-- A value without a span means no day. -/
theorem dateSpan_none {value : Json} (spans : dateSpan value = none) (date : CalendarDate) :
    ¬Means value date := by
  rintro ⟨reading, read, allows⟩
  cases value with
  | str s =>
      rw [dateSpan] at spans
      rw [readDate] at read
      cases found : matchStart isoPrefix s with
      | none =>
          rw [found] at read
          cases read
      | some m =>
          obtain ⟨-, two, -⟩ := matchStart_isoPrefix found
          rw [found, Option.bind_some] at spans read
          rw [readingOf] at read
          cases month : m.group 2 with
          | none =>
              cases day : m.group 3 with
              | none => simp only [month, day, reduceCtorEq] at spans
              | some d => simp only [month, day, reduceCtorEq] at read
          | some mo =>
              cases day : m.group 3 with
              | none =>
                  simp only [month, day, natOfDecimals_two (two mo month), Option.bind_some] at spans
                  simp only [month, day, Option.some_inj] at read
                  rw [← read] at allows
                  have pos := date.month_pos
                  have le := date.month_le
                  rw [allows.2] at pos le
                  rw [if_pos ⟨pos, le⟩] at spans
                  cases spans
              | some d => simp only [month, day, reduceCtorEq] at spans
  | _ => cases read

theorem means_iff {value : Json} {reading : DateReading} (read : readDate value = some reading)
    (date : CalendarDate) : Means value date ↔ reading.Allows date := by
  unfold Means
  rw [read]
  simp only [Option.some_inj, exists_eq_left']

/-- A date written with hyphens. -/
def DateText (text : PyStr) : Prop :=
  ∃ year month day, Digits 4 year ∧ Digits 2 month ∧ Digits 2 day ∧
    text = year ++ py "-" ++ month ++ py "-" ++ day

/-- The span of a text in the calendar: from a first day to a last one. -/
structure SpansDays (value : Json) (span : PyStr × PyStr) (first last : CalendarDate) : Prop where
  first_means : Means value first
  last_means : Means value last
  first_worth : worth span.1 = first.key
  last_worth : worth span.2 = last.key
  first_text : DateText span.1
  last_text : DateText span.2
  within : ∀ date, Means value date → first.key ≤ date.key ∧ date.key ≤ last.key

/-- A year runs from the first of January to the last of December. -/
theorem spansDays_year {value : Json} {year : PyStr} (four : Digits 4 year)
    (read : readDate value = some (.year (worth year))) :
    SpansDays value (year ++ py "-01-01", year ++ py "-12-31")
      (.monthStart (worth year) 1 (by decide) (by decide))
      (.monthEnd (worth year) 12 (by decide) (by decide)) := by
  have first : year ++ py "-01-01" = year ++ py "-" ++ py "01" ++ py "-" ++ py "01" := by
    simp only [List.append_assoc]
    rfl
  have last : year ++ py "-12-31" = year ++ py "-" ++ py "12" ++ py "-" ++ py "31" := by
    simp only [List.append_assoc]
    rfl
  have one : worth (py "01") = 1 := @worth_pair _ 48 49 rfl rfl
  have twelve : worth (py "12") = 12 := @worth_pair _ 49 50 rfl rfl
  have day : worth (py "31") = 31 := @worth_pair _ 51 49 rfl rfl
  constructor
  case first_means => exact (means_iff read _).mpr rfl
  case last_means => exact (means_iff read _).mpr rfl
  case first_worth =>
    rw [first, worth_date year rfl rfl, one]
    rfl
  case last_worth =>
    rw [last, worth_date year rfl rfl, twelve, day]
    rfl
  case first_text =>
    exact ⟨_, _, _, four, @digits_pair _ 48 49 rfl rfl, @digits_pair _ 48 49 rfl rfl, first⟩
  case last_text =>
    exact ⟨_, _, _, four, @digits_pair _ 49 50 rfl rfl, @digits_pair _ 51 49 rfl rfl, last⟩
  case within =>
    intro date means
    have same : date.year = worth year := (means_iff read date).mp means
    have := date.month_pos
    have := date.month_le
    have := date.day_pos
    have := date.day_le
    have := lastDayOfMonth_cases date.year date.month
    have december : lastDayOfMonth (worth year) 12 = 31 := rfl
    simp only [CalendarDate.key, CalendarDate.monthStart, CalendarDate.monthEnd, same, december]
    omega

/-- A month runs from its first to its last. -/
theorem spansDays_month {value : Json} {year month : PyStr} (four : Digits 4 year)
    (two : Digits 2 month) (read : readDate value = some (.month (worth year) (worth month)))
    (pos : 1 ≤ worth month) (le : worth month ≤ 12) :
    SpansDays value (year ++ py "-" ++ month ++ py "-01",
        year ++ py "-" ++ month ++ py "-" ++ strOfNat (lastDayOfMonth (worth year) (worth month)))
      (.monthStart (worth year) (worth month) pos le)
      (.monthEnd (worth year) (worth month) pos le) := by
  have first : year ++ py "-" ++ month ++ py "-01" =
      year ++ py "-" ++ month ++ py "-" ++ py "01" := by
    simp only [List.append_assoc]
    rfl
  have one : worth (py "01") = 1 := @worth_pair _ 48 49 rfl rfl
  obtain ⟨last, digits⟩ := worth_lastDay (worth year) (worth month)
  constructor
  case first_means => exact (means_iff read _).mpr ⟨rfl, rfl⟩
  case last_means => exact (means_iff read _).mpr ⟨rfl, rfl⟩
  case first_worth =>
    rw [first, worth_date year two.1 rfl, one]
    rfl
  case last_worth =>
    rw [worth_date year two.1 digits.1, last]
    rfl
  case first_text => exact ⟨_, _, _, four, two, @digits_pair _ 48 49 rfl rfl, first⟩
  case last_text => exact ⟨_, _, _, four, two, digits, rfl⟩
  case within =>
    intro date means
    obtain ⟨sameYear, sameMonth⟩ := (means_iff read date).mp means
    have pos_ := date.day_pos
    have le_ := date.day_le
    rw [sameYear, sameMonth] at le_
    simp only [CalendarDate.key, CalendarDate.monthStart, CalendarDate.monthEnd, sameYear, sameMonth]
    omega

/-- A whole date that the calendar has is a day. -/
theorem spansDays_day {value : Json} {year month day : PyStr} {date : CalendarDate}
    (four : Digits 4 year) (two : Digits 2 month) (two' : Digits 2 day)
    (read : readDate value = some (.day (worth year) (worth month) (worth day)))
    (means : Means value date) :
    SpansDays value (year ++ py "-" ++ month ++ py "-" ++ day,
      year ++ py "-" ++ month ++ py "-" ++ day) date date := by
  have key : ∀ other, Means value other →
      worth year * 1000000 + worth month * 1000 + worth day = other.key := by
    intro other means
    obtain ⟨sameYear, sameMonth, sameDay⟩ := (means_iff read other).mp means
    rw [CalendarDate.key, sameYear, sameMonth, sameDay]
  have text := (worth_date year two.1 two'.1).trans (key date means)
  have shape : DateText (year ++ py "-" ++ month ++ py "-" ++ day) :=
    ⟨_, _, _, four, two, two', rfl⟩
  refine ⟨means, means, text, text, shape, shape, fun other means' => ?_⟩
  rw [← key other means', ← key date means]
  exact ⟨le_refl _, le_refl _⟩

/-- What a value that means some day spans as a text is what it spans in the calendar. -/
theorem dateSpan_spec {value : Json} {span : PyStr × PyStr} (spans : dateSpan value = some span)
    (means : ∃ date, Means value date) : ∃ first last, SpansDays value span first last := by
  obtain ⟨date, means⟩ := means
  cases value with
  | str s =>
      rw [dateSpan] at spans
      cases found : matchStart isoPrefix s with
      | none =>
          rw [found] at spans
          cases spans
      | some m =>
          obtain ⟨four, twoMonth, twoDay⟩ := matchStart_isoPrefix found
          rw [found, Option.bind_some] at spans
          have read : readDate (.str s) = readingOf m := by
            rw [readDate, found, Option.bind_some]
          rw [readingOf] at read
          cases month : m.group 2 with
          | none =>
              cases day : m.group 3 with
              | none =>
                  simp only [month, day, Option.some_inj] at spans read
                  rw [← spans]
                  exact ⟨_, _, spansDays_year four read⟩
              | some d =>
                  obtain ⟨reading, read', -⟩ := means
                  rw [read] at read'
                  simp only [month, day, reduceCtorEq] at read'
          | some mo =>
              have two := twoMonth mo month
              cases day : m.group 3 with
              | none =>
                  simp only [month, day, natOfDecimals_two two, Option.bind_some] at spans read
                  split at spans
                  · next valid =>
                    have year := natOfDecimals_digits (List.ne_nil_of_length_eq_add_one four.1) four.2
                    rw [year, Option.getD_some, Option.some_inj] at spans
                    rw [← spans]
                    exact ⟨_, _, spansDays_month four two read valid.1 valid.2⟩
                  · cases spans
              | some d =>
                  simp only [month, day, Option.getD_some, Option.some_inj] at spans read
                  rw [← spans]
                  exact ⟨_, _, spansDays_day four two (twoDay d day) read means⟩
  | _ => cases spans

/-! ### The comparison -/

/-- The texts of two spans compare as the days do that the values mean: as their digits, where both mean
some day; not as inverted, where one is a whole date that the calendar does not have. -/
structure TextsCompare (start finish : Json) (s e : PyStr × PyStr) : Prop where
  digits : (∃ date, Means start date) → (∃ date, Means finish date) →
    (e.2 < s.1 ↔ worth e.2 < worth s.1)
  missing : (∀ date, ¬Means start date) ∨ (∀ date, ¬Means finish date) → ¬e.2 < s.1

/-- Two values whose spans, if both have one, compare as texts as they do in the calendar. -/
def ComparesRight (start finish : Json) : Prop :=
  ∀ s ∈ dateSpan start, ∀ e ∈ dateSpan finish, TextsCompare start finish s e

/-- The start is later for certain when its first day comes after the last day of the end. -/
theorem surelyLater_iff {start finish : Json} {s e : PyStr × PyStr} {a b c d : CalendarDate}
    (starts : SpansDays start s a b) (ends : SpansDays finish e c d) :
    SurelyLater start finish ↔ worth e.2 < worth s.1 := by
  rw [starts.first_worth, ends.last_worth]
  constructor
  · rintro ⟨-, -, later⟩
    exact (CalendarDate.before_iff _ _).mp (later a d starts.first_means ends.last_means)
  · intro less
    refine ⟨⟨a, starts.first_means⟩, ⟨d, ends.last_means⟩, fun first last means means' => ?_⟩
    rw [CalendarDate.before_iff]
    have := (starts.within first means).1
    have := (ends.within last means').2
    omega

/-- A pair of dates counts as inverted exactly when the start is later for certain, if and only if the
texts compare right. -/
theorem inverted_iff_surelyLater_iff (start finish : Json) :
    (certainlyInverted start finish = true ↔ SurelyLater start finish) ↔
      ComparesRight start finish := by
  unfold certainlyInverted ComparesRight
  cases starts : dateSpan start with
  | none =>
      have never : ¬SurelyLater start finish := by
        rintro ⟨⟨date, means⟩, -⟩
        exact dateSpan_none starts date means
      exact iff_of_true (iff_of_false Bool.false_ne_true never) nofun
  | some s =>
      cases ends : dateSpan finish with
      | none =>
          have never : ¬SurelyLater start finish := by
            rintro ⟨-, ⟨date, means⟩, -⟩
            exact dateSpan_none ends date means
          exact iff_of_true (iff_of_false Bool.false_ne_true never) (fun _ _ => nofun)
      | some e =>
          have one : (∀ s' ∈ some s, ∀ e' ∈ some e, TextsCompare start finish s' e') ↔
              TextsCompare start finish s e := by
            simp only [Option.mem_some_iff, forall_eq']
          rw [one]
          dsimp only
          rw [decide_eq_true_eq]
          by_cases means : (∃ date, Means start date) ∧ ∃ date, Means finish date
          · obtain ⟨a, b, days⟩ := dateSpan_spec starts means.1
            obtain ⟨c, d, days'⟩ := dateSpan_spec ends means.2
            rw [surelyLater_iff days days']
            constructor
            · intro compares
              refine ⟨fun _ _ => compares, ?_⟩
              rintro (none_ | none_)
              · exact absurd means.1 (not_exists.mpr none_)
              · exact absurd means.2 (not_exists.mpr none_)
            · exact fun compares => compares.digits means.1 means.2
          · have never : ¬SurelyLater start finish := fun later => means ⟨later.1, later.2.1⟩
            rw [iff_false_right never]
            constructor
            · exact fun same => ⟨fun some_ some_' => absurd ⟨some_, some_'⟩ means, fun _ => same⟩
            · intro compares
              apply compares.missing
              rwa [not_and_or, not_exists, not_exists] at means

/-! ### Dates in ASCII digits -/

/-- Two characters compare as what they are worth. -/
structure Alike (x y : Nat) : Prop where
  lt : x < y ↔ (decimal x).getD 0 < (decimal y).getD 0
  eq : x = y ↔ (decimal x).getD 0 = (decimal y).getD 0

theorem worth_cons (c : Nat) (t : PyStr) :
    worth (c :: t) = (decimal c).getD 0 * 10 ^ t.length + worth t := by
  rw [worth, List.foldl_cons, foldl_worth, Nat.mul_zero, Nat.zero_add]

/-- Texts that compare place by place as what they are worth compare so as a whole. -/
theorem lt_iff_worth_lt {a b : PyStr} (alike : List.Forall₂ Alike a b) :
    a < b ↔ worth a < worth b := by
  induction alike with
  | nil => exact iff_of_false (List.not_lt_nil []) (lt_irrefl _)
  | @cons x y a b here later ih =>
      have length := later.length_eq
      have small := worth_lt a
      have small' := worth_lt b
      rw [← length] at small'
      rw [List.cons_lt_cons_iff, worth_cons, worth_cons, ← length, here.lt, here.eq, ih]
      generalize (decimal x).getD 0 = v
      generalize (decimal y).getD 0 = w
      constructor
      · rintro (less | ⟨rfl, less⟩)
        · calc v * 10 ^ a.length + worth a < (v + 1) * 10 ^ a.length := by rw [add_mul]; omega
            _ ≤ w * 10 ^ a.length := Nat.mul_le_mul_right _ less
            _ ≤ w * 10 ^ a.length + worth b := Nat.le_add_right _ _
        · exact Nat.add_lt_add_left less _
      · intro less
        rcases lt_trichotomy v w with first | same | greater
        · exact .inl first
        · rw [same] at less ⊢
          exact .inr ⟨rfl, Nat.lt_of_add_lt_add_left less⟩
        · have := Nat.mul_le_mul_right (10 ^ a.length) greater
          rw [Nat.succ_mul] at this
          omega

theorem alike_digits {n : Nat} {t u : PyStr} (first : Digits n t) (second : Digits n u)
    (ascii : ∀ c ∈ t, c < 128) (ascii' : ∀ c ∈ u, c < 128) : List.Forall₂ Alike t u := by
  have digit : ∀ c, c < 128 → isDecimal c = true → 48 ≤ c ∧ (decimal c).getD 0 = c - 48 := by
    intro c small decimal_
    rw [isDecimal, PyRuntime.decimal_ascii c small] at decimal_
    rw [PyRuntime.decimal_ascii c small]
    split at decimal_
    · next isDigit =>
      rw [if_pos isDigit]
      rw [isAsciiDigit, Bool.and_eq_true, decide_eq_true_eq] at isDigit
      exact ⟨isDigit.1, rfl⟩
    · cases decimal_
  rw [List.forall₂_iff_get]
  refine ⟨first.1.trans second.1.symm, fun i inT inU => ?_⟩
  have memT := List.get_mem t ⟨i, inT⟩
  have memU := List.get_mem u ⟨i, inU⟩
  obtain ⟨le, value⟩ := digit _ (ascii _ memT) (first.2 _ memT)
  obtain ⟨le', value'⟩ := digit _ (ascii' _ memU) (second.2 _ memU)
  constructor
  · rw [value, value']
    omega
  · rw [value, value']
    omega

/-- Two dates in ASCII digits that mean some day compare right. -/
theorem textsCompare_of_ascii {start finish : Json} {s e : PyStr × PyStr}
    (starts : dateSpan start = some s) (ends : dateSpan finish = some e)
    (means : ∃ date, Means start date) (means' : ∃ date, Means finish date)
    (ascii : ∀ c ∈ s.1, c < 128) (ascii' : ∀ c ∈ e.2, c < 128) : TextsCompare start finish s e := by
  obtain ⟨a, b, days⟩ := dateSpan_spec starts means
  obtain ⟨c, d, days'⟩ := dateSpan_spec ends means'
  obtain ⟨y, m, d, year, month, day, text⟩ := days.first_text
  obtain ⟨y', m', d', year', month', day', text'⟩ := days'.last_text
  refine ⟨fun _ _ => ?_, ?_⟩
  · rw [text] at ascii
    rw [text'] at ascii'
    rw [text, text']
    simp only [List.forall_mem_append] at ascii ascii'
    have hyphen : List.Forall₂ Alike (py "-") (py "-") := by
      refine .cons ⟨?_, ?_⟩ .nil
      · simp
      · simp
    apply lt_iff_worth_lt
    exact List.rel_append (List.rel_append (List.rel_append (List.rel_append
      (alike_digits year' year ascii'.1.1.1.1 ascii.1.1.1.1) hyphen)
      (alike_digits month' month ascii'.1.1.2 ascii.1.1.2)) hyphen)
      (alike_digits day' day ascii'.2 ascii.2)
  · rintro (none_ | none_)
    · exact absurd means (not_exists.mpr none_)
    · exact absurd means' (not_exists.mpr none_)

end

end GhostPour.N400
