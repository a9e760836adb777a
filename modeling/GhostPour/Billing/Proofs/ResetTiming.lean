/-
Module: GhostPour.Billing.Proofs.ResetTiming
Layer: Proofs
Purpose: Whether the billing boundary depends on how often the lazy reset ran. A single reset counts its
  months from the stored boundary, so a boundary that a reset has clipped to a short month loses its day for
  good. `visits_boundary_eq_iff` says exactly which visit histories that changes. Whether the period that is
  reported for a boundary in the past is the one that is reported when the lazy reset has moved the boundary
  on.
Trusted boundary: none
Main exports: visits, boundary, AnchorKept, visits_boundary_eq_iff, SameWindow, periodStart_rolled,
  sameWindow_iff, clipped_or_missed_windows_differ
-/
import GhostPour.Billing.AllocationReset
import GhostPour.Library.IsoText

namespace GhostPour.Billing

/-- Run `lazy_reset_if_due` for one user at each of a list of instants. -/
def visits (userId : PyStr) (times : List DateTime) (users : Users) : Users :=
  times.foldl (fun users now => (lazyResetIfDue userId now users).1) users

/-- The stored `allocation_resets_at` of a user. -/
def boundary (users : Users) (userId : PyStr) : Option DateTime :=
  (users.get userId).bind Account.allocationResetsAt

/-- The boundary one visit leaves. -/
def visitBoundary (stored now : DateTime) : DateTime :=
  if now.instant < stored.instant then stored else rollForwardPast stored now

/-- One visit acts on the stored boundary alone. -/
theorem boundary_lazyResetIfDue (users : Users) (userId : PyStr) (now : DateTime) :
    boundary (lazyResetIfDue userId now users).1 userId =
      (boundary users userId).map (visitBoundary · now) := by
  unfold boundary
  rw [lazyResetIfDue_get, if_pos rfl]
  cases users.get userId with
  | none => rfl
  | some account =>
      cases set : account.allocationResetsAt with
      | none => simp [Account.lazyReset, set]
      | some current =>
          by_cases early : now.instant < current.instant <;>
            simp [Account.lazyReset, visitBoundary, set, early]

/-- So a run of visits acts on the stored boundary alone. -/
theorem boundary_visits (users : Users) (userId : PyStr) (times : List DateTime) :
    boundary (visits userId times users) userId =
      (boundary users userId).map fun stored => times.foldl visitBoundary stored := by
  unfold visits
  induction times generalizing users with
  | nil => simp
  | cons now times ih =>
      rw [List.foldl_cons, ih, boundary_lazyResetIfDue, Option.map_map]
      rfl

/-! ### One visit -/

/-- A due visit moves the boundary by whole months to the first date after the visit. -/
theorem visitBoundary_due {stored now : DateTime} (due : stored.instant ≤ now.instant) :
    ∃ n, FirstAfter stored now.instant n ∧ visitBoundary stored now = stored.addMonths n := by
  unfold visitBoundary
  rw [if_neg (not_lt.mpr due)]
  exact rollForwardPast_spec stored now

/-- After a visit the boundary lies in the future. -/
theorem visitBoundary_after (stored now : DateTime) :
    now.instant < (visitBoundary stored now).instant := by
  by_cases early : now.instant < stored.instant
  · simp [visitBoundary, early]
  · obtain ⟨n, ⟨_, after, _⟩, moved⟩ := visitBoundary_due (not_lt.mp early)
    rwa [moved]

/-- No visit moves the boundary to a later day of the month. -/
theorem visitBoundary_day_le (stored now : DateTime) :
    (visitBoundary stored now).day ≤ stored.day := by
  by_cases early : now.instant < stored.instant
  · simp [visitBoundary, early]
  · obtain ⟨n, _, moved⟩ := visitBoundary_due (not_lt.mp early)
    rw [moved]
    exact min_le_left _ _

theorem foldl_visitBoundary_day_le (times : List DateTime) (stored : DateTime) :
    (times.foldl visitBoundary stored).day ≤ stored.day := by
  induction times generalizing stored with
  | nil => exact le_rfl
  | cons now times ih => exact (ih _).trans (visitBoundary_day_le stored now)

/-- A boundary in the future of every visit is left alone. -/
theorem foldl_visitBoundary_early (times : List DateTime) (stored : DateTime)
    (early : ∀ now ∈ times, now.instant < stored.instant) :
    times.foldl visitBoundary stored = stored := by
  induction times with
  | nil => rfl
  | cons now times ih =>
      have first : visitBoundary stored now = stored := by
        simp [visitBoundary, early now (by simp)]
      rw [List.foldl_cons, first]
      exact ih fun later member => early later (by simp [member])

/-! ### The schedule of the first boundary -/

/-- What visits up to `limit` keep of a boundary that started as `start`, whose schedule next passes
`limit` after `n` months: it has not overtaken that date, and is that date if it is in its month. -/
structure OnSchedule (start : DateTime) (n : Nat) (stored : DateTime) : Prop where
  sameTime : stored.micros = start.micros
  sameClock : stored.offset = start.offset
  month_ge : start.month ≤ stored.month
  month_le : stored.month ≤ start.month + n
  day_le : stored.day ≤ start.day
  last : stored.month = start.month + n → stored = start.addMonths n

section
variable {start stored now : DateTime} {limit : Int} {n : Nat}

theorem OnSchedule.initial (start : DateTime) (first : FirstAfter start limit n) :
    OnSchedule start n start where
  sameTime := rfl
  sameClock := rfl
  month_ge := le_rfl
  month_le := by omega
  day_le := le_rfl
  last inMonth := by have := first.1; omega

/-- A date whose day is at least the schedule's day in its month is not before it. -/
theorem OnSchedule.addMonths_eq (on : OnSchedule start n stored)
    (anchored : (start.addMonths n).day ≤ stored.day) :
    stored.addMonths (start.month + n - stored.month) = start.addMonths n := by
  have inMonth : stored.month + (start.month + n - stored.month) = start.month + n := by
    have := on.month_le
    omega
  refine DateTime.eq_of_day_eq on.sameTime on.sameClock inMonth ?_
  have inside := (start.addMonths n).day_le
  have low := on.day_le
  simp only [DateTime.addMonths_day, DateTime.addMonths_month, inMonth] at anchored inside ⊢
  omega

/-- A due visit that finds the anchor's day keeps the boundary on the schedule. -/
theorem OnSchedule.step (on : OnSchedule start n stored) (first : FirstAfter start limit n)
    (inTime : now.instant ≤ limit) (due : stored.instant ≤ now.instant)
    (anchored : (start.addMonths n).day ≤ stored.day) :
    OnSchedule start n (visitBoundary stored now) := by
  obtain ⟨m, ⟨positive, _, least⟩, moved⟩ := visitBoundary_due due
  have reach := on.addMonths_eq anchored
  have after := first.2.1
  have behind : stored.month < start.month + n := by
    rcases on.month_le.lt_or_eq with lt | eq
    · exact lt
    · rw [on.last eq] at due
      omega
  -- the schedule's own date is one the roll considers, so the roll stops no later
  have notPast : m ≤ start.month + n - stored.month := by
    by_contra past
    have early := least (start.month + n - stored.month) (by omega) (by omega)
    rw [reach] at early
    omega
  rw [moved]
  refine ⟨on.sameTime, on.sameClock, ?_, ?_, (min_le_left _ _).trans on.day_le, ?_⟩
  · have := on.month_ge
    simp only [DateTime.addMonths_month]
    omega
  · simp only [DateTime.addMonths_month]
    omega
  · intro inMonth
    simp only [DateTime.addMonths_month] at inMonth
    rw [← reach]
    congr 1
    omega

/-- A boundary on the schedule and past its limit is the schedule's date. -/
theorem OnSchedule.eq_of_after (on : OnSchedule start n stored) (first : FirstAfter start limit n)
    (started : start.instant ≤ limit) (after : limit < stored.instant) :
    stored = start.addMonths n := by
  rcases on.month_le.lt_or_eq with behind | inMonth
  · -- a date of an earlier month is not after the schedule's date of that month
    exfalso
    have monthEq : start.month + (stored.month - start.month) = stored.month := by
      have := on.month_ge
      omega
    have before : stored.instant ≤ (start.addMonths (stored.month - start.month)).instant := by
      refine DateTime.instant_le_of_day_le on.sameTime on.sameClock monthEq.symm ?_
      simp only [DateTime.addMonths_day, monthEq]
      exact le_min on.day_le stored.day_le
    rcases Nat.eq_zero_or_pos (stored.month - start.month) with same | later
    · rw [same, DateTime.addMonths_zero] at before
      omega
    · have := first.2.2 (stored.month - start.month) later (by omega)
      omega
  · exact on.last inMonth

end

/-! ### Runs -/

/-- Every due visit finds a boundary whose day is at least the day that the first boundary's monthly
schedule has on its first date after the last visit. -/
def AnchorKept (users : Users) (userId : PyStr) (times : List DateTime) (last : DateTime) : Prop :=
  ∀ start, boundary users userId = some start → ∀ n, FirstAfter start last.instant n →
    ∀ earlier now later, times ++ [last] = earlier ++ now :: later →
      ∀ stored, boundary (visits userId earlier users) userId = some stored →
        stored.instant ≤ now.instant → (start.addMonths n).day ≤ stored.day

/-- Visits that find the anchor's day keep the boundary on the schedule. -/
theorem onSchedule_foldl {start : DateTime} {limit : Int} {n : Nat} {stored : DateTime}
    (times : List DateTime) (first : FirstAfter start limit n)
    (inTime : ∀ now ∈ times, now.instant ≤ limit) (on : OnSchedule start n stored)
    (anchored : ∀ earlier now later, times = earlier ++ now :: later →
      (earlier.foldl visitBoundary stored).instant ≤ now.instant →
        (start.addMonths n).day ≤ (earlier.foldl visitBoundary stored).day) :
    OnSchedule start n (times.foldl visitBoundary stored) := by
  induction times generalizing stored with
  | nil => exact on
  | cons now times ih =>
      have next : OnSchedule start n (visitBoundary stored now) := by
        by_cases early : now.instant < stored.instant
        · simpa [visitBoundary, early]
        · have due := not_lt.mp early
          exact on.step first (inTime now (by simp)) due (anchored [] now times rfl due)
      refine ih (fun later member => inTime later (by simp [member])) next ?_
      intro earlier now' later split
      exact anchored (now :: earlier) now' later (by simp [split])

/-- The boundary after a run of visits is the one a single visit at the end leaves, exactly when no
due visit found a boundary that an earlier reset had clipped below the day it still needs. -/
theorem visits_boundary_eq_iff (users : Users) (userId : PyStr) (times : List DateTime)
    (last : DateTime)
    (increasing : (times ++ [last]).Pairwise fun a b => a.instant ≤ b.instant) :
    boundary (visits userId (times ++ [last]) users) userId =
        boundary (visits userId [last] users) userId ↔
      AnchorKept users userId times last := by
  have inTime : ∀ now ∈ times ++ [last], now.instant ≤ last.instant := by
    intro now member
    rcases List.mem_append.mp member with early | atEnd
    · exact (List.pairwise_append.mp increasing).2.2 now early last (by simp)
    · rw [List.mem_singleton.mp atEnd]
  unfold AnchorKept
  simp only [boundary_visits]
  cases boundary users userId with
  | none => simp
  | some start =>
      simp only [Option.map_some, Option.some.injEq, forall_eq', List.foldl_cons, List.foldl_nil]
      constructor
      · intro agree n first earlier now later split due
        -- days only shrink along a run, so the final day bounds every stored day from below
        have shrinks : (times ++ [last]).foldl visitBoundary start =
            later.foldl visitBoundary (visitBoundary (earlier.foldl visitBoundary start) now) := by
          rw [split, List.foldl_append, List.foldl_cons]
        have final := (foldl_visitBoundary_day_le later _).trans
          (visitBoundary_day_le (earlier.foldl visitBoundary start) now)
        rw [← shrinks, agree] at final
        refine le_trans ?_ final
        by_cases early : last.instant < start.instant
        · simp only [visitBoundary, if_pos early, DateTime.addMonths_day]
          exact min_le_left _ _
        · obtain ⟨m, roll, moved⟩ := visitBoundary_due (not_lt.mp early)
          have same : m = n := FirstAfter.unique roll first
          rw [moved, same]
      · intro anchored
        by_cases early : last.instant < start.instant
        · rw [foldl_visitBoundary_early _ _ fun now member => (inTime now member).trans_lt early]
          simp [visitBoundary, early]
        · obtain ⟨n, first, moved⟩ := visitBoundary_due (not_lt.mp early)
          have on := onSchedule_foldl (times ++ [last]) first inTime
            (OnSchedule.initial start first) (anchored n first)
          have after : last.instant < ((times ++ [last]).foldl visitBoundary start).instant := by
            rw [List.foldl_append]
            exact visitBoundary_after _ _
          rw [on.eq_of_after first (not_lt.mp early) after, moved]

/-! ### January 31 -/

/-- A user whose boundary is January 31. -/
def anchored31 : Users := .single (py "u") { Account.signUp with allocationResetsAt := some jan31 }

theorem visits_boundary_eq_iff_jan31 :
    boundary (visits (py "u") ([feb1] ++ [mar1]) anchored31) (py "u") =
        boundary (visits (py "u") [mar1] anchored31) (py "u") ↔
      AnchorKept anchored31 (py "u") [feb1] mar1 :=
  visits_boundary_eq_iff anchored31 (py "u") [feb1] mar1 (by decide +kernel)

/-- A visit on February 1 stores February 28, and the visit of March 1 then stores March 28 where a
single visit would have stored March 31. -/
theorem visits_lose_anchor :
    [feb1, mar1].Pairwise (fun a b => a.instant ≤ b.instant) ∧
      boundary (visits (py "u") ([feb1] ++ [mar1]) anchored31) (py "u") ≠
        boundary (visits (py "u") [mar1] anchored31) (py "u") := by
  constructor
  · decide +kernel
  · simp only [boundary_visits]
    decide +kernel

end GhostPour.Billing

namespace GhostPour.Billing

/-- Before and after the lazy reset the period starts at one instant, not after now and at most a month
before the boundary that comes next; a boundary after the year 9999 cannot be made. -/
structure SameWindow (resetsAt now : DateTime) : Prop where
  dated : (rollForwardPast resetsAt now).Dated
  same : ∃ before after, periodStart (some resetsAt) now = some before ∧
    periodStart (some (rollForwardPast resetsAt now)) now = some after ∧
    before.instant = after.instant
  passed : ∀ before ∈ periodStart (some resetsAt) now, before.instant ≤ now.instant
  month : ∀ before ∈ periodStart (some resetsAt) now,
    ∀ earliest ∈ monthBefore (rollForwardPast resetsAt now), earliest.instant ≤ before.instant

/-- One month before `n + 1` months after a date is at most `n` months after it: the day is clipped
twice. -/
theorem monthBefore_addMonths (t : DateTime) (n : Nat) :
    ∃ earlier, monthBefore (t.addMonths (n + 1)) = some earlier ∧
      earlier.month = t.month + n ∧ earlier.micros = t.micros ∧ earlier.offset = t.offset ∧
      earlier.day = min (min t.day (daysInMonth (t.month + n + 1))) (daysInMonth (t.month + n)) := by
  have some_ : (t.addMonths (n + 1)).month ≠ 0 := by
    rw [DateTime.addMonths_month]
    omega
  exact ⟨_, if_neg some_, rfl, rfl, rfl, rfl⟩

/-- A month before a boundary of the schedule is its first date only for the first boundary, and only if no
day was clipped. -/
theorem startsAgain_iff {t earlier : DateTime} {n : Nat}
    (back : monthBefore (t.addMonths (n + 1)) = some earlier) :
    t.instant = earlier.instant ↔ n = 0 ∧ t.day ≤ daysInMonth (t.month + 1) := by
  obtain ⟨found, back', month, micros, offset, day⟩ := monthBefore_addMonths t n
  obtain rfl : earlier = found := Option.some.inj (back.symm.trans back')
  constructor
  · intro same
    have first : n = 0 := by
      by_contra later
      have moved := DateTime.instant_lt_of_month_lt micros.symm offset.symm (by omega : t.month < earlier.month)
      exact absurd same moved.ne
    have days : t.daysBefore ≤ earlier.daysBefore :=
      (DateTime.instant_le_iff micros.symm offset.symm).mp same.le
    have low := t.day_pos
    have low' := earlier.day_pos
    subst first
    simp only [Nat.add_zero] at month day
    rw [DateTime.daysBefore, DateTime.daysBefore, month] at days
    refine ⟨rfl, ?_⟩
    omega
  · rintro ⟨rfl, fits⟩
    have fits' := t.day_le
    simp only [Nat.add_zero] at month day
    have whole : t = earlier := DateTime.eq_of_day_eq micros.symm offset.symm month.symm (by omega)
    rw [whole]

section
variable {resetsAt now : DateTime} (stale : resetsAt.instant ≤ now.instant)
include stale

/-- After the reset the period starts a month before the boundary. -/
theorem periodStart_rolled {n : Nat} (first : FirstAfter resetsAt now.instant (n + 1)) :
    ∃ earlier, monthBefore (resetsAt.addMonths (n + 1)) = some earlier ∧
      periodStart (some (resetsAt.addMonths (n + 1))) now = some earlier := by
  obtain ⟨earlier, back, month, micros, offset, day⟩ := monthBefore_addMonths resetsAt n
  obtain ⟨-, later, least⟩ := first
  have clipped : earlier.instant ≤ (resetsAt.addMonths n).instant := by
    have sameMonth : earlier.month = (resetsAt.addMonths n).month := month
    apply DateTime.instant_le_of_day_le (b := resetsAt.addMonths n) micros offset sameMonth
    rw [day, DateTime.addMonths_day]
    omega
  have reached : (resetsAt.addMonths n).instant ≤ now.instant := by
    cases n with
    | zero =>
        rw [DateTime.addMonths_zero]
        exact stale
    | succ n => exact least (n + 1) (by omega) (by omega)
  refine ⟨earlier, back, ?_⟩
  rw [periodStart]
  rw [if_neg (not_le.mpr later), back, Option.bind_some, if_neg (not_lt.mpr (clipped.trans reached))]

/-- For every boundary that now has reached: the reported period is the same before and after the lazy
reset, not in the future and at most a month wide, if and only if less than a month has passed since the
boundary, the month after it has its day, and that month has a date at all. -/
theorem sameWindow_iff :
    SameWindow resetsAt now ↔ now.instant < (resetsAt.addMonths 1).instant ∧
      resetsAt.day ≤ daysInMonth (resetsAt.month + 1) ∧ (resetsAt.addMonths 1).Dated := by
  obtain ⟨n, first, rolled⟩ := rollForwardPast_spec resetsAt now
  obtain ⟨n, rfl⟩ := Nat.exists_eq_add_of_le' first.1
  obtain ⟨earlier, back, after⟩ := periodStart_rolled stale first
  have before : periodStart (some resetsAt) now = some resetsAt := if_pos stale
  have unmoved := startsAgain_iff back
  constructor
  · rintro ⟨dated, ⟨start, start', isStart, isStart', same⟩, -, -⟩
    rw [rolled] at dated isStart'
    rw [before] at isStart
    rw [after] at isStart'
    cases isStart
    cases isStart'
    obtain ⟨rfl, fits⟩ := unmoved.mp same
    exact ⟨first.2.1, fits, dated⟩
  · rintro ⟨early, fits, dated⟩
    obtain rfl : n = 0 := by
      have one : FirstAfter resetsAt now.instant 1 := ⟨le_refl 1, early, fun k low high => by omega⟩
      exact Nat.succ.inj (first.unique one)
    have same := unmoved.mpr ⟨rfl, fits⟩
    refine ⟨by rwa [rolled], ⟨resetsAt, earlier, before, by rw [rolled, after], same⟩, ?_, ?_⟩
    · intro start isStart
      rw [before] at isStart
      cases isStart
      exact stale
    · intro start isStart least isLeast
      rw [before] at isStart
      rw [rolled, back] at isLeast
      cases isStart
      cases isLeast
      exact same.ge

end

/-- A boundary that is passed by less than a month. -/
theorem jan1_window : SameWindow jan1 jan31 :=
  (sameWindow_iff (by decide +kernel)).mpr ⟨by decide +kernel, by decide, by decide⟩

/-- A day that February does not have, and a boundary two months ago. -/
theorem clipped_or_missed_windows_differ : ¬SameWindow jan31 feb1 ∧ ¬SameWindow jan1 mar1 := by
  have clipped : (periodStart (some jan31) feb1).map DateTime.instant ≠
      (periodStart (some (rollForwardPast jan31 feb1)) feb1).map DateTime.instant := by
    decide +kernel
  have missed : (periodStart (some jan1) mar1).map DateTime.instant ≠
      (periodStart (some (rollForwardPast jan1 mar1)) mar1).map DateTime.instant := by
    decide +kernel
  constructor
  · rintro ⟨-, ⟨before, after, isBefore, isAfter, same⟩, -, -⟩
    rw [isBefore, isAfter, Option.map_some, Option.map_some, same] at clipped
    exact clipped rfl
  · rintro ⟨-, ⟨before, after, isBefore, isAfter, same⟩, -, -⟩
    rw [isBefore, isAfter, Option.map_some, Option.map_some, same] at missed
    exact missed rfl

end GhostPour.Billing
