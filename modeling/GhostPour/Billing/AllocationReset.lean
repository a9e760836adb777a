/-
Module: GhostPour.Billing.AllocationReset
Layer: Model
Purpose: `app/services/allocation_reset.py`: when the next allocation period starts, when the current one did,
  and the lazy reset that opens the next. `lazy_reset_if_due` and `record_cost` as the statements they run on
  the users table, so that calls of the request path and of the hourly sweep can interleave. The select and
  the guarded update of a reset are two statements; a recorded cost is one.
Trusted boundary: human-reviewed spec
Main exports: computeNextReset, rollForwardPast, rollForwardPast_spec, monthBefore, periodStart,
  lazyResetIfDue, ResetCall, MeterEvent, Meter, MeterAction, meterMachine
-/
import GhostPour.Billing.Users
import GhostPour.Library.Machine

namespace GhostPour.Billing

/-- `compute_next_reset`: Apple's `expiresDate` when there is one, else one month from now. -/
def computeNextReset (now : DateTime) (appleExpires : Option DateTime) : DateTime :=
  appleExpires.getD (now.addMonths 1)

/-- The loop of `roll_forward_past` from its `n`-th round on. -/
def rollFrom (resetsAt now : DateTime) : Nat → Nat → DateTime
  | 0, n => resetsAt.addMonths n
  | fuel + 1, n =>
      if now.instant < (resetsAt.addMonths n).instant then resetsAt.addMonths n
      else rollFrom resetsAt now fuel (n + 1)

/-- More rounds than the loop of `roll_forward_past` can take. -/
def rollRounds (resetsAt now : DateTime) : Nat :=
  ((now.instant - resetsAt.instant) / (28 * microsPerDay)).toNat + 3

/-- `roll_forward_past`. -/
def rollForwardPast (resetsAt now : DateTime) : DateTime :=
  rollFrom resetsAt now (rollRounds resetsAt now) 1

/-- The first date of a monthly schedule after an instant: `n` months from its start. -/
def FirstAfter (start : DateTime) (now : Int) (n : Nat) : Prop :=
  1 ≤ n ∧ now < (start.addMonths n).instant ∧
    ∀ k, 1 ≤ k → k < n → (start.addMonths k).instant ≤ now

theorem FirstAfter.unique {start : DateTime} {now : Int} {m n : Nat} (one : FirstAfter start now m)
    (two : FirstAfter start now n) : m = n := by
  obtain ⟨positive, after, least⟩ := one
  obtain ⟨positive', after', least'⟩ := two
  rcases Nat.lt_trichotomy m n with lt | eq | gt
  · exact absurd (least' m positive lt) (not_le.mpr after)
  · exact eq
  · exact absurd (least n positive' gt) (not_le.mpr after')

theorem rollFrom_spec (resetsAt now : DateTime) (fuel n : Nat) (positive : 1 ≤ n)
    (passed : ∀ k, 1 ≤ k → k < n → (resetsAt.addMonths k).instant ≤ now.instant)
    (enough : now.instant < (resetsAt.addMonths (n + fuel)).instant) :
    ∃ m, FirstAfter resetsAt now.instant m ∧
      rollFrom resetsAt now fuel n = resetsAt.addMonths m := by
  induction fuel generalizing n with
  | zero => exact ⟨n, ⟨positive, enough, passed⟩, rfl⟩
  | succ fuel ih =>
      unfold rollFrom
      split
      · next after => exact ⟨n, ⟨positive, after, passed⟩, rfl⟩
      · next before =>
        refine ih (n + 1) (by omega) (fun k low high => ?_) ?_
        · rcases Nat.lt_succ_iff_lt_or_eq.mp high with earlier | rfl
          · exact passed k low earlier
          · exact not_lt.mp before
        · rwa [show n + 1 + fuel = n + (fuel + 1) by omega]

/-- The loop ends: a date of the schedule lies after `now` within the rounds. -/
theorem rollRounds_enough (resetsAt now : DateTime) :
    now.instant < (resetsAt.addMonths (1 + rollRounds resetsAt now)).instant := by
  have far := resetsAt.instant_addMonths_ge (1 + rollRounds resetsAt now)
  refine lt_of_lt_of_le ?_ far
  unfold rollRounds
  push_cast
  omega

/-- `roll_forward_past` gives the first date of the monthly schedule after `now`. -/
theorem rollForwardPast_spec (resetsAt now : DateTime) :
    ∃ n, FirstAfter resetsAt now.instant n ∧ rollForwardPast resetsAt now = resetsAt.addMonths n :=
  rollFrom_spec resetsAt now _ 1 le_rfl (fun k low high => by omega)
    (rollRounds_enough resetsAt now)

/-- `t - relativedelta(months=1)`: the day is clipped to the end of the month, and there is no month before
the first. -/
def monthBefore (t : DateTime) : Option DateTime :=
  if t.month = 0 then none
  else some
    { month := t.month - 1
      day := min t.day (daysInMonth (t.month - 1))
      micros := t.micros
      offset := t.offset
      day_pos := by have := t.day_pos; have := daysInMonth_pos (t.month - 1); omega
      day_le := by omega
      micros_lt := t.micros_lt }

/-- `period_start`; it raises where a month before the first is asked for. -/
def periodStart (resetsAt : Option DateTime) (now : DateTime) : Option DateTime :=
  match resetsAt with
  | none =>
      some { now with day := 1, micros := 0, day_pos := Nat.one_pos,
                      day_le := by have := daysInMonth_pos now.month; omega
                      micros_lt := microsPerDay_pos }
  | some resetsAt =>
      if resetsAt.instant ≤ now.instant then some resetsAt
      else (monthBefore resetsAt).bind fun start =>
        -- an anchor more than a month out: the trailing month
        if now.instant < start.instant then monthBefore now else some start

/-- The counters of a period that has just opened. -/
def Account.resetCounters (account : Account) : Account :=
  { account with
    monthlyUsedUsd := 0, overageBalanceUsd := 0, searchesUsed := 0, generationsUsed := 0 }

/-- The row `lazy_reset_if_due` leaves. -/
def Account.lazyReset (now : DateTime) (account : Account) : Account :=
  match account.allocationResetsAt with
  | none => account
  | some current =>
      if now.instant < current.instant then account
      else { account.resetCounters with
             allocationResetsAt := some (rollForwardPast current now) }

/-- `lazy_reset_if_due`, and whether a reset was applied. The select and the guarded update are one
step here, so the guard always meets the value that was read. -/
def lazyResetIfDue (userId : PyStr) (now : DateTime) (users : Users) : Users × Bool :=
  match users.get userId with
  | none => (users, false)
  | some account =>
      match account.allocationResetsAt with
      | none => (users, false)
      | some current =>
          if now.instant < current.instant then (users, false)
          else (users.update userId (Account.lazyReset now), true)

/-- The lazy reset changes its own row only. -/
theorem lazyResetIfDue_get (userId other : PyStr) (now : DateTime) (users : Users) :
    (lazyResetIfDue userId now users).1.get other =
      if other = userId then (users.get other).map (Account.lazyReset now)
      else users.get other := by
  unfold lazyResetIfDue
  split
  · next absent =>
    split
    · next same => simp [same, absent]
    · rfl
  · next account stored =>
    split
    · next unset =>
      split
      · next same => simp [same, stored, Account.lazyReset, unset]
      · rfl
    · next current set =>
      split
      · next early =>
        split
        · next same => simp [same, stored, Account.lazyReset, set, early]
        · rfl
      · exact users.get_update userId other _

/-- Dates of 2026, for concrete runs. -/
def jan1 : DateTime := .midnight 24300 1 (by decide) (by decide)
def jan31 : DateTime := .midnight 24300 31 (by decide) (by decide)
def feb1 : DateTime := .midnight 24301 1 (by decide) (by decide)
def mar1 : DateTime := .midnight 24302 1 (by decide) (by decide)

example : rollForwardPast jan31 feb1 = .midnight 24301 28 (by decide) (by decide) := by
  decide +kernel

end GhostPour.Billing

namespace GhostPour.Billing

/-- Where a call of `lazy_reset_if_due` stands: not running, or between its select, which found the
boundary due, and its update. -/
inductive ResetCall where
  | idle
  | due (boundary now : DateTime)

/-- What took effect on the row. -/
inductive MeterEvent where
  | cost (amount : ℚ)
  | reset (boundary : DateTime)
deriving DecidableEq

/-- The table, the calls under way, and what has taken effect so far. -/
structure Meter where
  users : Users
  calls : Nat → ResetCall
  history : List MeterEvent

/-- Before any call. -/
def Meter.start (users : Users) : Meter := ⟨users, fun _ => .idle, []⟩

/-- A statement. -/
inductive MeterAction where
  | select (call : Nat) (now : DateTime)
  | update (call : Nat)
  | cost (call : CostCall)

/-- The `WHERE` of the update: the boundary is still the one that was read. -/
def atBoundary (userId : PyStr) (boundary : DateTime) (id : PyStr) (account : Account) : Bool :=
  id = userId ∧ account.allocationResetsAt = some boundary

/-- The row the update leaves. -/
def Account.resetTo (next : DateTime) (account : Account) : Account :=
  { account.resetCounters with allocationResetsAt := some next }

/-- The select: whether the row is there and its boundary is due. -/
def Meter.select (userId : PyStr) (call : Nat) (now : DateTime) (m : Meter) : Meter :=
  match (m.users.get userId).bind Account.allocationResetsAt with
  | none => m
  | some current =>
      if now.instant < current.instant then m
      else { m with calls := Function.update m.calls call (.due current now) }

/-- The guarded update: a boundary that has moved on matches no row. -/
def Meter.update (userId : PyStr) (call : Nat) (boundary now : DateTime) (m : Meter) : Meter where
  users := m.users.updateWhere (atBoundary userId boundary)
    (Account.resetTo (rollForwardPast boundary now))
  calls := Function.update m.calls call .idle
  history :=
    if ((m.users.get userId).map fun a => atBoundary userId boundary userId a) = some true then
      m.history ++ [.reset boundary]
    else m.history

/-- A cost that is charged to the row. -/
def CostCall.charges (call : CostCall) (userId : PyStr) : Bool :=
  call.userId = userId ∧ ¬ (call.effectiveLimit = -1 ∨ call.cost ≤ 0 ∨ call.metersOnItsOwn = true)

/-- The update of `record_cost`. -/
def Meter.cost (userId : PyStr) (call : CostCall) (m : Meter) : Meter where
  users := recordCost call m.users
  calls := m.calls
  history := if call.charges userId then m.history ++ [.cost call.cost] else m.history

/-- The statements of any number of calls about one user. -/
def meterMachine (userId : PyStr) : Machine Meter MeterAction where
  step
    | .select call now, m =>
        match m.calls call with
        | .idle => some (m.select userId call now)
        | .due _ _ => none
    | .update call, m =>
        match m.calls call with
        | .idle => none
        | .due boundary now => some (m.update userId call boundary now)
    | .cost call, m => some (m.cost userId call)

/-- Run alone, the two statements are `lazy_reset_if_due`. -/
theorem select_update_users (userId : PyStr) (call : Nat) (now boundary : DateTime) (m : Meter)
    (due : (m.users.get userId).bind Account.allocationResetsAt = some boundary)
    (passed : boundary.instant ≤ now.instant) (other : PyStr) :
    ((m.select userId call now).update userId call boundary now).users.get other =
      (lazyResetIfDue userId now m.users).1.get other := by
  obtain ⟨account, stored, set⟩ := Option.bind_eq_some_iff.mp due
  have selected : (m.select userId call now).users = m.users := by
    rw [Meter.select, due]
    simp only
    rw [if_neg (not_lt.mpr passed)]
  rw [lazyResetIfDue_get, Meter.update, Table.get_updateWhere, selected]
  split
  · next same =>
    rw [same, stored]
    simp [atBoundary, set, Account.lazyReset, not_lt.mpr passed, Account.resetTo]
  · next ne => simp [atBoundary, ne]

end GhostPour.Billing
