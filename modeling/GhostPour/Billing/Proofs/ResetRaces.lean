/-
Module: GhostPour.Billing.Proofs.ResetRaces
Layer: Proof
Purpose: Lazy resets and recorded costs of one user, interleaved statement by statement: a boundary
  opens at most one period, and the meter is what was recorded since the last reset that won.
Trusted boundary: none
Main exports: resetsOf, costsSinceReset, MeterSound, no_cost_lost
-/
import GhostPour.Billing.AllocationReset

namespace GhostPour.Billing

/-! ### What a history says -/

/-- The boundary of a reset. -/
def MeterEvent.boundary? : MeterEvent → Option DateTime
  | .cost _ => none
  | .reset boundary => some boundary

/-- The boundaries whose reset took effect, in order. -/
def resetsOf (history : List MeterEvent) : List DateTime := history.filterMap MeterEvent.boundary?

/-- One more event, for the costs since the last reset. -/
def MeterEvent.since (costs : List ℚ) : MeterEvent → List ℚ
  | .cost amount => costs ++ [amount]
  | .reset _ => []

/-- The costs that took effect after the last reset, or all of them. -/
def costsSinceReset (history : List MeterEvent) : List ℚ := history.foldl MeterEvent.since []

/-- What the meter should show: what it held at first, unless a reset won, and the costs since. -/
def meterAfter (initial : ℚ) (history : List MeterEvent) : ℚ :=
  (if resetsOf history = [] then initial else 0) + (costsSinceReset history).sum

@[simp] theorem resetsOf_cost (history : List MeterEvent) (amount : ℚ) :
    resetsOf (history ++ [.cost amount]) = resetsOf history := by
  simp [resetsOf, MeterEvent.boundary?]

@[simp] theorem resetsOf_reset (history : List MeterEvent) (boundary : DateTime) :
    resetsOf (history ++ [.reset boundary]) = resetsOf history ++ [boundary] := by
  simp [resetsOf, MeterEvent.boundary?]

theorem meterAfter_cost (initial : ℚ) (history : List MeterEvent) (amount : ℚ) :
    meterAfter initial (history ++ [.cost amount]) = meterAfter initial history + amount := by
  have costs : costsSinceReset (history ++ [.cost amount]) =
      costsSinceReset history ++ [amount] := by
    simp [costsSinceReset, MeterEvent.since]
  rw [meterAfter, meterAfter, resetsOf_cost, costs, List.sum_append, List.sum_singleton, add_assoc]

theorem meterAfter_reset (initial : ℚ) (history : List MeterEvent) (boundary : DateTime) :
    meterAfter initial (history ++ [.reset boundary]) = 0 := by
  have costs : costsSinceReset (history ++ [.reset boundary]) = [] := by
    simp [costsSinceReset, MeterEvent.since]
  rw [meterAfter, resetsOf_reset, costs]
  simp

/-! ### What holds between any two statements -/

/-- The boundaries that were reset lie before the one the row carries, so no call that still waits
for one of them can match the row again. -/
structure MeterSound (userId : PyStr) (users : Users) (m : Meter) : Prop where
  once : (resetsOf m.history).Nodup
  meter : (m.users.get userId).map Account.monthlyUsedUsd =
    (users.get userId).map fun a => meterAfter a.monthlyUsedUsd m.history
  moved : ∀ current, (m.users.get userId).bind Account.allocationResetsAt = some current →
    ∀ boundary ∈ resetsOf m.history, boundary.instant < current.instant
  waiting : ∀ call boundary now, m.calls call = .due boundary now →
    boundary.instant ≤ now.instant

theorem MeterSound.start (userId : PyStr) (users : Users) :
    MeterSound userId users (.start users) where
  once := List.nodup_nil
  meter := by
    rw [Meter.start]
    congr 1
    funext a
    simp [meterAfter, resetsOf, costsSinceReset]
  moved := by
    intro current _ boundary member
    simp [Meter.start, resetsOf] at member
  waiting := by
    intro call boundary now due
    cases due

/-- The new boundary lies after the time the call was given. -/
theorem rollForwardPast_after (boundary now : DateTime) :
    now.instant < (rollForwardPast boundary now).instant := by
  obtain ⟨n, ⟨_, after, _⟩, rolled⟩ := rollForwardPast_spec boundary now
  rw [rolled]
  exact after

variable {userId : PyStr} {users : Users} {m : Meter}

/-- A select only notes what it read. -/
theorem MeterSound.select (sound : MeterSound userId users m) (call : Nat) (now : DateTime) :
    MeterSound userId users (m.select userId call now) := by
  rw [Meter.select]
  split
  · exact sound
  · next current _ =>
    split
    · exact sound
    · next passed =>
      refine ⟨sound.once, sound.meter, sound.moved, ?_⟩
      intro other boundary later due
      simp only at due
      rcases eq_or_ne other call with rfl | ne
      · rw [Function.update_self] at due
        cases due
        exact not_lt.mp passed
      · rw [Function.update_of_ne ne] at due
        exact sound.waiting other boundary later due

/-- An idle call waits for nothing. -/
theorem MeterSound.waiting_update (sound : MeterSound userId users m) (call : Nat) :
    ∀ other boundary now, Function.update m.calls call .idle other = .due boundary now →
      boundary.instant ≤ now.instant := by
  intro other boundary now due
  rcases eq_or_ne other call with rfl | ne
  · rw [Function.update_self] at due
    cases due
  · rw [Function.update_of_ne ne] at due
    exact sound.waiting other boundary now due

/-- The guarded update wins only at a boundary that no call has reset before. -/
theorem MeterSound.update (sound : MeterSound userId users m) {call : Nat} {boundary now : DateTime}
    (due : m.calls call = .due boundary now) :
    MeterSound userId users (m.update userId call boundary now) := by
  have passed := sound.waiting call boundary now due
  have row : (m.update userId call boundary now).users.get userId =
      (m.users.get userId).map fun a =>
        if atBoundary userId boundary userId a then
          a.resetTo (rollForwardPast boundary now) else a := by
    rw [Meter.update, Table.get_updateWhere]
  rcases stored : m.users.get userId with _ | account
  · -- there is no row to reset
    have same : (m.update userId call boundary now).history = m.history := by
      simp [Meter.update, stored]
    refine ⟨by rw [same]; exact sound.once, ?_, ?_, sound.waiting_update call⟩
    · rw [row, same, ← sound.meter, stored, Option.map_none]
    · intro current set
      rw [row, stored] at set
      cases set
  · have used := sound.meter
    have moved := sound.moved
    rw [stored] at used moved row
    by_cases here : account.allocationResetsAt = some boundary
    · -- the call wins: every earlier reset was of an earlier boundary
      have wins : atBoundary userId boundary userId account = true := by simp [atBoundary, here]
      have next : (m.update userId call boundary now).history = m.history ++ [.reset boundary] := by
        simp [Meter.update, stored, wins]
      rw [Option.map_some, wins, if_pos rfl] at row
      have earlier := moved boundary (by rw [Option.bind_some, here])
      refine ⟨?_, ?_, ?_, sound.waiting_update call⟩
      · rw [next, resetsOf_reset, ← List.concat_eq_append, List.nodup_concat]
        refine ⟨fun member => ?_, sound.once⟩
        exact lt_irrefl _ (earlier boundary member)
      · rw [row, next, Option.map_some]
        rcases before : users.get userId with _ | first
        · rw [before] at used
          cases used
        · rw [Option.map_some, meterAfter_reset]
          rfl
      · intro current set other member
        rw [row, Option.bind_some] at set
        have rolled : rollForwardPast boundary now = current := Option.some.inj set
        rw [next, resetsOf_reset] at member
        rw [← rolled]
        refine lt_of_le_of_lt ?_ (rollForwardPast_after boundary now)
        rcases List.mem_append.mp member with old | new
        · exact le_trans (earlier other old).le passed
        · rw [List.mem_singleton.mp new]
          exact passed
    · -- the row has moved on: the update matches nothing
      have loses : atBoundary userId boundary userId account = false := by simp [atBoundary, here]
      have same : (m.update userId call boundary now).history = m.history := by
        simp [Meter.update, stored, loses]
      rw [Option.map_some, loses, if_neg (by decide)] at row
      refine ⟨by rw [same]; exact sound.once, ?_, ?_, sound.waiting_update call⟩
      · rw [row, same]
        exact used
      · rw [row, same]
        exact moved

/-- A cost that is charged moves the meter of the row, and no boundary. -/
theorem recordCost_charged (call : CostCall) (userId : PyStr) (table : Users) :
    (recordCost call table).get userId =
      if call.charges userId then (table.get userId).map (Account.addCost call.cost)
      else table.get userId := by
  unfold recordCost CostCall.charges
  split
  · next free => simp [free]
  · next charged =>
    rw [Table.get_update]
    by_cases same : userId = call.userId
    · simp [same, charged]
    · rw [if_neg same, if_neg (by simp [Ne.symm same])]

theorem MeterSound.cost (sound : MeterSound userId users m) (call : CostCall) :
    MeterSound userId users (m.cost userId call) := by
  have row := recordCost_charged call userId m.users
  rcases charges : call.charges userId with _ | _
  · have same : (m.cost userId call).history = m.history := by simp [Meter.cost, charges]
    rw [charges, if_neg (by decide)] at row
    refine ⟨by rw [same]; exact sound.once, ?_, ?_, sound.waiting⟩
    · rw [same, ← sound.meter, ← row]
      rfl
    · rw [same]
      intro current set
      refine sound.moved current ?_
      rwa [← row]
  · have next : (m.cost userId call).history = m.history ++ [.cost call.cost] := by
      simp [Meter.cost, charges]
    rw [charges, if_pos rfl] at row
    refine ⟨by rw [next, resetsOf_cost]; exact sound.once, ?_, ?_, sound.waiting⟩
    · have used := sound.meter
      calc ((m.cost userId call).users.get userId).map Account.monthlyUsedUsd
          = ((m.users.get userId).map Account.monthlyUsedUsd).map (· + call.cost) := by
            rw [Meter.cost, row, Option.map_map, Option.map_map]
            rfl
        _ = (users.get userId).map fun a =>
              meterAfter a.monthlyUsedUsd (m.cost userId call).history := by
            rw [used, Option.map_map, next]
            congr 1
            funext a
            exact (meterAfter_cost _ _ _).symm
    · rw [next, resetsOf_cost]
      intro current set
      refine sound.moved current ?_
      rw [Meter.cost, row] at set
      rcases stored : m.users.get userId with _ | account
      · rw [stored] at set
        cases set
      · rw [stored] at set
        exact set

/-- Every statement keeps it. -/
theorem MeterSound.step (action : MeterAction) (next : Meter) (sound : MeterSound userId users m)
    (step : (meterMachine userId).step action m = some next) : MeterSound userId users next := by
  cases action with
  | select call now =>
      rcases standing : m.calls call with _ | ⟨boundary, read⟩
      · simp only [meterMachine, standing, Option.some.injEq] at step
        subst step
        exact sound.select call now
      · simp [meterMachine, standing] at step
  | update call =>
      rcases standing : m.calls call with _ | ⟨boundary, now⟩
      · simp [meterMachine, standing] at step
      · simp only [meterMachine, standing, Option.some.injEq] at step
        subst step
        exact sound.update standing
  | cost call =>
      simp only [meterMachine, Option.some.injEq] at step
      subst step
      exact sound.cost call

/-- However the statements of resets and costs interleave, at most one reset takes effect per
boundary, and the meter shows the costs that took effect since the last one; if none did, what it
showed at first and all of them. -/
theorem no_cost_lost (userId : PyStr) (users : Users) (actions : List MeterAction) (last : Meter)
    (run : (meterMachine userId).run actions (.start users) = some last) :
    (resetsOf last.history).Nodup ∧
      (last.users.get userId).map Account.monthlyUsedUsd =
        (users.get userId).map fun a =>
          (if resetsOf last.history = [] then a.monthlyUsedUsd else 0) +
            (costsSinceReset last.history).sum := by
  have sound : MeterSound userId users last :=
    Machine.run_invariant (fun action m next sound step => sound.step action next step)
      (.start userId users) run
  exact ⟨sound.once, sound.meter⟩

/-! ### A race for one boundary -/

/-- An account whose period ended on January 1, with five dollars on its meter. -/
def dueRow : Users :=
  .single (py "u") { Account.signUp with
    monthlyUsedUsd := 5, allocationResetsAt := some jan1 }

/-- A cost of the account, charged to its meter. -/
def oneDollar : CostCall := ⟨py "u", 1, ⟨10, none, [], []⟩, false, false⟩

/-- Two calls read the boundary before either resets it. -/
def resetRace : List MeterAction :=
  [.select 1 feb1, .select 2 feb1, .cost oneDollar, .update 1, .cost oneDollar, .update 2]

/-- The theorem at that race: the second call matches no row, and the cost after the reset stays. -/
theorem no_cost_lost_race :
    ∃ last, (meterMachine (py "u")).run resetRace (.start dueRow) = some last ∧
      resetsOf last.history = [jan1] ∧ (resetsOf last.history).Nodup ∧
      (last.users.get (py "u")).map Account.monthlyUsedUsd = some 1 := by
  obtain ⟨last, run⟩ := Option.isSome_iff_exists.mp
    (show ((meterMachine (py "u")).run resetRace (.start dueRow)).isSome = true by decide +kernel)
  have history : ((meterMachine (py "u")).run resetRace (.start dueRow)).map Meter.history =
      some [.cost 1, .reset jan1, .cost 1] := by decide +kernel
  rw [run, Option.map_some, Option.some.injEq] at history
  obtain ⟨once, meter⟩ := no_cost_lost (py "u") dueRow resetRace last run
  refine ⟨last, run, by rw [history]; rfl, once, ?_⟩
  rw [meter, history]
  decide +kernel

end GhostPour.Billing
