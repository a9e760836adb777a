/-
Module: GhostPour.Budget.UsageLog
Layer: Model
Purpose: The tables the spend caps read: `usage_log` with the columns the caps filter by, the `apple_sub` and
  `exclude_from_stats` of a user, and `anonymous_spend_carry`. A timestamp column holds the reading of the
  clock its ISO text shows; `updated_at`, which nothing modelled reads, is left out.
  `would_exceed_flat_budget` of `app/services/app_budget.py`, and the calls of one user that are checked by
  it, run, and are logged by `log_usage` when they end.
Trusted boundary: human-reviewed spec
Main exports: UsageRow, BudgetUser, Carry, BudgetDb, isAnonymous, spentOn, spentSince, FlatInfo,
  appMonthSpend, wouldExceedFlatBudget, FlatState, FlatAction, flatMachine
-/
import GhostPour.Library.Calendar
import GhostPour.Library.Machine
import GhostPour.Library.PyText
import GhostPour.Library.Sums

namespace GhostPour.Budget

/-- A `usage_log` row. -/
structure UsageRow where
  userId : PyStr
  appId : Option PyStr
  estimatedCostUsd : Option ℚ
  requestTimestamp : Instant
  caseId : Option PyStr
  ipHash : Option PyStr
deriving DecidableEq

/-- What `SUM` counts of a row: `NULL` counts nothing. -/
def UsageRow.cost (row : UsageRow) : ℚ := row.estimatedCostUsd.getD 0

/-- A `users` row. -/
structure BudgetUser where
  appleSub : PyStr
  excludeFromStats : Bool
deriving DecidableEq

/-- An `anonymous_spend_carry` row without its key. -/
structure Carry where
  lifetimeUsd : ℚ
  /-- The UTC date of `dayUsd`. -/
  day : Option Nat
  dayUsd : ℚ
deriving DecidableEq

/-- The rows of `anonymous_spend_carry` by `(sub_hash, app_id)`. -/
abbrev SpendCarry := Table (PyStr × PyStr) Carry

/-- The tables. -/
structure BudgetDb where
  users : Table PyStr BudgetUser
  /-- `user_apps`: the apps an account is a member of. -/
  userApps : List (PyStr × PyStr)
  usageLog : List UsageRow
  spendCarry : SpendCarry

/-- `ANONYMOUS_SUB_PREFIX`. -/
def anonymousSubPrefix : PyStr := py "anonymous:"

/-- `sub.startswith(ANONYMOUS_SUB_PREFIX)`. -/
def isAnonymous (sub : PyStr) : Bool := anonymousSubPrefix.isPrefixOf sub

/-- The row is of this account in this app. -/
def UsageRow.isOf (userId app : PyStr) (row : UsageRow) : Bool :=
  row.userId = userId ∧ row.appId = some app

/-- `LIFETIME_SPEND_SQL`. -/
def spentOn (userId app : PyStr) (usage : List UsageRow) : ℚ :=
  sumWhere (UsageRow.isOf userId app) UsageRow.cost usage

/-- `MONTH_SPEND_SQL`, and the sum of a day: the spend from an instant on. -/
def spentSince (start : Instant) (userId app : PyStr) (usage : List UsageRow) : ℚ :=
  sumWhere (fun row => row.isOf userId app && decide (start ≤ row.requestTimestamp)) UsageRow.cost
    usage

end GhostPour.Budget

namespace GhostPour.Budget

/-- The `info` of `would_exceed_flat_budget`. -/
structure FlatInfo where
  appId : PyStr
  cap : Option ℚ
  spent : ℚ
  estimate : Option ℚ

/-- `app_month_spend_usd`. -/
def appMonthSpend (now : Instant) (userId app : PyStr) (usage : List UsageRow) : ℚ :=
  spentSince now.monthStart userId app usage

/-- `would_exceed_flat_budget`: a call of unknown cost is refused only at the cap. -/
def wouldExceedFlatBudget (now : Instant) (userId app : PyStr) (estimate cap : Option ℚ)
    (usage : List UsageRow) : Bool × FlatInfo :=
  match cap with
  | none => (false, ⟨app, none, 0, estimate⟩)
  | some limit =>
      let spent := appMonthSpend now userId app usage
      let info : FlatInfo := ⟨app, some limit, spent, estimate⟩
      if limit ≤ spent then (true, info)
      else
        match estimate with
        | none => (false, info)
        | some amount => (decide (limit < spent + amount), info)

/-- A call that passes finds the month below the cap. -/
theorem spent_lt_of_passes {now : Instant} {userId app : PyStr} {estimate : Option ℚ} {limit : ℚ}
    {usage : List UsageRow}
    (passes : (wouldExceedFlatBudget now userId app estimate (some limit) usage).1 = false) :
    appMonthSpend now userId app usage < limit := by
  by_contra reached
  rw [not_lt] at reached
  simp only [wouldExceedFlatBudget, if_pos reached] at passes
  cases passes

/-! ### The calls of one user -/

/-- The clock, the rows, and the calls that have passed the check and are not logged yet. -/
structure FlatState where
  now : Instant
  usage : List UsageRow
  running : List Nat

/-- Before any call. -/
def FlatState.empty : FlatState := ⟨0, [], []⟩

/-- What happens to a call: the check, the record of its cost, or its end without a record. -/
inductive FlatAction where
  | tick (now : Instant)
  | check (call : Nat) (estimate : Option ℚ)
  | log (call : Nat) (cost : Option ℚ) (case ipHash : Option PyStr)
  | drop (call : Nat)

/-- The calls of one user of one app, under one cap; the clock does not run backwards. -/
def flatMachine (userId app : PyStr) (cap : ℚ) : Machine FlatState FlatAction where
  step
    | .tick now, s => if s.now ≤ now then some { s with now := now } else none
    | .check call estimate, s =>
        if (wouldExceedFlatBudget s.now userId app estimate (some cap) s.usage).1 then some s
        else some { s with running := call :: s.running }
    | .log call cost case ipHash, s =>
        if call ∈ s.running then
          some { s with usage := s.usage ++ [⟨userId, some app, cost, s.now, case, ipHash⟩]
                        running := s.running.erase call }
        else none
    | .drop call, s =>
        if call ∈ s.running then some { s with running := s.running.erase call } else none

end GhostPour.Budget
