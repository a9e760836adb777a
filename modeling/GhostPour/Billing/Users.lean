/-
Module: GhostPour.Billing.Users
Layer: Model
Purpose: The `users` table and the tier configuration: the columns the billing code reads or writes. Money is
  exact; an ISO timestamp column holds the date `parse_iso` reads from it, and `updated_at`, which nothing
  modelled reads, is left out. `UsageTracker.record_cost` of `app/services/usage_tracker.py`: the cost of a
  model call is added to the account's meter. A write that the database lock outlasts is the same as no call.
Trusted boundary: human-reviewed spec
Main exports: Account, Users, TierDefinition, TierConfig, buildProductToTier, CostCall, recordCost
-/
import GhostPour.Library.Calendar
import GhostPour.Library.PyRuntime
import GhostPour.Library.Table

namespace GhostPour.Billing

/-- A `users` row without its primary key. -/
structure Account where
  tier : PyStr
  monthlyCostLimitUsd : Option ℚ
  monthlyUsedUsd : ℚ
  overageBalanceUsd : ℚ
  searchesUsed : Nat
  generationsUsed : Nat
  allocationResetsAt : Option DateTime
  isTrial : Bool
  trialStart : Option DateTime
  trialEnd : Option DateTime
  simulatedTier : Option PyStr
  simulatedExhausted : Bool
  originalTransactionId : Option PyStr
  memoryUsedThisPeriod : Nat
  memoryPeriod : Option Nat
  everSubscribed : Bool
  firstSubscribedAt : Option DateTime
deriving DecidableEq

/-- The `users` table. -/
abbrev Users := Table PyStr Account

/-- The name of the tier without a subscription. -/
abbrev freeTier : PyStr := py "free"

/-- The row sign-up inserts: a free account with nothing used. -/
def Account.signUp : Account where
  tier := freeTier
  monthlyCostLimitUsd := none
  monthlyUsedUsd := 0
  overageBalanceUsd := 0
  searchesUsed := 0
  generationsUsed := 0
  allocationResetsAt := none
  isTrial := false
  trialStart := none
  trialEnd := none
  simulatedTier := none
  simulatedExhausted := false
  originalTransactionId := none
  memoryUsedThisPeriod := 0
  memoryPeriod := none
  everSubscribed := false
  firstSubscribedAt := none

/-- A tier of `tiers.yml`; a limit of -1 is unlimited. -/
structure TierDefinition where
  monthlyCostLimitUsd : ℚ
  trialCostLimitUsd : Option ℚ
  storekitProductId : PyStr
  appProductIds : List PyStr

/-- `all_product_ids`: the per-app ids, or the one of the App Store. -/
def TierDefinition.allProductIds (tier : TierDefinition) : List PyStr :=
  if tier.appProductIds ≠ [] then tier.appProductIds
  else if tier.storekitProductId ≠ [] then [tier.storekitProductId]
  else []

/-- The tiers by name, in the order of the file. -/
abbrev TierConfig := List (PyStr × TierDefinition)

/-- `tier_config.tiers.get(name)`. -/
def TierConfig.get (config : TierConfig) (name : PyStr) : Option TierDefinition :=
  (config.find? (·.1 = name)).map Prod.snd

/-- The assignments `_build_product_to_tier` makes, in order. -/
def buildProductToTier (config : TierConfig) : List (PyStr × PyStr) :=
  config.flatMap fun entry =>
    (entry.2.allProductIds.filter (· ≠ [])).map fun product => (product, entry.1)

/-- The tier of a product: the last assignment stands. -/
def tierOfProduct (config : TierConfig) (product : PyStr) : Option PyStr :=
  ((buildProductToTier config).reverse.find? (·.1 = product)).map Prod.snd

/-- `tiers.yml`. -/
def tiersYml : TierConfig :=
  [ (freeTier, ⟨2, none, [], []⟩),
    (py "plus", ⟨-1, some (24 / 10), py "com.weirtech.shouldersurf.sub.plus.monthly", []⟩),
    (py "pro", ⟨-1, some (51 / 10), py "com.weirtech.shouldersurf.sub.pro.monthly", []⟩),
    (py "automation", ⟨10, none, [], []⟩),
    (py "admin", ⟨-1, none, [], []⟩) ]

example : tierOfProduct tiersYml (py "com.weirtech.shouldersurf.sub.pro.monthly") =
    some (py "pro") := by decide +kernel

/-- Python's `x or None` on an optional string: the empty string is false. -/
def truthy : Option PyStr → Option PyStr
  | some [] => none
  | value => value

theorem truthy_eq_some {value : Option PyStr} {s : PyStr} :
    truthy value = some s ↔ value = some s ∧ s ≠ [] := by
  unfold truthy
  split
  · constructor
    · intro h; cases h
    · rintro ⟨h, nonempty⟩
      cases h
      exact absurd rfl nonempty
  · next notEmpty =>
    refine ⟨fun h => ⟨h, ?_⟩, And.left⟩
    rintro rfl
    exact notEmpty h

end GhostPour.Billing

namespace GhostPour.Billing

/-- A call of `record_cost`. -/
structure CostCall where
  userId : PyStr
  cost : ℚ
  tier : TierDefinition
  /-- Whether the caller passed a user row that is on trial. -/
  isTrial : Bool
  /-- `meters_on_its_own` of the app. -/
  metersOnItsOwn : Bool

/-- The limit a call is measured against. -/
def CostCall.effectiveLimit (call : CostCall) : ℚ :=
  match call.isTrial, call.tier.trialCostLimitUsd with
  | true, some trial => trial
  | _, _ => call.tier.monthlyCostLimitUsd

/-- The row a recorded cost leaves. -/
def Account.addCost (cost : ℚ) (account : Account) : Account :=
  { account with monthlyUsedUsd := account.monthlyUsedUsd + cost }

theorem Account.addCost_transaction (cost : ℚ) (account : Account) :
    (account.addCost cost).originalTransactionId = account.originalTransactionId := rfl

@[simp] theorem Account.addCost_zero : Account.addCost 0 = id := by
  funext account
  simp [Account.addCost]

/-- `record_cost`. -/
def recordCost (call : CostCall) (users : Users) : Users :=
  if call.effectiveLimit = -1 ∨ call.cost ≤ 0 ∨ call.metersOnItsOwn = true then users
  else users.update call.userId (Account.addCost call.cost)

/-- Record a list of costs. -/
def recordCosts (calls : List CostCall) (users : Users) : Users :=
  calls.foldl (fun users call => recordCost call users) users

/-- A recorded cost moves the meter of a row and nothing else. -/
theorem recordCost_get (call : CostCall) (users : Users) (userId : PyStr) :
    ∃ cost, (recordCost call users).get userId = (users.get userId).map (Account.addCost cost) := by
  unfold recordCost
  split
  · exact ⟨0, by simp⟩
  · rw [Table.get_update]
    split
    · exact ⟨_, rfl⟩
    · exact ⟨0, by simp⟩

/-- So do any number of recorded costs. -/
theorem recordCosts_get (calls : List CostCall) (users : Users) (userId : PyStr) :
    ∃ cost, (recordCosts calls users).get userId =
      (users.get userId).map (Account.addCost cost) := by
  unfold recordCosts
  induction calls generalizing users with
  | nil => exact ⟨0, by simp⟩
  | cons call calls ih =>
      obtain ⟨cost, one⟩ := recordCost_get call users userId
      obtain ⟨costs, rest⟩ := ih (recordCost call users)
      refine ⟨cost + costs, ?_⟩
      rw [List.foldl_cons, rest, one, Option.map_map]
      congr 1
      funext account
      simp [Account.addCost, add_assoc]

end GhostPour.Billing
