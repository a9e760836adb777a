/-
Module: GhostPour.Billing.SubscriptionReconcile
Layer: Model
Purpose: `app/services/subscription_reconcile.py`: the sweep that asks Apple about every stored
  transaction and corrects the tier of a user whose answer differs. Apple's answer to
  `get_subscription_state` is an input.
Trusted boundary: human-reviewed spec
Main exports: AppleState, applyTier, reconcileUser, reconcileSweep
-/
import GhostPour.Billing.AppleWebhooks

namespace GhostPour.Billing

/-- What `get_subscription_state` says about a transaction. -/
structure AppleState where
  entitled : Bool
  /-- The tier of the product, absent when the product is not one of ours. -/
  tier : Option PyStr
  productId : Option PyStr
  expiresAt : Option DateTime
  environment : Option PyStr
  originalPurchaseDate : Option DateTime

/-- The columns the sweep selects of a user; the tier is the one of that moment. -/
structure ReconcileRow where
  userId : PyStr
  tier : PyStr
  originalTransactionId : Option PyStr

/-- The update of `_apply_tier` for the free tier: the used amount is not among its columns. -/
def Account.applyFreeTier (limit : Option ℚ) (account : Account) : Account :=
  { account with
    tier := freeTier
    monthlyCostLimitUsd := limit
    isTrial := false
    trialStart := none
    trialEnd := none
    simulatedTier := none
    simulatedExhausted := false }

/-- The update of `_apply_tier` for any other tier. -/
def Account.applyPaidTier (name : PyStr) (limit : Option ℚ) (account : Account) : Account :=
  { account with tier := name, monthlyCostLimitUsd := limit }

/-- `_apply_tier`. -/
def applyTier (tiers : TierConfig) (userId name : PyStr) (db : Db) : Db :=
  let limit := (tiers.get name).map TierDefinition.monthlyCostLimitUsd
  db.onUsers fun users => users.update userId
    (if name = freeTier then Account.applyFreeTier limit else Account.applyPaidTier name limit)

/-- `_newer_grant`: whether another purchase granted the tier after this one lapsed. -/
def newerGrant (db : Db) (userId otid tier : PyStr) (expiresAt : Option DateTime) : Bool :=
  match expiresAt with
  | none => false
  | some lapsed => db.events.any fun e =>
      e.userId = userId ∧ e.toTier = some tier ∧ e.eventType ∈ paidEventTypes ∧
        e.originalTransactionId ≠ some otid ∧ lapsed.instant < e.effectiveAt.instant

/-- The event of a correction. -/
def reconciledEvent (now : DateTime) (row : ReconcileRow) (state : AppleState) (otid tier : PyStr) :
    SubscriptionEvent where
  userId := row.userId
  eventType := py "reconciled"
  notificationType := none
  subtype := some (py "drift_fix")
  fromTier := some row.tier
  toTier := some tier
  productId := state.productId
  originalTransactionId := some otid
  transactionId := none
  expiresAt := state.expiresAt
  environment := state.environment
  source := py "reconciliation"
  priceUsd := none
  effectiveAt := now
  recordedAt := now
  offerId := none
  money := .unknown

/-- The tier Apple's answer stands for; an entitled product without a tier says nothing. -/
def AppleState.appleTier (state : AppleState) : Option PyStr :=
  if state.entitled then state.tier else some freeTier

/-- `reconcile_user`, and the correction it made. -/
def reconcileUser (tiers : TierConfig) (now : DateTime) (row : ReconcileRow)
    (answer : PyStr → Option AppleState) (db : Db) : Db × Option (PyStr × PyStr) :=
  match truthy row.originalTransactionId with
  | none => (db, none)
  | some otid =>
      match answer otid with
      | none => (db, none)
      | some state =>
          let db := markEverSubscribed row.userId state.originalPurchaseDate db
          match state.appleTier with
          | none => (db, none)
          | some tier =>
              if tier = row.tier then (db, none)
              else if tier = freeTier ∧ newerGrant db row.userId otid row.tier state.expiresAt then
                (db, none)
              else
                (recordSubscriptionEvent (reconciledEvent now row state otid tier)
                  (applyTier tiers row.userId tier db), some (row.tier, tier))

/-- The rows the sweep selects. -/
def reconcileRows (db : Db) : List ReconcileRow :=
  (db.users.select fun _ account => (truthy account.originalTransactionId).isSome).map fun r =>
    ⟨r.1, r.2.tier, r.2.originalTransactionId⟩

/-- `sweep`: every row that was selected at its start. -/
def reconcileSweep (tiers : TierConfig) (now : DateTime) (answer : PyStr → Option AppleState)
    (db : Db) : Db :=
  (reconcileRows db).foldl (fun db row => (reconcileUser tiers now row answer db).1) db

/-! ### What a correction does to a plan -/

/-- The sweep corrects the plan of its row and no other. -/
theorem reconcileUser_plan (tiers : TierConfig) (now : DateTime) (row : ReconcileRow)
    (answer : PyStr → Option AppleState) (db : Db) (userId : PyStr) :
    (reconcileUser tiers now row answer db).1.plan userId = db.plan userId ∨
      userId = row.userId ∧ ∃ tier, (reconcileUser tiers now row answer db).1.plan userId =
        (applyTier tiers row.userId tier db).plan userId := by
  unfold reconcileUser
  split
  · exact .inl rfl
  · next otid _ =>
    split
    · exact .inl rfl
    · next state _ =>
      have marked := markEverSubscribed_plan row.userId userId state.originalPurchaseDate db
      simp only
      split
      · exact .inl marked
      · next tier _ =>
        split
        · exact .inl marked
        · split
          · exact .inl marked
          · rw [recordSubscriptionEvent_plan]
            by_cases same : userId = row.userId
            · refine .inr ⟨same, tier, ?_⟩
              -- the subscriber caches are not part of the plan
              simp only [applyTier, Db.plan, markEverSubscribed, Db.onUsers_users, same,
                Table.get_update_self, Option.map_map]
              congr 1
              funext account
              split <;> rfl
            · left
              simp only [applyTier, Db.plan, Db.onUsers_users, Table.get_update_of_ne _ _ same]
              exact marked

/-- A correction leaves the used amount. -/
theorem applyTier_used (tiers : TierConfig) (userId name other : PyStr) (db : Db) :
    ((applyTier tiers userId name db).plan other).map Plan.monthlyUsedUsd =
      (db.plan other).map Plan.monthlyUsedUsd := by
  simp only [applyTier, Db.plan, Db.onUsers_users, Table.get_update]
  split
  · rw [Option.map_map, Option.map_map, Option.map_map]
    congr 1
    funext account
    simp only [Function.comp_apply]
    split <;> rfl
  · rfl

end GhostPour.Billing
