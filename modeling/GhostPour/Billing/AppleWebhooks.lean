/-
Module: GhostPour.Billing.AppleWebhooks
Layer: Model
Purpose: `app/routers/apple_webhooks.py`: what one App Store Server Notification, decoded and signed
  by Apple, does to the billing tables. The ledger of client-gated apps and the table of one-time
  unlocks are other tables; a notification for one of them is an action that leaves these alone.
Trusted boundary: human-reviewed spec
Main exports: Notification, gate, findUser, applyNotification, appleNotifications
-/
import GhostPour.Billing.AllocationReset
import GhostPour.Billing.Subscriptions

namespace GhostPour.Billing

/-- Apple's `notificationType`. -/
inductive NotificationType where
  | subscribed
  | didRenew
  | expired
  | revoke
  | gracePeriodExpired
  | refund
  | didFailToRenew
  | didChangeRenewalStatus
  | oneTimeCharge
  | test
  | other (name : PyStr)
deriving DecidableEq

/-- The text of a notification type. -/
def NotificationType.text : NotificationType → PyStr
  | .subscribed => py "SUBSCRIBED"
  | .didRenew => py "DID_RENEW"
  | .expired => py "EXPIRED"
  | .revoke => py "REVOKE"
  | .gracePeriodExpired => py "GRACE_PERIOD_EXPIRED"
  | .refund => py "REFUND"
  | .didFailToRenew => py "DID_FAIL_TO_RENEW"
  | .didChangeRenewalStatus => py "DID_CHANGE_RENEWAL_STATUS"
  | .oneTimeCharge => py "ONE_TIME_CHARGE"
  | .test => py "TEST"
  | .other name => name

/-- The decoded `signedTransactionInfo`. The token is absent when it is not a string. -/
structure TransactionInfo where
  productId : Option PyStr
  transactionId : Option PyStr
  originalTransactionId : Option PyStr
  appAccountToken : Option PyStr
  expiresDate : Option DateTime
  environment : Option PyStr
  offerIdentifier : Option PyStr
  money : Money

/-- A notification; the transaction is absent when its signature did not verify. -/
structure Notification where
  type : NotificationType
  subtype : PyStr
  bundleId : Option PyStr
  environment : Option PyStr
  transaction : Option TransactionInfo
  /-- `autoRenewStatus` of the renewal info. -/
  autoRenewStatus : Option Int

/-- A notification about the monthly Pro subscription of ShoulderSurf. -/
def proNotification (type : NotificationType) (originalTransactionId : PyStr)
    (token : Option PyStr) : Notification where
  type := type
  subtype := []
  bundleId := some (py "com.shouldersurf.ShoulderSurf")
  environment := some (py "Production")
  transaction := some
    { productId := some (py "com.weirtech.shouldersurf.sub.pro.monthly")
      transactionId := some originalTransactionId
      originalTransactionId := some originalTransactionId
      appAccountToken := token
      expiresDate := none
      environment := some (py "Production")
      offerIdentifier := none
      money := .unknown }
  autoRenewStatus := none

/-- What the server is configured with. -/
structure WebhookSettings where
  /-- `apple_bundle_id`, split at its commas. -/
  bundleIds : List PyStr
  /-- The bundles of `ledger_bundles`. -/
  ledgerBundles : List PyStr
  /-- The products of `unlocks.yml`. -/
  unlockProducts : List PyStr
  /-- The bundle of the `shouldersurf` app. -/
  ssBundle : Option PyStr
  tiers : TierConfig

/-- The settings of the ShoulderSurf deployment. -/
def shoulderSurf : WebhookSettings where
  bundleIds := [py "com.shouldersurf.ShoulderSurf", py "com.weirtech.techrehearsal"]
  ledgerBundles := [py "com.weirtech.n400helper"]
  unlockProducts :=
    [ py "com.weirtech.shouldersurf.unlock.applecloud",
      py "com.weirtech.shouldersurf.unlock.byok",
      py "com.weirtech.shouldersurf.unlock.bundle",
      py "com.weirtech.shouldersurf.unlock.applecloud.upgrade",
      py "com.weirtech.shouldersurf.unlock.byok.upgrade" ]
  ssBundle := some (py "com.shouldersurf.ShoulderSurf")
  tiers := tiersYml

/-- What the endpoint answers. -/
inductive WebhookAction where
  | ledger
  | foreignBundle
  | transactionInfoNotDecoded
  | unlock
  | notATierProduct
  | userNotFound
  | unknownProduct
  | renewed
  | upgraded
  | downgraded
  | refunded
  | billingRetry
  | renewalStatus
  | test
  | none
deriving DecidableEq

/-! ### Statements on one row -/

/-- The limit of the free tier. -/
def freeLimit (tiers : TierConfig) : ℚ :=
  ((tiers.get freeTier).map TierDefinition.monthlyCostLimitUsd).getD (1 / 20)

/-- `_downgrade_to_free`: the used amount is set to the limit, so a lapse buys no new allowance. -/
def Account.downgradeToFree (tiers : TierConfig) (account : Account) : Account :=
  { account with
    tier := freeTier
    monthlyCostLimitUsd := some (freeLimit tiers)
    monthlyUsedUsd := freeLimit tiers
    overageBalanceUsd := 0
    isTrial := false
    trialStart := none
    trialEnd := none
    simulatedTier := none
    simulatedExhausted := false }

theorem Account.downgradeToFree_transaction (tiers : TierConfig) (account : Account) :
    (account.downgradeToFree tiers).originalTransactionId = account.originalTransactionId := rfl

/-- The update of `_upgrade_to_tier`. -/
def Account.upgradeToTier (name : PyStr) (tier : TierDefinition) (resetsAt : DateTime)
    (account : Account) : Account :=
  { account with
    tier := name
    monthlyCostLimitUsd := some tier.monthlyCostLimitUsd
    monthlyUsedUsd := 0
    overageBalanceUsd := 0
    searchesUsed := 0
    allocationResetsAt := some resetsAt
    isTrial := false
    trialStart := none
    trialEnd := none
    simulatedTier := none
    simulatedExhausted := false }

/-- The update of `_renew_same_tier`. -/
def Account.renewSameTier (resetsAt : DateTime) (account : Account) : Account :=
  { account with
    monthlyUsedUsd := 0
    overageBalanceUsd := 0
    searchesUsed := 0
    allocationResetsAt := some resetsAt }

/-- `_downgrade_to_free`. -/
def downgradeToFree (tiers : TierConfig) (userId : PyStr) (db : Db) : Db :=
  db.onUsers fun users => users.update userId (Account.downgradeToFree tiers)

/-- `_upgrade_to_tier`; an unknown tier is left alone. -/
def upgradeToTier (tiers : TierConfig) (now : DateTime) (userId name : PyStr)
    (appleExpires : Option DateTime) (db : Db) : Db :=
  match tiers.get name with
  | none => db
  | some tier => db.onUsers fun users =>
      users.update userId (Account.upgradeToTier name tier (computeNextReset now appleExpires))

/-- `_renew_same_tier`. -/
def renewSameTier (now : DateTime) (userId : PyStr) (appleExpires : Option DateTime) (db : Db) :
    Db :=
  db.onUsers fun users =>
    users.update userId (Account.renewSameTier (computeNextReset now appleExpires))

/-- Store the transaction a token-matched subscription rests on. -/
def Account.adopt (originalTransactionId : PyStr) (account : Account) : Account :=
  { account with originalTransactionId := some originalTransactionId }

/-- A row found by the token adopts the transaction Apple has just signed as active; otherwise the
reconcile sweep would ask about the old one. -/
def adoptTransaction (userId : PyStr) (t : TransactionInfo) (byToken : Bool) (db : Db) : Db :=
  match byToken, truthy t.originalTransactionId with
  | true, some otid => db.onUsers fun users => users.update userId (Account.adopt otid)
  | _, _ => db

/-! ### The endpoint -/

/-- Everything before the user lookup: whose app, which kind of product. -/
def gate (settings : WebhookSettings) (n : Notification) : Except WebhookAction TransactionInfo :=
  match n.bundleId with
  | none => .error .foreignBundle
  | some claimed =>
      if claimed ∉ settings.bundleIds then
        if claimed ∉ settings.ledgerBundles then .error .foreignBundle
        else if n.transaction.isNone then .error .transactionInfoNotDecoded
        else .error .ledger
      else match n.transaction with
        | none => .error .transactionInfoNotDecoded
        | some t =>
            let product := t.productId.getD (py "unknown")
            if product ∈ settings.unlockProducts then .error .unlock
            else if some claimed ≠ settings.ssBundle ∧ tierOfProduct settings.tiers product = none
            then .error .notATierProduct
            else .ok t

/-- The event `_record` appends for a notification. -/
def notificationEvent (now : DateTime) (n : Notification) (t : TransactionInfo) (userId : PyStr)
    (eventType : PyStr) (fromTier toTier : PyStr) : SubscriptionEvent where
  userId := userId
  eventType := eventType
  notificationType := some n.type.text
  subtype := truthy (some n.subtype)
  fromTier := some fromTier
  toTier := some toTier
  productId := t.productId
  originalTransactionId := t.originalTransactionId
  transactionId := t.transactionId
  expiresAt := t.expiresDate
  environment := truthy t.environment <|> n.environment
  source := py "assn"
  priceUsd := none
  effectiveAt := now
  recordedAt := now
  offerId := t.offerIdentifier
  money :=
    { t.money with
      autoRenewStatus := n.autoRenewStatus <|>
        -- the subtype is authoritative when the renewal payload is thin
        (if n.type = .didChangeRenewalStatus then
          if n.subtype = py "AUTO_RENEW_DISABLED" then some 0
          else if n.subtype = py "AUTO_RENEW_ENABLED" then some 1
          else none
        else none) }

/-- Apple's subscription status after a notification. -/
def statusCode : NotificationType → Option Int
  | .subscribed | .didRenew => some 1
  | .expired | .gracePeriodExpired => some 2
  | .revoke => some 5
  | .didFailToRenew => some 3
  | _ => none

/-- The status row of a notification that names a transaction. -/
def recordStatus (settings : WebhookSettings) (now : DateTime) (n : Notification)
    (t : TransactionInfo) (userId : PyStr) (db : Db) : Db :=
  match truthy t.originalTransactionId with
  | none => db
  | some otid =>
      upsertSubscriptionStatus otid
        { userId := some userId
          productId := t.productId
          tier := tierOfProduct settings.tiers (t.productId.getD [])
          environment := truthy t.environment <|> n.environment
          status := statusCode n.type
          money := (notificationEvent now n t userId [] [] []).money
          expiresAt := t.expiresDate
          paidEver := false
          transactionId := t.transactionId
          checkedAt := now
          source := py "assn" } db

/-- A renewal or a purchase of a product: the first branch of the dispatch. -/
def applyUpgrade (settings : WebhookSettings) (now : DateTime) (n : Notification)
    (t : TransactionInfo) (userId : PyStr) (account : Account) (byToken : Bool) (db : Db) :
    WebhookAction × Db :=
  match truthy (tierOfProduct settings.tiers (t.productId.getD [])) with
  | none => (.unknownProduct, db)
  | some newTier =>
      let db := adoptTransaction userId t byToken db
      if account.tier = newTier ∧ account.isTrial = false then
        (.renewed, recordSubscriptionEvent
          (notificationEvent now n t userId (py "renewed") account.tier account.tier)
          (renewSameTier now userId t.expiresDate db))
      else
        let eventType := if account.tier = freeTier then py "subscribed" else py "upgraded"
        (.upgraded, recordSubscriptionEvent
          (notificationEvent now n t userId eventType account.tier newTier)
          (upgradeToTier settings.tiers now userId newTier t.expiresDate db))

/-- The end of a subscription: the branches of the dispatch that downgrade. -/
def applyDowngrade (settings : WebhookSettings) (now : DateTime) (n : Notification)
    (t : TransactionInfo) (userId : PyStr) (account : Account) (eventType : PyStr)
    (action : WebhookAction) (db : Db) : WebhookAction × Db :=
  if account.tier = freeTier then (.none, db)
  else (action, recordSubscriptionEvent
    (notificationEvent now n t userId eventType account.tier freeTier)
    (downgradeToFree settings.tiers userId db))

/-- The dispatch on the type of a notification about a known user. -/
def applyNotification (settings : WebhookSettings) (now : DateTime) (n : Notification)
    (t : TransactionInfo) (userId : PyStr) (account : Account) (byToken : Bool) (db : Db) :
    WebhookAction × Db :=
  let db := recordStatus settings now n t userId db
  match n.type with
  | .subscribed | .didRenew => applyUpgrade settings now n t userId account byToken db
  | .expired | .gracePeriodExpired =>
      applyDowngrade settings now n t userId account (py "expired") .downgraded db
  | .revoke => applyDowngrade settings now n t userId account (py "revoked") .downgraded db
  | .refund => applyDowngrade settings now n t userId account (py "refunded") .refunded db
  | .didFailToRenew => (.billingRetry, recordSubscriptionEvent
      (notificationEvent now n t userId (py "billing_failed") account.tier account.tier) db)
  | .didChangeRenewalStatus => (.renewalStatus, recordSubscriptionEvent
      (notificationEvent now n t userId (py "renewal_status_changed") account.tier account.tier) db)
  | .test => (.test, db)
  | .oneTimeCharge | .other _ => (.none, db)

/-! ### Specifications of the parts -/

/-- What passes the gate is the notification's own transaction. -/
theorem gate_transaction {settings : WebhookSettings} {n : Notification} {t : TransactionInfo}
    (passed : gate settings n = .ok t) : n.transaction = some t := by
  unfold gate at passed
  split at passed
  · cases passed
  · split at passed
    · split at passed
      · cases passed
      · split at passed <;> cases passed
    · split at passed
      · cases passed
      · next decoded =>
        simp only at passed
        split at passed
        · cases passed
        · split at passed
          · cases passed
          · rwa [← Except.ok.inj passed]

/-- No row stores the transaction a notification names. -/
def Unclaimed (users : Users) (t : TransactionInfo) : Prop :=
  ∀ otid, truthy t.originalTransactionId = some otid →
    ∀ userId account, users.get userId = some account → account.originalTransactionId ≠ some otid

@[simp] theorem recordStatus_users (settings : WebhookSettings) (now : DateTime) (n : Notification)
    (t : TransactionInfo) (userId : PyStr) (db : Db) :
    (recordStatus settings now n t userId db).users = db.users := by
  unfold recordStatus
  split <;> rfl

@[simp] theorem recordStatus_events (settings : WebhookSettings) (now : DateTime) (n : Notification)
    (t : TransactionInfo) (userId : PyStr) (db : Db) :
    (recordStatus settings now n t userId db).events = db.events := by
  unfold recordStatus
  split <;> rfl

@[simp] theorem adoptTransaction_events (userId : PyStr) (t : TransactionInfo) (byToken : Bool)
    (db : Db) : (adoptTransaction userId t byToken db).events = db.events := by
  unfold adoptTransaction
  split <;> rfl

@[simp] theorem upgradeToTier_events (tiers : TierConfig) (now : DateTime) (userId name : PyStr)
    (appleExpires : Option DateTime) (db : Db) :
    (upgradeToTier tiers now userId name appleExpires db).events = db.events := by
  unfold upgradeToTier
  split <;> rfl

theorem recordStatus_plan (settings : WebhookSettings) (now : DateTime) (n : Notification)
    (t : TransactionInfo) (userId other : PyStr) (db : Db) :
    (recordStatus settings now n t userId db).plan other = db.plan other := by
  simp [Db.plan]

/-- A downgrade takes the plan of the user it is about, unless that plan is free already. -/
theorem applyDowngrade_plan (settings : WebhookSettings) (now : DateTime) (n : Notification)
    (t : TransactionInfo) (userId other : PyStr) (account : Account) (eventType : PyStr)
    (action : WebhookAction) (db : Db) :
    (applyDowngrade settings now n t userId account eventType action db).2.plan other =
      if other = userId ∧ account.tier ≠ freeTier then
        (db.users.get other).map fun row => (row.downgradeToFree settings.tiers).plan
      else db.plan other := by
  unfold applyDowngrade
  split
  · next free => simp [free]
  · next paid =>
    simp only
    rw [recordSubscriptionEvent_plan]
    unfold downgradeToFree Db.plan
    rw [Db.onUsers_users, Table.get_update]
    by_cases same : other = userId <;> simp [same, paid, Function.comp_def]

/-- The types that end a subscription. -/
def NotificationType.EndsPlan (type : NotificationType) : Prop :=
  type = .expired ∨ type = .refund ∨ type = .revoke ∨ type = .gracePeriodExpired

/-- A notification of such a type is a downgrade of the user it finds. -/
theorem applyNotification_of_endsPlan {n : Notification} (ends : n.type.EndsPlan) :
    ∃ eventType action, ∀ (settings : WebhookSettings) (now : DateTime) (t : TransactionInfo)
      (userId : PyStr) (account : Account) (byToken : Bool) (db : Db),
      applyNotification settings now n t userId account byToken db =
        applyDowngrade settings now n t userId account eventType action
          (recordStatus settings now n t userId db) := by
  rcases ends with type | type | type | type
  · exact ⟨py "expired", .downgraded, fun _ _ _ _ _ _ _ => by simp only [applyNotification, type]⟩
  · exact ⟨py "refunded", .refunded, fun _ _ _ _ _ _ _ => by simp only [applyNotification, type]⟩
  · exact ⟨py "revoked", .downgraded, fun _ _ _ _ _ _ _ => by simp only [applyNotification, type]⟩
  · exact ⟨py "expired", .downgraded, fun _ _ _ _ _ _ _ => by simp only [applyNotification, type]⟩

/-! ### The endpoint as a whole -/

section
variable [PyRuntime]

/-- The user a transaction is about, and whether the account token found it. -/
def findUser (users : Users) (t : TransactionInfo) : Option (PyStr × Account × Bool) :=
  let primary := (truthy t.originalTransactionId).bind fun otid =>
    users.first fun _ account => account.originalTransactionId = some otid
  match primary with
  | some (userId, account) => some (userId, account, false)
  | none =>
      -- the ids are lowercase, and Swift's `uuidString` is not
      (truthy t.appAccountToken).bind fun token =>
        (users.get (lower token)).map fun account => (lower token, account, true)

/-- `apple_notifications` on a notification whose signature verified. -/
def appleNotifications (settings : WebhookSettings) (now : DateTime) (n : Notification) (db : Db) :
    WebhookAction × Db :=
  match gate settings n with
  | .error action => (action, db)
  | .ok t =>
      match findUser db.users t with
      | none => (.userNotFound, db)
      | some (userId, account, byToken) =>
          applyNotification settings now n t userId account byToken db

/-- The account token of a transaction is the id of a user. -/
def TokenNames (t : TransactionInfo) (userId : PyStr) : Prop :=
  ∃ token, truthy t.appAccountToken = some token ∧ lower token = userId

/-- A user is found by the stored transaction, or, when no row stores it, by the token. -/
theorem findUser_some {users : Users} {t : TransactionInfo} {userId : PyStr} {account : Account}
    {byToken : Bool} (found : findUser users t = some (userId, account, byToken)) :
    users.get userId = some account ∧
      (byToken = false → ∃ otid, truthy t.originalTransactionId = some otid ∧
        account.originalTransactionId = some otid) ∧
      (byToken = true → Unclaimed users t ∧ TokenNames t userId) := by
  unfold findUser at found
  simp only at found
  split at found
  · next userId' account' primary =>
    cases found
    obtain ⟨otid, named, first⟩ := Option.bind_eq_some_iff.mp primary
    have row := Table.first_some first
    exact ⟨row.1, fun _ => ⟨otid, named, by simpa using row.2⟩, by simp⟩
  · next primary =>
    obtain ⟨token, named, lookup⟩ := Option.bind_eq_some_iff.mp found
    obtain ⟨account', stored, same⟩ := Option.map_eq_some_iff.mp lookup
    cases same
    refine ⟨stored, by simp, fun _ => ⟨fun otid otidNamed => ?_, token, named, rfl⟩⟩
    rw [otidNamed, Option.bind_some, Table.first_none_iff] at primary
    exact fun other row held => by simpa using primary other row held

/-- The token finds a user whenever no row stores the transaction. -/
theorem findUser_of_token {users : Users} {t : TransactionInfo} {userId : PyStr}
    {account : Account} (unclaimed : Unclaimed users t) (names : TokenNames t userId)
    (stored : users.get userId = some account) :
    findUser users t = some (userId, account, true) := by
  obtain ⟨token, named, rfl⟩ := names
  have primary : ((truthy t.originalTransactionId).bind fun otid =>
      users.first fun _ account => account.originalTransactionId = some otid) = none := by
    cases shape : truthy t.originalTransactionId with
    | none => rfl
    | some otid =>
        rw [Option.bind_some, Table.first_none_iff]
        exact fun other row held => by simpa using unclaimed otid shape other row held
  unfold findUser
  simp only [primary, named, Option.bind_some, stored, Option.map_some]

/-- A notification that ends a subscription takes the plan of the user it finds, and no other. -/
theorem appleNotifications_plan_of_endsPlan {settings : WebhookSettings} {n : Notification}
    {t : TransactionInfo} (ends : n.type.EndsPlan) (passed : gate settings n = .ok t)
    (now : DateTime) (db : Db) {userId : PyStr} {account : Account} {byToken : Bool}
    (found : findUser db.users t = some (userId, account, byToken)) (other : PyStr) :
    (appleNotifications settings now n db).2.plan other =
      if other = userId ∧ account.tier ≠ freeTier then
        (db.users.get other).map fun row => (row.downgradeToFree settings.tiers).plan
      else db.plan other := by
  obtain ⟨eventType, action, downgrade⟩ := applyNotification_of_endsPlan ends
  unfold appleNotifications
  simp only [passed, found]
  rw [downgrade, applyDowngrade_plan, recordStatus_users, recordStatus_plan]

end

end GhostPour.Billing
