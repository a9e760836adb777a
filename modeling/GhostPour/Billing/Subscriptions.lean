/-
Module: GhostPour.Billing.Subscriptions
Layer: Model
Purpose: `app/services/subscriptions.py`: the append-only subscription event log, the status row of each
  subscription, and the caches on the user row. `Db` is the database the billing code works on. The reports of
  `app/services/subscriptions.py` that replay the subscription event log: month by month and day by day.
  Stamps compare and are cut as the ISO texts they are stored as, that is by the date and the time they show.
  Money is exact, so rounding it to cents is left out.
Trusted boundary: human-reviewed spec
Main exports: Money, SubscriptionEvent, SubscriptionStatus, Db, recordSubscriptionEvent,
  upsertSubscriptionStatus, markEverSubscribed, userEnvironments, monthlyAggregates, mrrTrend
-/
import GhostPour.Billing.Users
import GhostPour.Library.Machine
import GhostPour.Library.PyValue

namespace GhostPour.Billing

/-- What Apple said about money: the fields of `money_fields_from_apple`. -/
structure Money where
  pricePaid : Option ℚ
  currency : Option PyStr
  offerType : Option Int
  offerDiscountType : Option PyStr
  autoRenewStatus : Option Int
deriving DecidableEq

/-- The money fields of a purchase Apple said nothing about. -/
def Money.unknown : Money := ⟨none, none, none, none, none⟩

/-- A row of `subscription_events`, without its random id. -/
structure SubscriptionEvent where
  userId : PyStr
  eventType : PyStr
  notificationType : Option PyStr
  subtype : Option PyStr
  fromTier : Option PyStr
  toTier : Option PyStr
  productId : Option PyStr
  originalTransactionId : Option PyStr
  transactionId : Option PyStr
  expiresAt : Option DateTime
  environment : Option PyStr
  source : PyStr
  priceUsd : Option ℚ
  effectiveAt : DateTime
  recordedAt : DateTime
  offerId : Option PyStr
  money : Money
deriving DecidableEq

/-- A row of `subscription_status` without its primary key, Apple's original transaction id. -/
structure SubscriptionStatus where
  userId : Option PyStr
  productId : Option PyStr
  tier : Option PyStr
  environment : Option PyStr
  status : Option Int
  money : Money
  expiresAt : Option DateTime
  paidEver : Bool
  transactionId : Option PyStr
  checkedAt : DateTime
  source : PyStr
deriving DecidableEq

/-- A row of `account_links`. -/
structure AccountLink where
  fromUserId : PyStr
  toUserId : PyStr
  reason : PyStr
  originalTransactionId : Option PyStr
deriving DecidableEq

/-- The tables of the billing code. -/
structure Db where
  users : Users
  events : List SubscriptionEvent
  status : Table PyStr SubscriptionStatus
  links : List AccountLink
  /-- The accounts and transactions of the `plan_conflict` rows of `anonymous_merges`. -/
  planConflicts : List (PyStr × PyStr)

/-- A database with one user and no history. -/
def Db.single (userId : PyStr) (account : Account) : Db :=
  ⟨.single userId account, [], ⟨[], by simp⟩, [], []⟩

/-- Run a statement on the `users` table. -/
def Db.onUsers (f : Users → Users) (db : Db) : Db := { db with users := f db.users }

@[simp] theorem Db.onUsers_users (f : Users → Users) (db : Db) :
    (db.onUsers f).users = f db.users := rfl
@[simp] theorem Db.onUsers_events (f : Users → Users) (db : Db) :
    (db.onUsers f).events = db.events := rfl
@[simp] theorem Db.onUsers_planConflicts (f : Users → Users) (db : Db) :
    (db.onUsers f).planConflicts = db.planConflicts := rfl

/-- `TIER_PRICE_USD`. -/
def priceForTier (tier : PyStr) : Option ℚ :=
  if tier = py "plus" then some (999 / 100)
  else if tier = py "pro" then some (1499 / 100)
  else none

/-- `is_paid_tier`. -/
def isPaidTier (tier : PyStr) : Bool := tier ≠ [] ∧ tier ≠ freeTier

/-- `PAID_EVENT_TYPES`, which are also the types that mark a subscriber. -/
def paidEventTypes : List PyStr := [py "subscribed", py "renewed", py "upgraded"]

/-- The row `mark_ever_subscribed` leaves: with a date, the first subscription only moves earlier. -/
def Account.markEverSubscribed (when? : Option DateTime) (account : Account) : Account :=
  { account with
    everSubscribed := true
    firstSubscribedAt := match when?, account.firstSubscribedAt with
      | none, first => first
      | some w, none => some w
      | some w, some first => if w.instant < first.instant then some w else some first }

/-- `mark_ever_subscribed`. -/
def markEverSubscribed (userId : PyStr) (when? : Option DateTime) (db : Db) : Db :=
  db.onUsers fun users => users.update userId (Account.markEverSubscribed when?)

/-- `record_subscription_event`: append the event, with the list price of a paid event that has no
price, and mark the user a subscriber when the event is a paid one. -/
def recordSubscriptionEvent (event : SubscriptionEvent) (db : Db) : Db :=
  let paid := decide (event.eventType ∈ paidEventTypes)
  let priceUsd := match event.priceUsd with
    | some price => some price
    | none => if paid then event.toTier.bind priceForTier else none
  let logged := { db with events := db.events ++ [{ event with priceUsd := priceUsd }] }
  if paid || (event.toTier.map isPaidTier).getD false then
    markEverSubscribed event.userId (some event.effectiveAt) logged
  else logged

/-- `COALESCE(new, old)` on each money field. -/
def Money.coalesce (new old : Money) : Money where
  pricePaid := new.pricePaid <|> old.pricePaid
  currency := new.currency <|> old.currency
  offerType := new.offerType <|> old.offerType
  offerDiscountType := new.offerDiscountType <|> old.offerDiscountType
  autoRenewStatus := new.autoRenewStatus <|> old.autoRenewStatus

/-- The status row an upsert leaves: a missing value keeps the stored one. -/
def SubscriptionStatus.coalesce (new old : SubscriptionStatus) : SubscriptionStatus where
  userId := new.userId <|> old.userId
  productId := new.productId <|> old.productId
  tier := new.tier <|> old.tier
  environment := new.environment <|> old.environment
  status := new.status <|> old.status
  money := new.money.coalesce old.money
  expiresAt := new.expiresAt <|> old.expiresAt
  paidEver := old.paidEver || new.paidEver
  transactionId := new.transactionId <|> old.transactionId
  checkedAt := new.checkedAt
  source := new.source

/-- `upsert_subscription_status`. -/
def upsertSubscriptionStatus (originalTransactionId : PyStr) (new : SubscriptionStatus) (db : Db) :
    Db :=
  let paidNow := decide (0 < new.money.pricePaid.getD 0)
  let new := { new with paidEver := paidNow }
  { db with status := db.status.upsert originalTransactionId new new.coalesce }

/-! ### What the bookkeeping leaves alone -/

@[simp] theorem upsertSubscriptionStatus_users (otid : PyStr) (new : SubscriptionStatus) (db : Db) :
    (upsertSubscriptionStatus otid new db).users = db.users := rfl

@[simp] theorem upsertSubscriptionStatus_events (otid : PyStr) (new : SubscriptionStatus) (db : Db) :
    (upsertSubscriptionStatus otid new db).events = db.events := rfl

theorem recordSubscriptionEvent_events (event : SubscriptionEvent) (db : Db) :
    ∃ priceUsd, (recordSubscriptionEvent event db).events =
      db.events ++ [{ event with priceUsd := priceUsd }] := by
  unfold recordSubscriptionEvent markEverSubscribed
  simp only
  split <;> exact ⟨_, rfl⟩

/-- The columns a period or a plan consists of, which the subscriber caches are not. -/
structure Plan where
  tier : PyStr
  monthlyCostLimitUsd : Option ℚ
  monthlyUsedUsd : ℚ
  overageBalanceUsd : ℚ
  searchesUsed : Nat
  generationsUsed : Nat
  allocationResetsAt : Option DateTime
  isTrial : Bool
  originalTransactionId : Option PyStr
deriving DecidableEq

/-- The plan of a row. -/
def Account.plan (account : Account) : Plan where
  tier := account.tier
  monthlyCostLimitUsd := account.monthlyCostLimitUsd
  monthlyUsedUsd := account.monthlyUsedUsd
  overageBalanceUsd := account.overageBalanceUsd
  searchesUsed := account.searchesUsed
  generationsUsed := account.generationsUsed
  allocationResetsAt := account.allocationResetsAt
  isTrial := account.isTrial
  originalTransactionId := account.originalTransactionId

@[simp] theorem Account.markEverSubscribed_plan (when? : Option DateTime) (account : Account) :
    (account.markEverSubscribed when?).plan = account.plan := rfl

theorem Account.markEverSubscribed_transaction (when? : Option DateTime) (account : Account) :
    (account.markEverSubscribed when?).originalTransactionId = account.originalTransactionId := rfl

/-- The plan of a user. -/
def Db.plan (db : Db) (userId : PyStr) : Option Plan := (db.users.get userId).map Account.plan

theorem markEverSubscribed_plan (userId other : PyStr) (when? : Option DateTime) (db : Db) :
    (markEverSubscribed userId when? db).plan other = db.plan other := by
  unfold Db.plan markEverSubscribed
  rw [Db.onUsers_users, Table.get_update]
  split
  · rw [Option.map_map]
    rfl
  · rfl

/-- Recording an event changes no plan. -/
theorem recordSubscriptionEvent_plan (event : SubscriptionEvent) (userId : PyStr) (db : Db) :
    (recordSubscriptionEvent event db).plan userId = db.plan userId := by
  unfold recordSubscriptionEvent
  simp only
  split
  · rw [markEverSubscribed_plan]
    rfl
  · rfl

end GhostPour.Billing

namespace GhostPour.Billing

/-- Two stamps in the order of their texts. -/
def isoLe (a b : DateTime) : Prop :=
  a.daysBefore < b.daysBefore ∨ a.daysBefore = b.daysBefore ∧ a.micros ≤ b.micros

instance (a b : DateTime) : Decidable (isoLe a b) :=
  inferInstanceAs (Decidable (_ ∨ _))

/-- `ORDER BY first ASC, second ASC`. -/
def orderBy (first second : SubscriptionEvent → DateTime) (a b : SubscriptionEvent) : Prop :=
  isoLe (first a) (first b) ∧ (isoLe (first b) (first a) → isoLe (second a) (second b))

instance (first second : SubscriptionEvent → DateTime) : DecidableRel (orderBy first second) :=
  fun _ _ => inferInstanceAs (Decidable (_ ∧ _))

/-- The rows of the log as the reports read them. -/
def reportRows (events : List SubscriptionEvent) : List SubscriptionEvent :=
  events.insertionSort (orderBy (·.effectiveAt) (·.recordedAt))

/-- `user_environments`: the environment of the latest event of each user that recorded one. -/
def userEnvironments (events : List SubscriptionEvent) : Assoc PyStr :=
  (events.insertionSort (orderBy (·.recordedAt) (·.effectiveAt))).foldl (fun envs r =>
    match r.environment with
    | none => envs
    | some environment => envs.set r.userId environment) []

/-- `PRODUCTION`. -/
def production : PyStr := py "Production"

/-- `SANDBOX`. -/
def sandbox : PyStr := py "Sandbox"

/-- `APPLE_NET_FACTOR`. -/
def appleNetFactor : ℚ := 85 / 100

/-- `is_paid_tier` on a tier that may be missing. -/
def isPaid (tier : Option PyStr) : Bool := tier.any isPaidTier

/-- The paid tier of each user, as far as the log has been replayed. -/
abbrev TierState := Assoc (Option PyStr)

/-- `r["to_tier"] if is_paid_tier(r["to_tier"]) else None`. -/
def paidTier (r : SubscriptionEvent) : Option PyStr := if isPaid r.toTier then r.toTier else none

/-- The tiers after an event. -/
def replayEvent (state : TierState) (r : SubscriptionEvent) : TierState :=
  state.set r.userId (paidTier r)

/-- How many users are on each paid tier. -/
def activeByTier (state : TierState) : Assoc Nat :=
  state.values.foldl (fun counts t =>
    match t with
    | none => counts
    | some tier =>
        if isPaidTier tier then counts.set tier ((counts.get tier).getD 0 + 1) else counts) []

/-- The list price of a set of subscribers. -/
def grossUsd (active : Assoc Nat) : ℚ :=
  (active.map fun entry => (priceForTier entry.1).getD 0 * entry.2).sum

/-- A month of the report. -/
structure MonthReport where
  month : Nat
  activeByTier : Assoc Nat
  activeTotal : Nat
  newSubscriptions : Nat
  churns : Nat
  grossUsd : ℚ
  netUsd : ℚ

/-- The tiers, the new subscriptions and the churns of a month, after another event of it. -/
def monthEvent (acc : TierState × Nat × Nat) (r : SubscriptionEvent) : TierState × Nat × Nat :=
  let (state, newSubs, churns) := acc
  let wasPaid := isPaid (state.get r.userId).join
  let nowPaid := (paidTier r).isSome
  let state := replayEvent state r
  if nowPaid && !wasPaid then (state, newSubs + 1, churns)
  else if wasPaid && !nowPaid then (state, newSubs, churns + 1)
  else (state, newSubs, churns)

/-- The report of some months, from the tiers before them. -/
def monthReports (rows : List SubscriptionEvent) : List Nat → TierState → List MonthReport
  | [], _ => []
  | month :: months, state =>
      let (state, newSubs, churns) :=
        (rows.filter fun r => r.effectiveAt.month = month).foldl monthEvent (state, 0, 0)
      let active := activeByTier state
      { month := month
        activeByTier := active
        activeTotal := active.values.sum
        newSubscriptions := newSubs
        churns := churns
        grossUsd := grossUsd active
        netUsd := grossUsd active * appleNetFactor } :: monthReports rows months state

/-- `months_range` on counted months. -/
def monthsRange (start stop : Nat) : List Nat := List.range' start (stop + 1 - start)

/-- The rows of the users whose environment is the App Store's. -/
def productionRows (events : List SubscriptionEvent) : List SubscriptionEvent :=
  (reportRows events).filter fun r => (userEnvironments events).get r.userId = some production

/-- `monthly_aggregates`. -/
def monthlyAggregates (now : DateTime) (events : List SubscriptionEvent) : List MonthReport :=
  match productionRows events with
  | [] => []
  | first :: rest =>
      monthReports (first :: rest) (monthsRange first.effectiveAt.month now.month) []

/-- A day of the trend. -/
structure DayReport where
  day : Nat
  mrrGrossSandboxUsd : ℚ
  activePaidSandbox : Nat
  mrrGrossUsd : ℚ
  mrrNetUsd : ℚ
  activePaid : Nat

/-- The paid tiers of the users of one environment. -/
def paidIn (envs : Assoc PyStr) (environment : PyStr) (state : TierState) :
    List (PyStr × Option PyStr) :=
  state.filter fun entry => isPaid entry.2 && decide (envs.get entry.1 = some environment)

/-- The list price of some subscribers. -/
def listPrice (active : List (PyStr × Option PyStr)) : ℚ :=
  (active.map fun entry => (entry.2.bind priceForTier).getD 0).sum

/-- The report of a day, from the tiers at its end. -/
def dayReport (envs : Assoc PyStr) (day : Nat) (state : TierState) : DayReport where
  day := day
  mrrGrossSandboxUsd := listPrice (paidIn envs sandbox state)
  activePaidSandbox := (paidIn envs sandbox state).length
  mrrGrossUsd := listPrice (paidIn envs production state)
  mrrNetUsd := listPrice (paidIn envs production state) * appleNetFactor
  activePaid := (paidIn envs production state).length

/-- `mrr_trend`. -/
def mrrTrend (now : DateTime) (events : List SubscriptionEvent) : List DayReport :=
  match reportRows events with
  | [] => []
  | first :: rest =>
      let start := first.effectiveAt.daysBefore
      (Replay.samples replayEvent (fun r => r.effectiveAt.daysBefore) (first :: rest)
        (List.range' start (now.daysBefore + 1 - start)) []).map fun sample =>
          dayReport (userEnvironments events) sample.1 sample.2

end GhostPour.Billing
