/-
Module: GhostPour.Billing.Proofs.PeriodCounters
Layer: Proofs
Purpose: What the counters of a new allocation period start from. Four statements in three modules
  open a period; the lazy reset and the paid receipt zero all four counters, a renewal or an upgrade
  leaves the generations and a trial the searches and the generations. A plan that moves in from
  another account brings the period it is in, so it opens none.
Trusted boundary: none
Main exports: Counters, BillingStep, OpensPeriod, StartsClear, opened_period_is_clear_iff
-/
import GhostPour.Billing.Users
import GhostPour.Billing.VerifyReceipt

namespace GhostPour.Billing

/-- The counters of an allocation period. -/
structure Counters where
  monthlyUsedUsd : ℚ
  overageBalanceUsd : ℚ
  searchesUsed : Nat
  generationsUsed : Nat
deriving DecidableEq

/-- The counters of a period in which nothing has been used. -/
def Counters.zero : Counters := ⟨0, 0, 0, 0⟩

/-- The counters of a row. -/
def Account.counters (account : Account) : Counters :=
  ⟨account.monthlyUsedUsd, account.overageBalanceUsd, account.searchesUsed, account.generationsUsed⟩

/-- The counters of a user. -/
def Db.counters (db : Db) (userId : PyStr) : Option Counters :=
  (db.users.get userId).map Account.counters

/-! ### What each statement leaves in the counters -/

theorem counters_onUsers_update (db : Db) (userId : PyStr) (f : Account → Account) :
    (db.onUsers fun users => users.update userId f).counters userId =
      (db.users.get userId).map fun account => (f account).counters := by
  unfold Db.counters
  rw [Db.onUsers_users, Table.get_update_self, Option.map_map]
  rfl

/-- The subscriber caches are not counters. -/
theorem counters_markEverSubscribed (userId other : PyStr) (when? : Option DateTime) (db : Db) :
    (markEverSubscribed userId when? db).counters other = db.counters other := by
  unfold Db.counters markEverSubscribed
  rw [Db.onUsers_users, Table.get_update]
  split
  · rw [Option.map_map]
    rfl
  · rfl

theorem counters_recordSubscriptionEvent (event : SubscriptionEvent) (userId : PyStr) (db : Db) :
    (recordSubscriptionEvent event db).counters userId = db.counters userId := by
  unfold recordSubscriptionEvent
  simp only
  split
  · rw [counters_markEverSubscribed]
    rfl
  · rfl

theorem counters_adoptTransaction (userId : PyStr) (t : TransactionInfo) (byToken : Bool) (db : Db) :
    (adoptTransaction userId t byToken db).counters userId = db.counters userId := by
  unfold adoptTransaction
  split
  · rw [counters_onUsers_update]
    rfl
  · rfl

theorem get_detachTransaction (otid : Option PyStr) (userId : PyStr) (db : Db) :
    (detachTransaction otid userId db).users.get userId = db.users.get userId := by
  unfold detachTransaction
  split
  · rfl
  · rw [Db.onUsers_users, Table.get_updateWhere]
    simp

/-- The tier of a product is a tier of the configuration. -/
theorem TierConfig.get_of_tierOfProduct {config : TierConfig} {product name : PyStr}
    (mapped : tierOfProduct config product = some name) : ∃ tier, config.get name = some tier := by
  obtain ⟨assignment, found, rfl⟩ := Option.map_eq_some_iff.mp mapped
  have member := List.mem_reverse.mp (List.mem_of_find?_eq_some found)
  obtain ⟨entry, listed, inEntry⟩ := List.mem_flatMap.mp member
  obtain ⟨_, _, same⟩ := List.mem_map.mp inEntry
  have some : (config.find? (·.1 = assignment.2)).isSome := by
    rw [List.find?_isSome]
    exact ⟨entry, listed, by simp [← same]⟩
  obtain ⟨found', eq⟩ := Option.isSome_iff_exists.mp some
  exact ⟨found'.2, by simp [TierConfig.get, eq]⟩

/-- A renewal and an upgrade zero three counters and leave the generations. -/
theorem counters_applyUpgrade {settings : WebhookSettings} {now : DateTime} {n : Notification}
    {t : TransactionInfo} {userId newTier : PyStr} {account row : Account} {byToken : Bool} {db : Db}
    (mapped : truthy (tierOfProduct settings.tiers (t.productId.getD [])) = some newTier)
    (stored : db.users.get userId = some row) :
    (applyUpgrade settings now n t userId account byToken db).2.counters userId =
      some { Counters.zero with generationsUsed := row.generationsUsed } := by
  have kept := counters_adoptTransaction userId t byToken db
  unfold Db.counters at kept
  rw [stored, Option.map_some] at kept
  obtain ⟨row', stored', same⟩ := Option.map_eq_some_iff.mp kept
  have generations : row'.generationsUsed = row.generationsUsed :=
    congrArg Counters.generationsUsed same
  unfold applyUpgrade
  simp only [mapped]
  split <;> rw [counters_recordSubscriptionEvent]
  · unfold renewSameTier
    rw [counters_onUsers_update, stored', ← generations]
    rfl
  · obtain ⟨tier, known⟩ := TierConfig.get_of_tierOfProduct (truthy_eq_some.mp mapped).1
    unfold upgradeToTier
    simp only [known]
    rw [counters_onUsers_update, stored', ← generations]
    rfl

/-- A trial leaves the searches and the generations. -/
theorem counters_applyTrial {accepted : AcceptedReceipt} {now : DateTime} {userId : PyStr}
    {user : Account} {db : Db} (stored : db.users.get userId = some user)
    (change : accepted.isStateChange user = true) :
    (applyTrial accepted now userId user db).counters userId =
      some { Counters.zero with
             searchesUsed := user.searchesUsed, generationsUsed := user.generationsUsed } := by
  unfold applyTrial
  simp only [change, if_true]
  rw [counters_recordSubscriptionEvent]
  split
  · rw [counters_onUsers_update, Db.onUsers_users, Table.get_update_self, stored]
    rfl
  · rw [counters_onUsers_update, stored]
    rfl

/-- A paid receipt zeroes all four counters. -/
theorem counters_applyPaid {accepted : AcceptedReceipt} {now : DateTime} {userId : PyStr}
    {user : Account} {db : Db} (stored : db.users.get userId = some user)
    (change : accepted.isStateChange user = true) :
    (applyPaid accepted now userId user db).counters userId = some Counters.zero := by
  unfold applyPaid
  simp only [change, if_true]
  rw [counters_recordSubscriptionEvent, counters_onUsers_update, stored]
  rfl

/-- The lazy reset zeroes all four counters. -/
theorem counters_lazyReset {now current : DateTime} {account : Account}
    (set : account.allocationResetsAt = some current) (due : current.instant ≤ now.instant) :
    (account.lazyReset now).counters = Counters.zero := by
  simp [Account.lazyReset, set, not_lt.mpr due, Account.resetCounters, Account.counters,
    Counters.zero]

/-! ### Steps -/

/-- A step of the billing code. -/
inductive BillingStep where
  | lazyReset (userId : PyStr) (now : DateTime)
  | notification (settings : WebhookSettings) (now : DateTime) (n : Notification)
  | receipt (settings : ReceiptSettings) (now : DateTime) (userId : PyStr) (body : Receipt)
      (identity : TransactionIdentity)
  | cost (call : CostCall)

/-- A plan moves in from another account: its transaction is signed and a paid account holds it. -/
def PlanMovesIn (db : Db) (userId : PyStr) (identity : TransactionIdentity) : Prop :=
  identity.verified = true ∧
    ∃ holder ∈ holders identity.originalTransactionId userId db, isPaidTier holder.2.tier = true

theorem movePlan_of_not_movesIn {db db' : Db} {tiers : TierConfig} {userId : PyStr}
    {identity : TransactionIdentity} (stays : ¬ PlanMovesIn db userId identity) :
    (movePlan tiers (holders identity.originalTransactionId userId db) userId identity.verified
      identity.originalTransactionId db').1 = db' := by
  refine movePlan_none ?_
  unfold movePlan
  split
  · next first rest signed paid =>
    have member : first ∈ (holders identity.originalTransactionId userId db).filter
        fun holder => isPaidTier holder.2.tier := by simp [paid]
    rw [List.mem_filter] at member
    exact absurd ⟨signed, first, member⟩ stays
  · rfl

section
variable [PyRuntime]

/-- Take a step. -/
def BillingStep.apply : BillingStep → Db → Db
  | .lazyReset userId now, db => db.onUsers fun users => (lazyResetIfDue userId now users).1
  | .notification settings now n, db => (appleNotifications settings now n db).2
  | .receipt settings now userId body identity, db =>
      (verifyReceipt settings now userId body identity db).2
  | .cost call, db => db.onUsers (recordCost call)

/-- Take steps one after the other. -/
def run (steps : List BillingStep) (db : Db) : Db :=
  steps.foldl (fun db step => step.apply db) db

/-- The step opens a new allocation period for a user: the lazy reset is due, a renewal or a purchase
reaches the user, or a receipt changes the user's state with no plan moving in. -/
def BillingStep.OpensPeriod (db : Db) (userId : PyStr) : BillingStep → Prop
  | .lazyReset user now =>
      user = userId ∧ ∃ account current, db.users.get userId = some account ∧
        account.allocationResetsAt = some current ∧ current.instant ≤ now.instant
  | .notification settings _ n =>
      (n.type = .subscribed ∨ n.type = .didRenew) ∧ ∃ t account byToken newTier,
        gate settings n = .ok t ∧ findUser db.users t = some (userId, account, byToken) ∧
          truthy (tierOfProduct settings.tiers (t.productId.getD [])) = some newTier
  | .receipt settings _ user body identity =>
      user = userId ∧ ∃ account accepted, db.users.get userId = some account ∧
        acceptReceipt settings userId body identity db = .ok accepted ∧
          isPlanConflict db userId identity = false ∧ accepted.isStateChange account = true ∧
            ¬ PlanMovesIn db userId identity
  | .cost _ => False

/-- The counters that the step does not zero are zero already: the generations at a renewal or an
upgrade, the searches and the generations at the start of a trial. -/
def BillingStep.StartsClear (db : Db) (userId : PyStr) (step : BillingStep) : Prop :=
  ∀ account, db.users.get userId = some account →
    match step with
    | .notification _ _ _ => account.generationsUsed = 0
    | .receipt _ _ _ body _ => receiptIsTrial body = true →
        account.searchesUsed = 0 ∧ account.generationsUsed = 0
    | _ => True

omit [PyRuntime] in
/-- An accepted receipt is a trial when the request says so. -/
theorem acceptReceipt_isTrial {settings : ReceiptSettings} {userId : PyStr} {receipt : Receipt}
    {identity : TransactionIdentity} {db : Db} {accepted : AcceptedReceipt}
    (ok : acceptReceipt settings userId receipt identity db = .ok accepted) :
    accepted.isTrial = receiptIsTrial receipt ∧ accepted.identity = identity := by
  unfold acceptReceipt at ok
  simp only at ok
  split at ok
  · split at ok <;> cases ok
  · split at ok
    · cases ok
    · split at ok
      · cases ok
      · split at ok
        · cases ok
        · cases ok
          exact ⟨rfl, rfl⟩

/-- In every run, a step that opens an allocation period for a user leaves all four counters at zero
exactly when the counters it does not zero were at zero. -/
theorem opened_period_is_clear_iff (steps : List BillingStep) (initial : Db) (step : BillingStep)
    (userId : PyStr) (opens : step.OpensPeriod (run steps initial) userId) :
    (step.apply (run steps initial)).counters userId = some Counters.zero ↔
      step.StartsClear (run steps initial) userId := by
  generalize run steps initial = db at opens ⊢
  cases step with
  | lazyReset user now =>
      obtain ⟨rfl, account, current, stored, set, due⟩ := opens
      have zero : ((BillingStep.lazyReset user now).apply db).counters user =
          some Counters.zero := by
        unfold Db.counters BillingStep.apply
        rw [Db.onUsers_users, lazyResetIfDue_get, if_pos rfl, stored]
        simp [counters_lazyReset set due]
      simp [zero, BillingStep.StartsClear]
  | notification settings now n =>
      obtain ⟨type, t, account, byToken, newTier, passed, found, mapped⟩ := opens
      have stored := (findUser_some found).1
      have after : ((BillingStep.notification settings now n).apply db).counters userId =
          some { Counters.zero with generationsUsed := account.generationsUsed } := by
        unfold BillingStep.apply appleNotifications
        simp only [passed, found]
        rcases type with type | type <;> simp only [applyNotification, type] <;>
          exact counters_applyUpgrade mapped (by rw [recordStatus_users]; exact stored)
      simp [after, BillingStep.StartsClear, stored, Counters.zero]
  | receipt settings now user body identity =>
      obtain ⟨rfl, account, accepted, stored, ok, noConflict, change, stays⟩ := opens
      obtain ⟨trial, own⟩ := acceptReceipt_isTrial ok
      have detached := (get_detachTransaction accepted.identity.originalTransactionId user db).trans
        stored
      have after : ((BillingStep.receipt settings now user body identity).apply db).counters user =
          if receiptIsTrial body then
            some { Counters.zero with
                   searchesUsed := account.searchesUsed, generationsUsed := account.generationsUsed }
          else some Counters.zero := by
        unfold BillingStep.apply verifyReceipt
        simp only [stored, ok, noConflict, Bool.false_eq_true, if_false]
        rw [movePlan_of_not_movesIn stays, applyReceipt, counters_markEverSubscribed, ← trial]
        split
        · exact counters_applyTrial detached change
        · exact counters_applyPaid detached change
      rw [after]
      by_cases claims : receiptIsTrial body = true <;>
        simp [claims, BillingStep.StartsClear, stored, Counters.zero]
  | cost call => exact opens.elim

end

/-- A Pro account that has made three generations in its period. -/
def proWithGenerations : Db :=
  .single (py "u") { Account.signUp with
    tier := py "pro", generationsUsed := 3, originalTransactionId := some (py "1000") }

/-- The renewal of that account's subscription. -/
def renewal : BillingStep :=
  .notification shoulderSurf jan1
    (proNotification .didRenew (py "1000") none)

theorem opened_period_is_clear_iff_renewal :
    letI := PyRuntime.ascii
    (renewal.apply (run [] proWithGenerations)).counters (py "u") = some Counters.zero ↔
      renewal.StartsClear (run [] proWithGenerations) (py "u") :=
  letI := PyRuntime.ascii
  opened_period_is_clear_iff [] proWithGenerations renewal (py "u")
    ⟨.inr rfl, _, _, _, py "pro", rfl, rfl, by decide +kernel⟩

/-- A renewal carries the generations of the period it ends into the one it opens. -/
theorem renewal_carries_generations :
    letI := PyRuntime.ascii
    renewal.OpensPeriod proWithGenerations (py "u") ∧
      (renewal.apply proWithGenerations).counters (py "u") =
        some { Counters.zero with generationsUsed := 3 } :=
  letI := PyRuntime.ascii
  ⟨⟨.inr rfl, _, _, _, py "pro", rfl, rfl, by decide +kernel⟩, by decide +kernel⟩

end GhostPour.Billing
