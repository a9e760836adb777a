/-
Module: GhostPour.Billing.Proofs.Redelivery
Layer: Proofs
Purpose: Apple delivers a notification at least once. Which notifications may be delivered twice
  without a trace: the ones that record nothing, and the ends of a subscription, which find a free
  plan the second time. A renewal and the two billing notices are recorded again each time.
Trusted boundary: none
Main exports: Harmless, RecordedEachTime, redelivery_harmless_iff
-/
import GhostPour.Billing.AppleWebhooks
import GhostPour.Billing.Users

namespace GhostPour.Billing

/-- The tier, the meter, the overage and the searches of a user. -/
def meters (db : Db) (userId : PyStr) : Option (PyStr × ℚ × ℚ × Nat) :=
  (db.users.get userId).map fun account =>
    (account.tier, account.monthlyUsedUsd, account.overageBalanceUsd, account.searchesUsed)

/-- The notification types that append an event each time they reach a user. -/
def NotificationType.RecordsEachTime (settings : WebhookSettings) (t : TransactionInfo) :
    NotificationType → Prop
  | .subscribed | .didRenew =>
      ∃ tier, truthy (tierOfProduct settings.tiers (t.productId.getD [])) = some tier
  | .didFailToRenew | .didChangeRenewalStatus => True
  | _ => False

/-! ### What a delivery does to the rows a lookup reads -/

/-- Every user is still there, with the transaction it stored or the one named now. -/
def KeepsTransactions (t : TransactionInfo) (users users' : Users) : Prop :=
  ∀ userId account, users.get userId = some account → ∃ account',
    users'.get userId = some account' ∧
      (account'.originalTransactionId = account.originalTransactionId ∨
        account'.originalTransactionId = truthy t.originalTransactionId)

theorem KeepsTransactions.refl (t : TransactionInfo) (users : Users) :
    KeepsTransactions t users users :=
  fun _ account stored => ⟨account, stored, .inl rfl⟩

theorem KeepsTransactions.trans {t : TransactionInfo} {one two three : Users}
    (first : KeepsTransactions t one two) (second : KeepsTransactions t two three) :
    KeepsTransactions t one three := by
  intro userId account stored
  obtain ⟨account', stored', kept⟩ := first userId account stored
  obtain ⟨account'', stored'', kept'⟩ := second userId account' stored'
  refine ⟨account'', stored'', ?_⟩
  rcases kept' with same | named
  · rwa [same]
  · exact .inr named

theorem keepsTransactions_update (t : TransactionInfo) (users : Users) (userId : PyStr)
    {f : Account → Account}
    (keeps : ∀ account, (f account).originalTransactionId = account.originalTransactionId ∨
      (f account).originalTransactionId = truthy t.originalTransactionId) :
    KeepsTransactions t users (users.update userId f) := by
  intro other account stored
  rw [Table.get_update]
  split
  · exact ⟨f account, by rw [stored]; rfl, keeps account⟩
  · exact ⟨account, stored, .inl rfl⟩

theorem keepsTransactions_recordEvent (t : TransactionInfo) (event : SubscriptionEvent) (db : Db) :
    KeepsTransactions t db.users (recordSubscriptionEvent event db).users := by
  unfold recordSubscriptionEvent markEverSubscribed
  simp only
  split
  · exact keepsTransactions_update t _ _ fun _ => .inl rfl
  · exact .refl t _

theorem keepsTransactions_recordCosts (t : TransactionInfo) (calls : List CostCall)
    (users : Users) : KeepsTransactions t users (recordCosts calls users) := by
  intro userId account stored
  obtain ⟨cost, recorded⟩ := recordCosts_get calls users userId
  exact ⟨account.addCost cost, by rw [recorded, stored]; rfl, .inl rfl⟩

theorem keepsTransactions_adopt (t : TransactionInfo) (userId : PyStr) (byToken : Bool) (db : Db) :
    KeepsTransactions t db.users (adoptTransaction userId t byToken db).users := by
  unfold adoptTransaction
  split
  · next otid named => exact keepsTransactions_update t _ _ fun _ => .inr named.symm
  · exact .refl t _

theorem keepsTransactions_applyUpgrade (settings : WebhookSettings) (now : DateTime)
    (n : Notification) (t : TransactionInfo) (userId : PyStr) (account : Account) (byToken : Bool)
    (db : Db) : KeepsTransactions t db.users
      (applyUpgrade settings now n t userId account byToken db).2.users := by
  unfold applyUpgrade
  split
  · exact .refl t _
  · next newTier _ =>
    refine (keepsTransactions_adopt t userId byToken db).trans ?_
    simp only
    split <;> refine .trans ?_ (keepsTransactions_recordEvent t _ _)
    · exact keepsTransactions_update t _ _ fun _ => .inl rfl
    · unfold upgradeToTier
      split
      · exact .refl t _
      · exact keepsTransactions_update t _ _ fun _ => .inl rfl

section
variable [PyRuntime]

/-- The rows a lookup can find are still found. -/
theorem findUser_isSome_of_keeps {t : TransactionInfo} {users users' : Users}
    (keeps : KeepsTransactions t users users') (found : (findUser users t).isSome) :
    (findUser users' t).isSome := by
  obtain ⟨⟨userId, account, byToken⟩, row⟩ := Option.isSome_iff_exists.mp found
  obtain ⟨stored, byTransaction, byName⟩ := findUser_some row
  obtain ⟨account', stored', kept⟩ := keeps userId account stored
  by_cases unclaimed : Unclaimed users' t
  · cases byToken with
    | false =>
        -- the row still stores the transaction
        obtain ⟨otid, named, holds⟩ := byTransaction rfl
        rw [holds, named, or_self] at kept
        exact absurd kept (unclaimed otid named userId account' stored')
    | true => simp [findUser_of_token unclaimed (byName rfl).2 stored']
  · unfold Unclaimed at unclaimed
    push Not at unclaimed
    obtain ⟨otid, named, other, holder, held, holds⟩ := unclaimed
    have primary : ((truthy t.originalTransactionId).bind fun otid =>
        users'.first fun _ account => account.originalTransactionId = some otid) ≠ none := by
      rw [named, Option.bind_some, ne_eq, Table.first_none_iff]
      intro absent
      simpa [holds] using absent other holder held
    obtain ⟨⟨other', holder'⟩, first⟩ := Option.ne_none_iff_exists'.mp primary
    unfold findUser
    simp [first]

/-- An update that leaves the stored transactions alone does not change who is found. -/
theorem findUser_update (t : TransactionInfo) (users : Users) (userId : PyStr)
    {f : Account → Account}
    (keeps : ∀ account, (f account).originalTransactionId = account.originalTransactionId) :
    findUser (users.update userId f) t = (findUser users t).map fun row =>
      (row.1, if row.1 = userId then f row.2.1 else row.2.1, row.2.2) := by
  have primary : ((truthy t.originalTransactionId).bind fun otid =>
      (users.update userId f).first fun _ account => account.originalTransactionId = some otid) =
      ((truthy t.originalTransactionId).bind fun otid =>
        users.first fun _ account => account.originalTransactionId = some otid).map
          (Table.updateRow (fun k _ => k = userId) f) := by
    cases truthy t.originalTransactionId with
    | none => rfl
    | some otid =>
        simp only [Option.bind_some, Table.update]
        exact Table.first_updateWhere users _ fun _ account => by simp [keeps]
  unfold findUser
  simp only [primary]
  cases ((truthy t.originalTransactionId).bind fun otid =>
      users.first fun _ account => account.originalTransactionId = some otid) with
  | some row =>
      by_cases here : row.1 = userId <;> simp [Table.updateRow, here]
  | none =>
      cases truthy t.appAccountToken with
      | none => rfl
      | some token =>
          simp only [Option.map_none, Option.bind_some, Table.get_update]
          by_cases here : lower token = userId <;> simp [here, Function.comp_def]

/-- Who is found, and on which tier. -/
def foundTier (users : Users) (t : TransactionInfo) : Option (PyStr × PyStr) :=
  (findUser users t).map fun row => (row.1, row.2.1.tier)

theorem foundTier_recordCosts (t : TransactionInfo) (calls : List CostCall) (users : Users) :
    foundTier (recordCosts calls users) t = foundTier users t := by
  unfold recordCosts
  induction calls generalizing users with
  | nil => rfl
  | cons call calls ih =>
      rw [List.foldl_cons, ih]
      unfold recordCost foundTier
      split
      · rfl
      · rw [findUser_update t users call.userId (Account.addCost_transaction call.cost),
          Option.map_map]
        congr 1
        funext row
        simp only [Function.comp_apply]
        split <;> rfl

theorem foundTier_recordEvent (t : TransactionInfo) (event : SubscriptionEvent) (db : Db) :
    foundTier (recordSubscriptionEvent event db).users t = foundTier db.users t := by
  unfold recordSubscriptionEvent markEverSubscribed foundTier
  simp only
  split
  · rw [Db.onUsers_users, findUser_update t _ event.userId
      (Account.markEverSubscribed_transaction _), Option.map_map]
    congr 1
    funext row
    simp only [Function.comp_apply]
    split <;> rfl
  · rfl

/-! ### One delivery -/

/-- A notification recorded each time appends one event. -/
theorem events_of_recordsEachTime {settings : WebhookSettings} {n : Notification}
    {t : TransactionInfo} (records : n.type.RecordsEachTime settings t)
    (passed : gate settings n = .ok t) (now : DateTime) (db : Db)
    (found : (findUser db.users t).isSome) :
    (appleNotifications settings now n db).2.events.length = db.events.length + 1 := by
  obtain ⟨⟨userId, account, byToken⟩, row⟩ := Option.isSome_iff_exists.mp found
  have appends : ∀ (event : SubscriptionEvent) (db' : Db), db'.events = db.events →
      (recordSubscriptionEvent event db').events.length = db.events.length + 1 := by
    intro event db' same
    obtain ⟨price, appended⟩ := recordSubscriptionEvent_events event db'
    simp [appended, same]
  have upgrade : (∃ tier, truthy (tierOfProduct settings.tiers (t.productId.getD [])) = some tier) →
      (applyUpgrade settings now n t userId account byToken
        (recordStatus settings now n t userId db)).2.events.length = db.events.length + 1 := by
    rintro ⟨tier, mapped⟩
    unfold applyUpgrade
    simp only [mapped]
    split <;> exact appends _ _ (by simp [renewSameTier])
  unfold appleNotifications
  simp only [passed, row]
  unfold applyNotification
  cases type : n.type <;> rw [type] at records <;>
    first
      | exact upgrade records
      | exact appends _ _ (recordStatus_events _ _ _ _ _ _)
      | exact records.elim

/-- A delivery that is neither recorded each time nor the end of a subscription changes nothing. -/
theorem delivery_inert {settings : WebhookSettings} {n : Notification} {t : TransactionInfo}
    (passed : gate settings n = .ok t) (quiet : ¬ n.type.RecordsEachTime settings t)
    (notEnd : ¬ n.type.EndsPlan) (now : DateTime) (db : Db) :
    (appleNotifications settings now n db).2.users = db.users ∧
      (appleNotifications settings now n db).2.events = db.events := by
  unfold appleNotifications
  simp only [passed]
  split
  · exact ⟨rfl, rfl⟩
  · next userId account byToken _ =>
    have upgrade : ¬ (∃ tier, truthy (tierOfProduct settings.tiers (t.productId.getD [])) =
        some tier) → ∀ db', (applyUpgrade settings now n t userId account byToken db').2 = db' := by
      intro unmapped db'
      unfold applyUpgrade
      split
      · rfl
      · next tier mapped => exact absurd ⟨tier, mapped⟩ unmapped
    unfold applyNotification
    cases type : n.type <;> rw [type] at quiet notEnd <;>
      first
        | exact absurd trivial quiet
        | (refine absurd ?_ notEnd; simp [NotificationType.EndsPlan]; done)
        | simp only [upgrade quiet, recordStatus_users, recordStatus_events, and_self]
        | simp only [recordStatus_users, recordStatus_events, and_self]

/-- The end of a subscription leaves the user it is about on the free tier. -/
theorem foundTier_after_end {settings : WebhookSettings} {n : Notification} {t : TransactionInfo}
    (passed : gate settings n = .ok t) (ends : n.type.EndsPlan) (now : DateTime) (db : Db)
    {userId tier : PyStr}
    (found : foundTier (appleNotifications settings now n db).2.users t = some (userId, tier)) :
    tier = freeTier := by
  obtain ⟨eventType, action, downgrade⟩ := applyNotification_of_endsPlan ends
  unfold appleNotifications at found
  simp only [passed] at found
  cases row : findUser db.users t with
  | none => simp [row, foundTier] at found
  | some row' =>
      obtain ⟨userId', account, byToken⟩ := row'
      simp only [row, downgrade, applyDowngrade] at found
      by_cases free : account.tier = freeTier
      · rw [if_pos free] at found
        simp [foundTier, row, free] at found
        exact found.2.symm
      · have downgraded : foundTier
            (downgradeToFree settings.tiers userId' (recordStatus settings now n t userId' db)).users
            t = some (userId', freeTier) := by
          unfold foundTier downgradeToFree
          rw [Db.onUsers_users, recordStatus_users, findUser_update t db.users userId'
            (Account.downgradeToFree_transaction settings.tiers), row]
          simp [Account.downgradeToFree]
        rw [if_neg free, foundTier_recordEvent, downgraded] at found
        exact (Prod.ext_iff.mp (Option.some.inj found)).2.symm

/-- The end of a subscription of a user without a plan changes nothing. -/
theorem end_of_free_inert {settings : WebhookSettings} {n : Notification} {t : TransactionInfo}
    (passed : gate settings n = .ok t) (ends : n.type.EndsPlan) (now : DateTime) (db : Db)
    (free : ∀ userId tier, foundTier db.users t = some (userId, tier) → tier = freeTier) :
    (appleNotifications settings now n db).2.users = db.users ∧
      (appleNotifications settings now n db).2.events = db.events := by
  obtain ⟨eventType, action, downgrade⟩ := applyNotification_of_endsPlan ends
  unfold appleNotifications
  simp only [passed]
  split
  · exact ⟨rfl, rfl⟩
  · next userId account byToken row =>
    have tier := free userId account.tier (by simp [foundTier, row])
    simp [downgrade, applyDowngrade, tier]

/-! ### Two deliveries -/

/-- A second delivery, with costs recorded between the two, leaves every user and the event log as
the first one and the costs left them. -/
def Harmless (settings : WebhookSettings) (n : Notification) (first second : DateTime)
    (calls : List CostCall) (db : Db) : Prop :=
  let once := (appleNotifications settings first n db).2.onUsers (recordCosts calls)
  let twice := (appleNotifications settings second n once).2
  (∀ userId, meters twice userId = meters once userId) ∧ twice.events = once.events

/-- The notification is for one of our subscriptions, reaches a user, and is of a type that is
recorded each time. -/
def RecordedEachTime (settings : WebhookSettings) (n : Notification) (users : Users) : Prop :=
  ∃ t, gate settings n = .ok t ∧ (findUser users t).isSome ∧ n.type.RecordsEachTime settings t

theorem harmless_of_inert {settings : WebhookSettings} {n : Notification} {first second : DateTime}
    {calls : List CostCall} {db : Db}
    (inert : let once := (appleNotifications settings first n db).2.onUsers (recordCosts calls)
      (appleNotifications settings second n once).2.users = once.users ∧
        (appleNotifications settings second n once).2.events = once.events) :
    Harmless settings n first second calls db :=
  ⟨fun userId => by rw [meters, meters, inert.1], inert.2⟩

/-- A delivery keeps the transactions the rows store, but for the one it names. -/
theorem keepsTransactions_of_recordsEachTime {settings : WebhookSettings} {n : Notification}
    {t : TransactionInfo} (records : n.type.RecordsEachTime settings t)
    (passed : gate settings n = .ok t) (now : DateTime) (db : Db) :
    KeepsTransactions t db.users (appleNotifications settings now n db).2.users := by
  unfold appleNotifications
  simp only [passed]
  split
  · exact .refl t _
  · next userId account byToken _ =>
    have upgrade := keepsTransactions_applyUpgrade settings now n t userId account byToken
      (recordStatus settings now n t userId db)
    have notice : ∀ event, KeepsTransactions t db.users
        (recordSubscriptionEvent event (recordStatus settings now n t userId db)).users := by
      intro event
      simpa using keepsTransactions_recordEvent t event (recordStatus settings now n t userId db)
    rw [recordStatus_users] at upgrade
    unfold applyNotification
    cases type : n.type <;> rw [type] at records <;>
      first
        | exact upgrade
        | exact notice _
        | exact records.elim

/-- A notification may be delivered twice exactly when it is not one that is recorded each time. -/
theorem redelivery_harmless_iff (settings : WebhookSettings) (n : Notification)
    (first second : DateTime) (calls : List CostCall) (db : Db) :
    Harmless settings n first second calls db ↔ ¬ RecordedEachTime settings n db.users := by
  constructor
  · rintro ⟨_, sameEvents⟩ ⟨t, passed, found, records⟩
    have kept := (keepsTransactions_of_recordsEachTime records passed first db).trans
      (keepsTransactions_recordCosts t calls _)
    have again := events_of_recordsEachTime records passed second
      ((appleNotifications settings first n db).2.onUsers (recordCosts calls))
      (findUser_isSome_of_keeps kept found)
    rw [sameEvents] at again
    omega
  · intro quiet
    refine harmless_of_inert ?_
    cases passed : gate settings n with
    | error action => simp [appleNotifications, passed]
    | ok t =>
        by_cases ends : n.type.EndsPlan
        · refine end_of_free_inert passed ends second _ fun userId tier found => ?_
          rw [Db.onUsers_users, foundTier_recordCosts] at found
          exact foundTier_after_end passed ends first db found
        · by_cases records : n.type.RecordsEachTime settings t
          · -- the notification reaches nobody, before or after
            have nobody : findUser db.users t = none := by
              by_contra found
              exact quiet ⟨t, passed, Option.ne_none_iff_isSome.mp found, records⟩
            have still : findUser (recordCosts calls db.users) t = none := by
              have same := foundTier_recordCosts t calls db.users
              simpa [foundTier, nobody] using same
            simp [appleNotifications, passed, nobody, still]
          · exact delivery_inert passed records ends second _

end

/-- A free account that has spent nothing. -/
def newcomer : Db := .single (py "u") Account.signUp

/-- A renewal delivered twice is two events. -/
theorem renewal_redelivered :
    letI := PyRuntime.ascii
    ¬ Harmless shoulderSurf (proNotification .didRenew (py "1000") (some (py "u"))) jan1 feb1
      [] newcomer := by
  intro harmless
  have same := congrArg List.length harmless.2
  revert same
  decide +kernel

end GhostPour.Billing
