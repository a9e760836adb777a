/-
Module: GhostPour.Billing.Proofs.TransactionHolders
Layer: Proofs
Purpose: Who holds which transaction. The column has no unique index; four operations write it. A
  receipt seizes the transaction it presents, a notification adopts one that no row stores, a merge
  passes one on, and a move of a plan leaves the column alone, so that every transaction has one
  holder.
Trusted boundary: none
Main exports: Db.holds, verifyReceipt_holds, notification_holds, mergeInto_holds, OwnershipStep,
  transaction_has_one_holder
-/
import GhostPour.Billing.PlanMoves
import GhostPour.Billing.Proofs.PeriodCounters
import GhostPour.Billing.VerifyReceipt
import GhostPour.Library.Ledgers
import GhostPour.Library.Machine

namespace GhostPour.Billing

/-- The transaction a user's row stores. -/
def Db.holds (db : Db) (userId : PyStr) : Option PyStr :=
  (db.users.get userId).bind Account.originalTransactionId

/-! ### Statements that leave the column alone -/

section
variable (db : Db)

theorem holds_update (userId : PyStr) {f : Account → Account}
    (keeps : ∀ a, (f a).originalTransactionId = a.originalTransactionId) :
    (db.onUsers fun users => users.update userId f).holds = db.holds := by
  funext k
  rw [Db.holds, Db.onUsers_users, Table.get_update]
  split
  · rw [Option.bind_map]
    exact congrArg (Option.bind _) (funext keeps)
  · rfl

theorem holds_markEverSubscribed (userId : PyStr) (when? : Option DateTime) :
    (markEverSubscribed userId when? db).holds = db.holds :=
  holds_update db userId fun _ => rfl

theorem holds_recordSubscriptionEvent (event : SubscriptionEvent) :
    (recordSubscriptionEvent event db).holds = db.holds := by
  unfold recordSubscriptionEvent
  simp only
  split
  · exact holds_markEverSubscribed _ _ _
  · rfl

theorem holds_downgradeToFree (tiers : TierConfig) (userId : PyStr) :
    (downgradeToFree tiers userId db).holds = db.holds :=
  holds_update db userId fun _ => rfl

theorem holds_link (fromUserId toUserId reason : PyStr) (otid : Option PyStr) :
    (link fromUserId toUserId reason otid db).holds = db.holds := by
  unfold link
  split <;> rfl

theorem holds_recordStatus (settings : WebhookSettings) (now : DateTime) (n : Notification)
    (t : TransactionInfo) (userId : PyStr) :
    (recordStatus settings now n t userId db).holds = db.holds := by
  funext k
  rw [Db.holds, recordStatus_users]
  rfl

theorem holds_upgradeToTier (tiers : TierConfig) (now : DateTime) (userId name : PyStr)
    (appleExpires : Option DateTime) :
    (upgradeToTier tiers now userId name appleExpires db).holds = db.holds := by
  unfold upgradeToTier
  split
  · rfl
  · exact holds_update db userId fun _ => rfl

/-- A plan that moves takes the usage along, not the column. -/
theorem holds_movePlan (tiers : TierConfig) (heldBy : List (PyStr × Account)) (toUserId : PyStr)
    (verified : Bool) (otid : Option PyStr) :
    (movePlan tiers heldBy toUserId verified otid db).1.holds = db.holds := by
  have downgraded : ∀ (paid : List (PyStr × Account)) (db : Db),
      (paid.foldl (fun db holder =>
        link holder.1 toUserId (py "restore") otid (downgradeToFree tiers holder.1 db)) db).holds =
          db.holds := by
    intro paid
    induction paid with
    | nil => exact fun _ => rfl
    | cons holder paid ih =>
        intro db
        rw [List.foldl_cons, ih, holds_link, holds_downgradeToFree]
  unfold movePlan
  split
  · next first rest _ =>
    have moved := (downgraded (first :: rest) (db.onUsers fun users => users.update toUserId
      (Account.carryUsage (heaviest first rest).2))).trans (holds_update db toUserId fun _ => rfl)
    simp only
    split
    · exact moved
    · exact moved
  · rfl

end

/-! ### A receipt -/

/-- A statement that stores a transaction in a row, if there is one to store. -/
theorem holds_store {db : Db} {userId : PyStr} {otid : Option PyStr} {f : Account → Account}
    (stores : ∀ a, (f a).originalTransactionId = (otid <|> a.originalTransactionId))
    (present : (db.users.get userId).isSome) :
    (db.onUsers fun users => users.update userId f).holds =
      Function.update db.holds userId (otid <|> db.holds userId) := by
  obtain ⟨account, stored⟩ := Option.isSome_iff_exists.mp present
  funext k
  by_cases here : k = userId
  · subst here
    rw [Function.update_self, Db.holds, Db.onUsers_users, Table.get_update_self, Db.holds, stored]
    exact stores account
  · rw [Function.update_of_ne here, Db.holds, Db.onUsers_users, Table.get_update_of_ne _ _ here]
    rfl

/-- Both branches of a receipt store the transaction in the caller's row. -/
theorem holds_applyTrial {db : Db} {userId : PyStr} (present : (db.users.get userId).isSome)
    (accepted : AcceptedReceipt) (now : DateTime) (user : Account) :
    (applyTrial accepted now userId user db).holds = Function.update db.holds userId
      (accepted.identity.originalTransactionId <|> db.holds userId) := by
  unfold applyTrial
  simp only
  split
  · rw [holds_recordSubscriptionEvent]
    split
    · rw [holds_update _ userId (f := Account.zeroMemoryQuota now) fun _ => rfl]
      exact holds_store (fun _ => rfl) present
    · exact holds_store (fun _ => rfl) present
  · exact holds_store (fun _ => rfl) present

theorem holds_applyPaid {db : Db} {userId : PyStr} (present : (db.users.get userId).isSome)
    (accepted : AcceptedReceipt) (now : DateTime) (user : Account) :
    (applyPaid accepted now userId user db).holds = Function.update db.holds userId
      (accepted.identity.originalTransactionId <|> db.holds userId) := by
  unfold applyPaid
  simp only
  split
  · rw [holds_recordSubscriptionEvent]
    exact holds_store (fun _ => rfl) present
  · exact holds_store (fun _ => rfl) present

/-- A detached transaction is nobody else's. -/
theorem holds_detachTransaction {otid : PyStr} (named : otid ≠ []) (userId : PyStr) (db : Db) :
    (detachTransaction (some otid) userId db).holds = fun k =>
      if db.holds k = some otid ∧ k ≠ userId then none else db.holds k := by
  have read : truthy (some otid) = some otid := truthy_eq_some.mpr ⟨rfl, named⟩
  funext k
  unfold detachTransaction
  rw [read]
  simp only
  rw [Db.holds, Db.onUsers_users, Table.get_updateWhere, Option.bind_map]
  unfold Db.holds
  cases db.users.get k with
  | none => simp
  | some account =>
      simp only [Option.bind_some, Function.comp_apply, decide_eq_true_eq]
      split <;> rfl

/-- An accepted receipt seizes the transaction it presents. -/
theorem applyReceipt_holds {db : Db} {userId : PyStr} (present : (db.users.get userId).isSome)
    {accepted : AcceptedReceipt} {otid : PyStr} (named : otid ≠ [])
    (presents : accepted.identity.originalTransactionId = some otid) (now : DateTime)
    (user : Account) :
    (applyReceipt accepted now userId user db).holds = seize userId otid db.holds := by
  have present' : ((detachTransaction (some otid) userId db).users.get userId).isSome := by
    rwa [get_detachTransaction]
  have written : ∀ k, Function.update (detachTransaction (some otid) userId db).holds userId
      (some otid) k = seize userId otid db.holds k := by
    intro k
    rw [Function.update_apply, holds_detachTransaction named, seize]
    by_cases here : k = userId
    · rw [if_pos here, if_pos here]
    · simp [here]
  unfold applyReceipt
  rw [holds_markEverSubscribed, presents]
  split
  · rw [holds_applyTrial present', presents]
    exact funext written
  · rw [holds_applyPaid present', presents]
    exact funext written

/-- A receipt without a transaction leaves every row with its own. -/
theorem applyReceipt_holds_none {db : Db} {userId : PyStr} (present : (db.users.get userId).isSome)
    {accepted : AcceptedReceipt} (presents : accepted.identity.originalTransactionId = none)
    (now : DateTime) (user : Account) :
    (applyReceipt accepted now userId user db).holds = db.holds := by
  unfold applyReceipt
  rw [holds_markEverSubscribed, presents, show detachTransaction none userId db = db from rfl]
  split
  · rw [holds_applyTrial present, presents]
    exact Function.update_eq_self userId db.holds
  · rw [holds_applyPaid present, presents]
    exact Function.update_eq_self userId db.holds

/-- What `verify_receipt` does to the column. -/
theorem verifyReceipt_holds (settings : ReceiptSettings) (now : DateTime) (userId : PyStr)
    (receipt : Receipt) {identity : TransactionIdentity}
    (named : truthy identity.originalTransactionId = identity.originalTransactionId) (db : Db) :
    (verifyReceipt settings now userId receipt identity db).2.holds = db.holds ∨
      ∃ otid, (verifyReceipt settings now userId receipt identity db).2.holds =
        seize userId otid db.holds := by
  unfold verifyReceipt
  split
  · exact .inl rfl
  · next user stored =>
    split
    · exact .inl rfl
    · next accepted ok =>
      split
      · exact .inl rfl
      · simp only
        rw [holds_movePlan]
        have present : (db.users.get userId).isSome := by rw [stored]; rfl
        have own := (acceptReceipt_isTrial ok).2
        cases presents : identity.originalTransactionId with
        | none => exact .inl (applyReceipt_holds_none present (by rw [own, presents]) now user)
        | some otid =>
            rw [presents, truthy_eq_some] at named
            exact .inr ⟨otid,
              applyReceipt_holds present named.2 (by rw [own, presents]) now user⟩

/-! ### A notification -/

section
variable [PyRuntime]

/-- Nobody else holds a transaction that is adopted. -/
theorem adoptTransaction_holds {db : Db} {t : TransactionInfo} {userId : PyStr} {account : Account}
    {byToken : Bool} (found : findUser db.users t = some (userId, account, byToken)) :
    (adoptTransaction userId t byToken db).holds = db.holds ∨
      ∃ otid, (∀ k, db.holds k ≠ some otid) ∧
        (adoptTransaction userId t byToken db).holds =
          Function.update db.holds userId (some otid) := by
  obtain ⟨stored, _, byName⟩ := findUser_some found
  cases byToken with
  | false => exact .inl rfl
  | true =>
      cases named : truthy t.originalTransactionId with
      | none =>
          unfold adoptTransaction
          rw [named]
          exact .inl rfl
      | some otid =>
          unfold adoptTransaction
          rw [named]
          refine .inr ⟨otid, ?_, ?_⟩
          · intro k held
            obtain ⟨row, stored', holds⟩ := Option.bind_eq_some_iff.mp held
            exact (byName rfl).1 otid named k row stored' holds
          · exact @holds_store _ _ (some otid) _ (fun _ => rfl) (by rw [stored]; rfl)

/-- What `apple_notifications` does to the column. -/
theorem notification_holds (settings : WebhookSettings) (now : DateTime) (n : Notification)
    (db : Db) :
    (appleNotifications settings now n db).2.holds = db.holds ∨
      ∃ userId otid, (∀ k, db.holds k ≠ some otid) ∧
        (appleNotifications settings now n db).2.holds =
          Function.update db.holds userId (some otid) := by
  unfold appleNotifications
  split
  · exact .inl rfl
  · next t passed =>
    split
    · exact .inl rfl
    · next userId account byToken found =>
      have status := holds_recordStatus db settings now n t userId
      have found' : findUser (recordStatus settings now n t userId db).users t =
          some (userId, account, byToken) := by
        rw [recordStatus_users]
        exact found
      have upgrade : (applyUpgrade settings now n t userId account byToken
          (recordStatus settings now n t userId db)).2.holds = db.holds ∨
            ∃ userId' otid, (∀ k, db.holds k ≠ some otid) ∧
              (applyUpgrade settings now n t userId account byToken
                (recordStatus settings now n t userId db)).2.holds =
                  Function.update db.holds userId' (some otid) := by
        unfold applyUpgrade
        split
        · exact .inl status
        · have after := adoptTransaction_holds found'
          rw [status] at after
          simp only
          split
          · rw [holds_recordSubscriptionEvent, renewSameTier, holds_update _ userId
              (f := Account.renewSameTier (computeNextReset now t.expiresDate)) fun _ => rfl]
            exact after.imp_right fun adopted => ⟨userId, adopted⟩
          · rw [holds_recordSubscriptionEvent, holds_upgradeToTier]
            exact after.imp_right fun adopted => ⟨userId, adopted⟩
      have downgrade : ∀ eventType action, (applyDowngrade settings now n t userId account eventType
          action (recordStatus settings now n t userId db)).2.holds = db.holds := by
        intro eventType action
        unfold applyDowngrade
        split
        · exact status
        · simp only
          rw [holds_recordSubscriptionEvent, holds_downgradeToFree, status]
      have recorded : ∀ event, (recordSubscriptionEvent event
          (recordStatus settings now n t userId db)).holds = db.holds := by
        intro event
        rw [holds_recordSubscriptionEvent, status]
      cases type : n.type <;> simp only [applyNotification, type]
      case subscribed => exact upgrade
      case didRenew => exact upgrade
      case expired => exact .inl (downgrade _ _)
      case revoke => exact .inl (downgrade _ _)
      case gracePeriodExpired => exact .inl (downgrade _ _)
      case refund => exact .inl (downgrade _ _)
      case didFailToRenew => exact .inl (recorded _)
      case didChangeRenewalStatus => exact .inl (recorded _)
      case oneTimeCharge => exact .inl status
      case test => exact .inl status
      case other => exact .inl status

end

/-! ### A merge -/

/-- What `merge_into` does to the column. -/
theorem mergeInto_holds (anonId appleId : PyStr) (db : Db) :
    (mergeInto anonId appleId db).holds = db.holds ∨
      (mergeInto anonId appleId db).holds = passOn anonId appleId db.holds := by
  have recorded : ∀ (conflict : Bool) (otid : Option PyStr) (db : Db),
      (recordMerge conflict appleId otid db).holds = db.holds := by
    intro conflict otid db
    unfold recordMerge
    split <;> rfl
  unfold mergeInto
  split
  · next anon apple anonRow appleRow =>
    unfold mergeRows
    simp only
    rw [recorded, holds_link]
    split
    · right
      change (db.onUsers fun users => (users.update appleId (Account.takePlan anon)).update anonId
        Account.givePlan).holds = passOn anonId appleId db.holds
      funext k
      rw [Db.holds, Db.onUsers_users, passOn]
      by_cases left : k = anonId
      · subst left
        rw [Function.update_self, Table.get_update_self, Option.bind_map]
        cases (db.users.update appleId (Account.takePlan anon)).get k <;> rfl
      · rw [Function.update_of_ne left, Table.get_update_of_ne _ _ left]
        by_cases here : k = appleId
        · subst here
          rw [Function.update_self, Table.get_update_self, appleRow, Db.holds, anonRow]
          rfl
        · rw [Function.update_of_ne here, Table.get_update_of_ne _ _ here]
          rfl
    · exact .inl rfl
  · exact .inl rfl

/-! ### Every run -/

/-- An operation that may write the column. -/
inductive OwnershipStep where
  | verify (settings : ReceiptSettings) (now : DateTime) (userId : PyStr) (receipt : Receipt)
      (claim : TransactionClaim)
  | notify (settings : WebhookSettings) (now : DateTime) (n : Notification)
  | move (tiers : TierConfig) (heldBy : List (PyStr × Account)) (toUserId : PyStr)
      (verified : Bool) (otid : Option PyStr)
  | merge (anonId appleId : PyStr)

section
variable [PyRuntime]

/-- Run an operation to its end. -/
def OwnershipStep.apply : OwnershipStep → Db → Db
  | .verify settings now userId receipt claim, db =>
      (verifyReceipt settings now userId receipt (resolveIdentity receipt.productId claim) db).2
  | .notify settings now n, db => (appleNotifications settings now n db).2
  | .move tiers heldBy toUserId verified otid, db =>
      (movePlan tiers heldBy toUserId verified otid db).1
  | .merge anonId appleId, db => mergeInto anonId appleId db

/-- The operations, one after the other. -/
def ownershipMachine : Machine Db OwnershipStep := ⟨fun step db => some (step.apply db)⟩

/-- Each operation keeps every transaction with one holder. -/
theorem OwnershipStep.keeps_oneHolder (step : OwnershipStep) {db : Db} (one : OneHolder db.holds) :
    OneHolder (step.apply db).holds := by
  cases step with
  | verify settings now userId receipt claim =>
      rcases verifyReceipt_holds settings now userId receipt
        (truthy_resolveIdentity receipt.productId claim) db with same | ⟨otid, seized⟩
      · rwa [apply, same]
      · rw [apply, seized]
        exact one.seize userId otid
  | notify settings now n =>
      rcases notification_holds settings now n db with same | ⟨userId, otid, unheld, adopted⟩
      · rwa [apply, same]
      · rw [apply, adopted]
        exact one.adopt unheld userId
  | move tiers heldBy toUserId verified otid =>
      rwa [apply, holds_movePlan]
  | merge anonId appleId =>
      rcases mergeInto_holds anonId appleId db with same | passed
      · rwa [apply, same]
      · rw [apply, passed]
        exact one.passOn anonId appleId

omit [PyRuntime] in
theorem holds_of_rows {db : Db} (rows : ∀ r ∈ db.users.rows, r.2.originalTransactionId = none)
    (userId : PyStr) : db.holds userId = none := by
  unfold Db.holds
  cases stored : db.users.get userId with
  | none => rfl
  | some account => exact rows _ (Table.mem_of_get stored)

/-- In every run that starts with no stored transaction, every transaction has one holder. -/
theorem transaction_has_one_holder (steps : List OwnershipStep) (initial last : Db)
    (unbound : ∀ userId, initial.holds userId = none)
    (run : ownershipMachine.run steps initial = some last) : OneHolder last.holds := by
  apply Machine.run_invariant (I := fun db => OneHolder db.holds) _ (.of_none unbound) run
  intro step db db' one taken
  cases taken
  exact step.keeps_oneHolder one

end

theorem phone_tablet_nodup : [py "a", py "b"].Nodup := by decide

/-- Two free accounts. -/
def phoneAndTablet : Db :=
  ⟨⟨[(py "a", .signUp), (py "b", .signUp)], phone_tablet_nodup⟩, [], ⟨[], List.nodup_nil⟩, [], []⟩

/-- The settings of the endpoint while receipts need no signature. -/
def openReceipts : ReceiptSettings := ⟨tiersYml, shoulderSurf.unlockProducts, false⟩

/-- A receipt of the Pro subscription that names a transaction Apple signed. -/
def signedPro (otid : PyStr) (isTrial : Option Bool) : Receipt × TransactionClaim :=
  (⟨py "com.weirtech.shouldersurf.sub.pro.monthly", none, none, isTrial, none⟩,
    ⟨.verified ⟨some otid, some otid, some (py "Production"),
      some (py "com.weirtech.shouldersurf.sub.pro.monthly"), .unknown⟩, none, none⟩)

/-- A purchase on one device is restored on another one, which is then merged into the first. -/
def restoreAndMerge : List OwnershipStep :=
  [.verify openReceipts jan1 (py "a") (signedPro (py "1000") none).1 (signedPro (py "1000") none).2,
    .verify openReceipts jan1 (py "b") (signedPro (py "1000") none).1 (signedPro (py "1000") none).2,
    .merge (py "b") (py "a")]

theorem transaction_has_one_holder_merged :
    letI := PyRuntime.ascii
    ∃ last, ownershipMachine.run restoreAndMerge phoneAndTablet = some last ∧
      last.holds (py "a") = some (py "1000") ∧ OneHolder last.holds :=
  letI := PyRuntime.ascii
  ⟨_, rfl, by decide +kernel, transaction_has_one_holder restoreAndMerge phoneAndTablet _
    (holds_of_rows (by decide)) rfl⟩

end GhostPour.Billing
