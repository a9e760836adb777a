/-
Module: GhostPour.Billing.Proofs.LapseAllowance
Layer: Proofs
Purpose: What a lapsed subscription leaves in the meter. The webhook and the move of a plan set the
  used amount to the free limit; the reconcile sweep leaves it as it was.
Trusted boundary: none
Main exports: Db.SpentUp, PlanStep, PlanStep.Lapses, PlanStep.Continues, lapse_spends_allowance_iff
-/
import GhostPour.Billing.Proofs.PeriodCounters
import GhostPour.Billing.SubscriptionReconcile
import GhostPour.Library.Machine

namespace GhostPour.Billing

/-- The tier and the used amount of a user. -/
def Db.standing (db : Db) (userId : PyStr) : Option (PyStr × ℚ) :=
  (db.users.get userId).map fun account => (account.tier, account.monthlyUsedUsd)

/-- A user has nothing left of a free allowance. -/
def Db.SpentUp (tiers : TierConfig) (userId : PyStr) (db : Db) : Prop :=
  ∀ account, db.users.get userId = some account → freeLimit tiers ≤ account.monthlyUsedUsd

/-- The tier and the used amount are what they were, or the free allowance is spent. -/
def KeptOrSpent (tiers : TierConfig) (userId : PyStr) (db db' : Db) : Prop :=
  db'.standing userId = db.standing userId ∨ db'.SpentUp tiers userId

theorem standing_of_plan {db db' : Db} {userId : PyStr} (same : db'.plan userId = db.plan userId) :
    db'.standing userId = db.standing userId := by
  have standing : ∀ db : Db, db.standing userId =
      (db.plan userId).map fun plan => (plan.tier, plan.monthlyUsedUsd) := by
    intro db
    rw [Db.plan, Option.map_map]
    rfl
  rw [standing, standing, same]

theorem spentUp_of_standing {tiers : TierConfig} {userId : PyStr} {db db' : Db}
    (same : db'.standing userId = db.standing userId) (spent : db.SpentUp tiers userId) :
    db'.SpentUp tiers userId := by
  intro account stored
  rw [Db.standing, stored, Option.map_some] at same
  obtain ⟨account', stored', eq⟩ := Option.map_eq_some_iff.mp same.symm
  have used : account'.monthlyUsedUsd = account.monthlyUsedUsd := congrArg Prod.snd eq
  rw [← used]
  exact spent account' stored'

namespace KeptOrSpent

variable {tiers : TierConfig} {userId : PyStr} {db mid db' : Db}

theorem refl (tiers : TierConfig) (userId : PyStr) (db : Db) : KeptOrSpent tiers userId db db :=
  .inl rfl

theorem trans (one : KeptOrSpent tiers userId db mid) (two : KeptOrSpent tiers userId mid db') :
    KeptOrSpent tiers userId db db' := by
  rcases two with same | spent
  · rcases one with same' | spent'
    · exact .inl (same.trans same')
    · exact .inr (spentUp_of_standing same spent')
  · exact .inr spent

theorem spentUp (kept : KeptOrSpent tiers userId db db') (spent : db.SpentUp tiers userId) :
    db'.SpentUp tiers userId := by
  rcases kept with same | spent'
  · exact spentUp_of_standing same spent
  · exact spent'

/-- A statement on one row that leaves the tier and the used amount. -/
theorem update (other : PyStr) {f : Account → Account}
    (leaves : ∀ a, (f a).tier = a.tier ∧ (f a).monthlyUsedUsd = a.monthlyUsedUsd) :
    KeptOrSpent tiers userId db (db.onUsers fun users => users.update other f) := by
  left
  rw [Db.standing, Db.onUsers_users, Table.get_update]
  split
  · rw [Option.map_map]
    refine congrArg (fun g => Option.map g (db.users.get userId)) (funext fun a => ?_)
    rw [Function.comp_apply, (leaves a).1, (leaves a).2]
  · rfl

/-- A statement on the row of somebody else. -/
theorem update_of_ne {other : PyStr} (ne : userId ≠ other) (f : Account → Account) :
    KeptOrSpent tiers userId db (db.onUsers fun users => users.update other f) := by
  left
  rw [Db.standing, Db.onUsers_users, Table.get_update_of_ne _ _ ne]
  rfl

end KeptOrSpent

/-! ### The parts of a step -/

section parts
variable (tiers : TierConfig) (userId : PyStr) (db : Db)

theorem record_kept (event : SubscriptionEvent) :
    KeptOrSpent tiers userId db (recordSubscriptionEvent event db) :=
  .inl (standing_of_plan (recordSubscriptionEvent_plan event userId db))

theorem mark_kept (other : PyStr) (when? : Option DateTime) :
    KeptOrSpent tiers userId db (markEverSubscribed other when? db) :=
  .inl (standing_of_plan (markEverSubscribed_plan other userId when? db))

theorem detach_kept (otid : Option PyStr) (other : PyStr) :
    KeptOrSpent tiers userId db (detachTransaction otid other db) := by
  left
  unfold detachTransaction
  split
  · rfl
  · rw [Db.standing, Db.onUsers_users, Table.get_updateWhere, Option.map_map]
    refine congrArg (fun g => Option.map g (db.users.get userId)) (funext fun a => ?_)
    rw [Function.comp_apply]
    split <;> rfl

/-- The downgrade of any row. -/
theorem downgrade_kept (other : PyStr) :
    KeptOrSpent tiers userId db (downgradeToFree tiers other db) := by
  by_cases same : userId = other
  · right
    intro account stored
    rw [downgradeToFree, Db.onUsers_users, same, Table.get_update_self] at stored
    obtain ⟨before, _, rfl⟩ := Option.map_eq_some_iff.mp stored
    exact le_refl _
  · exact .update_of_ne same _

theorem link_kept (fromUserId toUserId reason : PyStr) (otid : Option PyStr) :
    KeptOrSpent tiers userId db (link fromUserId toUserId reason otid db) := by
  unfold link
  split <;> exact .refl tiers userId db

/-- The move of a plan to somebody else: the holders are downgraded. -/
theorem movePlan_kept {toUserId : PyStr} (other : userId ≠ toUserId)
    (heldBy : List (PyStr × Account)) (verified : Bool) (otid : Option PyStr) :
    KeptOrSpent tiers userId db (movePlan tiers heldBy toUserId verified otid db).1 := by
  have holders : ∀ (paid : List (PyStr × Account)) (db : Db), KeptOrSpent tiers userId db
      (paid.foldl (fun db holder =>
        link holder.1 toUserId (py "restore") otid (downgradeToFree tiers holder.1 db)) db) := by
    intro paid
    induction paid with
    | nil => exact fun db => .refl tiers userId db
    | cons holder paid ih =>
        intro db
        apply KeptOrSpent.trans _ (ih _)
        exact (downgrade_kept tiers userId db holder.1).trans (link_kept tiers userId _ _ _ _ _)
  unfold movePlan
  split
  · next first rest _ =>
    have moved : KeptOrSpent tiers userId db ((first :: rest).foldl (fun db holder =>
        link holder.1 toUserId (py "restore") otid (downgradeToFree tiers holder.1 db))
        (db.onUsers fun users => users.update toUserId
          (Account.carryUsage (heaviest first rest).2))) :=
      (KeptOrSpent.update_of_ne other _).trans (holders (first :: rest) _)
    simp only
    split
    · exact moved
    · -- the records of the purchase are in other tables
      exact moved.trans (.inl rfl)
  · exact .refl tiers userId db

/-- A receipt of somebody else. -/
theorem applyReceipt_kept {user : PyStr} (other : userId ≠ user) (accepted : AcceptedReceipt)
    (now : DateTime) (account : Account) :
    KeptOrSpent tiers userId db (applyReceipt accepted now user account db) := by
  have trial : ∀ db : Db, KeptOrSpent tiers userId db (applyTrial accepted now user account db) := by
    intro db
    unfold applyTrial
    simp only
    split
    · apply KeptOrSpent.trans _ (record_kept tiers userId _ _)
      split
      · exact (KeptOrSpent.update_of_ne other _).trans (.update_of_ne other _)
      · exact .update_of_ne other _
    · exact .update_of_ne other _
  have paid : ∀ db : Db, KeptOrSpent tiers userId db (applyPaid accepted now user account db) := by
    intro db
    unfold applyPaid
    simp only
    split
    · exact (KeptOrSpent.update_of_ne other _).trans (record_kept tiers userId _ _)
    · exact .update_of_ne other _
  unfold applyReceipt
  apply KeptOrSpent.trans _ (mark_kept tiers userId _ _ _)
  apply (detach_kept tiers userId db _ _).trans
  split
  · exact trial _
  · exact paid _

/-- A receipt that changes nothing about its user's subscription. -/
theorem applyReceipt_same {accepted : AcceptedReceipt} {account : Account}
    (unchanged : accepted.isStateChange account = false) (user : PyStr) (now : DateTime) :
    KeptOrSpent tiers userId db (applyReceipt accepted now user account db) := by
  unfold applyReceipt
  apply KeptOrSpent.trans _ (mark_kept tiers userId _ _ _)
  apply (detach_kept tiers userId db _ _).trans
  split
  · rw [applyTrial, if_neg (by simp [unchanged])]
    exact .update user fun a => ⟨rfl, rfl⟩
  · rw [applyPaid, if_neg (by simp [unchanged])]
    exact .update user fun a => ⟨rfl, rfl⟩

end parts

/-! ### Steps -/

/-- A step of the code that writes plans. -/
inductive PlanStep where
  | billing (step : BillingStep)
  | reconcile (now : DateTime) (row : ReconcileRow) (answer : PyStr → Option AppleState)

/-- The configuration a step runs under. -/
def PlanStep.UsesTiers (tiers : TierConfig) : PlanStep → Prop
  | .billing (.notification settings _ _) => settings.tiers = tiers
  | .billing (.receipt settings _ _ _ _) => settings.tiers = tiers
  | _ => True

/-- The paths on which a user may lapse: a notification that ends a subscription
(`_downgrade_to_free`), the receipt of another account that the plan moves to (`move_plan`), and the
sweep (`_apply_tier`). -/
def PlanStep.Lapses (userId : PyStr) : PlanStep → Prop
  | .billing (.notification _ _ n) => n.type.EndsPlan
  | .billing (.receipt _ _ user _ _) => userId ≠ user
  | .billing _ => False
  | .reconcile _ _ _ => True

/-- The step is the sweep's. -/
def PlanStep.isReconcile : PlanStep → Bool
  | .billing _ => false
  | .reconcile _ _ _ => true

section
variable [PyRuntime]

/-- Take a step. -/
def PlanStep.apply (tiers : TierConfig) : PlanStep → Db → Db
  | .billing step, db => step.apply db
  | .reconcile now row answer, db => (reconcileUser tiers now row answer db).1

/-- The code that writes plans, one step after the other. -/
def planMachine (tiers : TierConfig) : Machine Db PlanStep := ⟨fun step db => some (step.apply tiers db)⟩

/-- The step opens no period for the user and brings no plan in. -/
def PlanStep.Continues (tiers : TierConfig) (userId : PyStr) (step : PlanStep) (db : Db) : Prop :=
  step.UsesTiers tiers ∧ match step with
    | .billing (.receipt settings now user body identity) =>
        ¬ (BillingStep.receipt settings now user body identity).OpensPeriod db userId ∧
          (user = userId → ¬ PlanMovesIn db userId identity)
    | .billing step => ¬ step.OpensPeriod db userId
    | .reconcile _ _ _ => True

/-! ### What a step leaves of the meter -/

omit [PyRuntime] in
theorem applyUpgrade_kept (settings : WebhookSettings) (now : DateTime) (n : Notification)
    (t : TransactionInfo) {userId other : PyStr} (ne : userId ≠ other) (account : Account)
    (byToken : Bool) (db : Db) : KeptOrSpent settings.tiers userId db
      (applyUpgrade settings now n t other account byToken db).2 := by
  have adopted : KeptOrSpent settings.tiers userId db (adoptTransaction other t byToken db) := by
    unfold adoptTransaction
    split
    · exact .update_of_ne ne _
    · exact .refl _ userId db
  unfold applyUpgrade
  split
  · exact .refl _ userId db
  · simp only
    split
    · exact (adopted.trans (.update_of_ne ne _)).trans (record_kept _ userId _ _)
    · apply KeptOrSpent.trans _ (record_kept _ userId _ _)
      apply adopted.trans
      unfold upgradeToTier
      split
      · exact .refl _ userId _
      · exact .update_of_ne ne _

/-- A notification that opens no period for the user. -/
theorem notification_kept {settings : WebhookSettings} {now : DateTime} {n : Notification} {db : Db}
    {userId : PyStr}
    (quiet : ¬ (BillingStep.notification settings now n).OpensPeriod db userId) :
    KeptOrSpent settings.tiers userId db (appleNotifications settings now n db).2 := by
  cases passed : gate settings n with
  | error action =>
      rw [appleNotifications, passed]
      exact .refl _ userId db
  | ok t =>
      cases found : findUser db.users t with
      | none =>
          simp only [appleNotifications, passed, found]
          exact .refl _ userId db
      | some row =>
          obtain ⟨other, account, byToken⟩ := row
          simp only [appleNotifications, passed, found]
          have status : KeptOrSpent settings.tiers userId db (recordStatus settings now n t other db) :=
            .inl (standing_of_plan (recordStatus_plan settings now n t other userId db))
          have upgrade : (n.type = .subscribed ∨ n.type = .didRenew) →
              KeptOrSpent settings.tiers userId db
                (applyUpgrade settings now n t other account byToken
                  (recordStatus settings now n t other db)).2 := by
            intro type
            by_cases same : userId = other
            · cases mapped : truthy (tierOfProduct settings.tiers (t.productId.getD [])) with
              | none =>
                  rw [applyUpgrade, mapped]
                  exact status
              | some newTier =>
                  exact absurd ⟨type, t, account, byToken, newTier, passed, same ▸ found, mapped⟩
                    quiet
            · exact status.trans (applyUpgrade_kept settings now n t same account byToken _)
          have downgrade : ∀ eventType action, KeptOrSpent settings.tiers userId db
              (applyDowngrade settings now n t other account eventType action
                (recordStatus settings now n t other db)).2 := by
            intro eventType action
            apply status.trans
            unfold applyDowngrade
            split
            · exact .refl _ userId _
            · exact (downgrade_kept _ userId _ other).trans (record_kept _ userId _ _)
          have recorded : ∀ event, KeptOrSpent settings.tiers userId db
              (recordSubscriptionEvent event (recordStatus settings now n t other db)) :=
            fun event => status.trans (record_kept _ userId _ event)
          cases type : n.type <;> simp only [applyNotification, type]
          case subscribed => exact upgrade (.inl type)
          case didRenew => exact upgrade (.inr type)
          case expired => exact downgrade _ _
          case revoke => exact downgrade _ _
          case gracePeriodExpired => exact downgrade _ _
          case refund => exact downgrade _ _
          case didFailToRenew => exact recorded _
          case didChangeRenewalStatus => exact recorded _
          case oneTimeCharge => exact status
          case test => exact status
          case other => exact status

omit [PyRuntime] in
/-- The receipt of another account. -/
theorem receipt_of_other_kept {settings : ReceiptSettings} {now : DateTime} {user userId : PyStr}
    {body : Receipt} {identity : TransactionIdentity} {db : Db} (other : userId ≠ user) :
    KeptOrSpent settings.tiers userId db (verifyReceipt settings now user body identity db).2 := by
  unfold verifyReceipt
  split
  · exact .refl _ userId db
  · split
    · exact .refl _ userId db
    · split
      · exact .refl _ userId db
      · apply (applyReceipt_kept _ userId db other _ now _).trans
        exact movePlan_kept _ userId _ other _ _ _

omit [PyRuntime] in
/-- A receipt of the user that changes no state and brings no plan in. -/
theorem receipt_of_user_kept {settings : ReceiptSettings} {now : DateTime} {userId : PyStr}
    {body : Receipt} {identity : TransactionIdentity} {db : Db}
    (quiet : ¬ ∃ account accepted, db.users.get userId = some account ∧
      acceptReceipt settings userId body identity db = .ok accepted ∧
        isPlanConflict db userId identity = false ∧ accepted.isStateChange account = true)
    (stays : ¬ PlanMovesIn db userId identity) :
    KeptOrSpent settings.tiers userId db
      (verifyReceipt settings now userId body identity db).2 := by
  unfold verifyReceipt
  split
  · exact .refl _ userId db
  · next account stored =>
    split
    · exact .refl _ userId db
    · next accepted ok =>
      split
      · exact .refl _ userId db
      · next noConflict =>
        simp only
        rw [movePlan_of_not_movesIn stays]
        apply applyReceipt_same
        cases change : accepted.isStateChange account with
        | false => rfl
        | true => exact absurd ⟨account, accepted, stored, ok, by simpa using noConflict, change⟩ quiet

omit [PyRuntime] in
/-- The sweep moves no meter. -/
theorem reconcile_used (tiers : TierConfig) (now : DateTime) (row : ReconcileRow)
    (answer : PyStr → Option AppleState) (db : Db) (userId : PyStr) :
    ((reconcileUser tiers now row answer db).1.plan userId).map Plan.monthlyUsedUsd =
      (db.plan userId).map Plan.monthlyUsedUsd := by
  rcases reconcileUser_plan tiers now row answer db userId with same | ⟨_, tier, applied⟩
  · rw [same]
  · rw [applied, applyTier_used]

omit [PyRuntime] in
theorem spentUp_of_used {tiers : TierConfig} {userId : PyStr} {db db' : Db}
    (same : (db'.plan userId).map Plan.monthlyUsedUsd = (db.plan userId).map Plan.monthlyUsedUsd)
    (spent : db.SpentUp tiers userId) : db'.SpentUp tiers userId := by
  intro account stored
  rw [Db.plan, Db.plan, stored, Option.map_map, Option.map_some, Option.map_map] at same
  obtain ⟨account', stored', used⟩ := Option.map_eq_some_iff.mp same.symm
  calc freeLimit tiers
      ≤ account'.monthlyUsedUsd := spent account' stored'
    _ = account.monthlyUsedUsd := used

omit [PyRuntime] in
/-- A recorded cost only adds. -/
theorem recordCost_spentUp {tiers : TierConfig} {userId : PyStr} {db : Db} (call : CostCall)
    (spent : db.SpentUp tiers userId) : (db.onUsers (recordCost call)).SpentUp tiers userId := by
  intro account stored
  rw [Db.onUsers_users] at stored
  unfold recordCost at stored
  split at stored
  · exact spent account stored
  · next metered =>
    rw [Table.get_update] at stored
    split at stored
    · obtain ⟨before, stored', rfl⟩ := Option.map_eq_some_iff.mp stored
      have positive : 0 < call.cost := by
        by_contra negative
        exact metered (.inr (.inl (not_lt.mp negative)))
      calc freeLimit tiers
          ≤ before.monthlyUsedUsd := spent before stored'
        _ ≤ before.monthlyUsedUsd + call.cost := le_add_of_nonneg_right (le_of_lt positive)
    · exact spent account stored

omit [PyRuntime] in
/-- A lazy reset that is not due for the user. -/
theorem lazyReset_spentUp {tiers : TierConfig} {user userId : PyStr} {now : DateTime} {db : Db}
    (quiet : ¬ (user = userId ∧ ∃ account current, db.users.get userId = some account ∧
      account.allocationResetsAt = some current ∧ current.instant ≤ now.instant))
    (spent : db.SpentUp tiers userId) :
    (db.onUsers fun users => (lazyResetIfDue user now users).1).SpentUp tiers userId := by
  intro account stored
  rw [Db.onUsers_users, lazyResetIfDue_get] at stored
  split at stored
  · next same =>
    obtain ⟨before, stored', rfl⟩ := Option.map_eq_some_iff.mp stored
    have early : before.lazyReset now = before := by
      unfold Account.lazyReset
      split
      · rfl
      · next current set =>
        rw [if_pos]
        by_contra due
        exact quiet ⟨same.symm, before, current, stored', set, not_lt.mp due⟩
    rw [early]
    exact spent before stored'
  · exact spent account stored

/-- A step that opens no period keeps a spent allowance spent. -/
theorem PlanStep.keeps_spentUp {tiers : TierConfig} {userId : PyStr} (step : PlanStep) (db db' : Db)
    (continues : step.Continues tiers userId db) (spent : db.SpentUp tiers userId)
    (taken : (planMachine tiers).step step db = some db') : db'.SpentUp tiers userId := by
  cases taken
  obtain ⟨uses, quiet⟩ := continues
  cases step with
  | reconcile now row answer =>
      exact spentUp_of_used (reconcile_used tiers now row answer db userId) spent
  | billing step =>
      cases step with
      | lazyReset user now => exact lazyReset_spentUp quiet spent
      | notification settings now n =>
          cases uses
          exact (notification_kept quiet).spentUp spent
      | receipt settings now user body identity =>
          cases uses
          obtain ⟨quiet, stays⟩ := quiet
          by_cases same : userId = user
          · subst same
            refine (receipt_of_user_kept ?_ (stays rfl)).spentUp spent
            rintro ⟨account, accepted, stored, ok, noConflict, change⟩
            exact quiet ⟨rfl, account, accepted, stored, ok, noConflict, change, stays rfl⟩
          · exact (receipt_of_other_kept same).spentUp spent
      | cost call => exact recordCost_spentUp call spent

/-- When a paid user becomes free by the webhook, by the move of the plan or by the sweep, the used
amount stays at the free limit or above until a new period opens, exactly when it was not the sweep
or the amount was that high before. -/
theorem lapse_spends_allowance_iff (tiers : TierConfig) (step : PlanStep) (db : Db) (userId : PyStr)
    (before after : Account) (uses : step.UsesTiers tiers) (path : step.Lapses userId)
    (stored : db.users.get userId = some before) (paid : before.tier ≠ freeTier)
    (left : (step.apply tiers db).users.get userId = some after) (lapsed : after.tier = freeTier) :
    (∀ later last, (planMachine tiers).Along (PlanStep.Continues tiers userId) later
        (step.apply tiers db) → (planMachine tiers).run later (step.apply tiers db) = some last →
        last.SpentUp tiers userId) ↔
      (step.isReconcile = true → freeLimit tiers ≤ before.monthlyUsedUsd) := by
  -- a step that keeps the tier is no lapse
  have spends : KeptOrSpent tiers userId db (step.apply tiers db) →
      (step.apply tiers db).SpentUp tiers userId := by
    rintro (same | spent)
    · rw [Db.standing, Db.standing, stored, left, Option.map_some, Option.map_some,
        Option.some.injEq, Prod.mk.injEq] at same
      exact absurd (same.1.symm.trans lapsed) paid
    · exact spent
  have now : (step.apply tiers db).SpentUp tiers userId ↔
      (step.isReconcile = true → freeLimit tiers ≤ before.monthlyUsedUsd) := by
    cases step with
    | reconcile now row answer =>
        have used := reconcile_used tiers now row answer db userId
        constructor
        · intro spent _
          exact spentUp_of_used used.symm spent before stored
        · intro enough
          refine spentUp_of_used used fun account stored' => ?_
          cases stored.symm.trans stored'
          exact enough rfl
    | billing step =>
        refine ⟨fun _ sweep => (by cases sweep), fun _ => spends ?_⟩
        cases step with
        | lazyReset user now => exact path.elim
        | notification settings now n =>
            cases uses
            refine notification_kept ?_
            rintro ⟨type, _⟩
            rcases path with ends | ends | ends | ends <;> rcases type with type | type <;>
              cases ends.symm.trans type
        | receipt settings now user body identity =>
            cases uses
            exact receipt_of_other_kept path
        | cost call => exact path.elim
  rw [← now]
  constructor
  · exact fun all => all [] _ trivial rfl
  · exact fun spent later last along run => Machine.run_invariant_along
      (fun step db db' => PlanStep.keeps_spentUp step db db') along spent run

end

/-! ### The sweep takes a plan -/

/-- A Pro account that has used 17 cents. -/
def proWithLittleUsed : Db :=
  .single (py "u") { Account.signUp with
    tier := py "pro", monthlyUsedUsd := 17 / 100, originalTransactionId := some (py "1000") }

/-- Apple says that the subscription has lapsed. -/
def sweepFindsLapse : PlanStep :=
  .reconcile jan1 ⟨py "u", py "pro", some (py "1000")⟩ fun _ =>
    some ⟨false, some (py "pro"), none, none, none, none⟩

/-- The theorem at that sweep. -/
theorem lapse_spends_allowance_iff_sweep :
    letI := PyRuntime.ascii
    (∀ later last, (planMachine tiersYml).Along (PlanStep.Continues tiersYml (py "u")) later
        (sweepFindsLapse.apply tiersYml proWithLittleUsed) →
        (planMachine tiersYml).run later (sweepFindsLapse.apply tiersYml proWithLittleUsed) =
          some last → last.SpentUp tiersYml (py "u")) ↔
      (sweepFindsLapse.isReconcile = true → freeLimit tiersYml ≤ 17 / 100) :=
  let _ := PyRuntime.ascii
  lapse_spends_allowance_iff tiersYml sweepFindsLapse proWithLittleUsed (py "u") _ _ trivial trivial
    rfl (by decide +kernel) rfl (by decide +kernel)

/-- The account is free after the sweep, and has used 17 cents of its two dollars. -/
theorem sweep_grants_free_allowance :
    letI := PyRuntime.ascii
    (proWithLittleUsed.users.get (py "u")).map Account.tier = some (py "pro") ∧
      (sweepFindsLapse.apply tiersYml proWithLittleUsed).standing (py "u") =
        some (freeTier, 17 / 100) ∧ ¬ freeLimit tiersYml ≤ 17 / 100 := by
  decide +kernel

end GhostPour.Billing
