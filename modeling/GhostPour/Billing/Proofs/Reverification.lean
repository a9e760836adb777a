/-
Module: GhostPour.Billing.Proofs.Reverification
Layer: Proofs
Purpose: What a purchase that is presented again leaves of the meter. The caller's own usage is
  cleared when its tier or its trial changes, on the client's word; the usage of the transaction's
  holder is carried only from another account on a paid plan.
Trusted boundary: none
Main exports: KeepsUsage, SignedPurchase, AllowanceStep, AllowanceStep.KeepsPeriod,
  reverification_keeps_usage_iff
-/
import GhostPour.Billing.Proofs.TransactionHolders

namespace GhostPour.Billing

/-- The used amount of a user. -/
def Db.used (db : Db) (userId : PyStr) : Option ℚ :=
  (db.users.get userId).map Account.monthlyUsedUsd

/-- Whoever holds a transaction afterwards has used at least what its holder had used before. -/
def KeepsUsage (before after : Db) : Prop :=
  ∀ otid h k used used', before.holds h = some otid → after.holds k = some otid →
    before.used h = some used → after.used k = some used' → used ≤ used'

/-- A transaction with one holder whose meter only rises keeps its usage. -/
theorem keepsUsage_of_le {before after : Db} (one : OneHolder before.holds)
    (same : after.holds = before.holds)
    (rises : ∀ k used used', before.used k = some used → after.used k = some used' →
      used ≤ used') : KeepsUsage before after := by
  intro otid h k used used' held held' spent spent'
  rw [same] at held'
  rw [one otid h k held held'] at spent
  exact rises k used used' spent spent'

/-! ### Statements and the meter -/

section
variable (db : Db)

theorem used_update (userId : PyStr) {f : Account → Account}
    (keeps : ∀ a, (f a).monthlyUsedUsd = a.monthlyUsedUsd) :
    (db.onUsers fun users => users.update userId f).used = db.used := by
  funext k
  rw [Db.used, Db.onUsers_users, Table.get_update]
  split
  · rw [Option.map_map]
    exact congrArg (fun g => Option.map g _) (funext keeps)
  · rfl

theorem used_kept {k : PyStr} {amount : ℚ} (before : db.used k = some amount) {userId : PyStr}
    {f : Account → Account} (keeps : ∀ a, (f a).monthlyUsedUsd = a.monthlyUsedUsd) :
    (db.onUsers fun users => users.update userId f).used k = some amount := by
  rw [used_update db userId keeps]
  exact before

theorem used_update_of_ne {k userId : PyStr} (other : k ≠ userId) (f : Account → Account) :
    (db.onUsers fun users => users.update userId f).used k = db.used k := by
  rw [Db.used, Db.onUsers_users, Table.get_update_of_ne _ _ other]
  rfl

/-- A statement that sets the meter of a row. -/
theorem used_set {userId : PyStr} (present : (db.users.get userId).isSome) {amount : ℚ}
    {f : Account → Account} (sets : ∀ a, (f a).monthlyUsedUsd = amount) :
    (db.onUsers fun users => users.update userId f).used userId = some amount := by
  obtain ⟨account, stored⟩ := Option.isSome_iff_exists.mp present
  rw [Db.used, Db.onUsers_users, Table.get_update_self, stored]
  exact congrArg some (sets account)

theorem used_markEverSubscribed (userId : PyStr) (when? : Option DateTime) :
    (markEverSubscribed userId when? db).used = db.used :=
  used_update db userId fun _ => rfl

theorem used_recordSubscriptionEvent (event : SubscriptionEvent) :
    (recordSubscriptionEvent event db).used = db.used := by
  unfold recordSubscriptionEvent
  simp only
  split
  · exact used_markEverSubscribed _ _ _
  · rfl

theorem used_link (fromUserId toUserId reason : PyStr) (otid : Option PyStr) :
    (link fromUserId toUserId reason otid db).used = db.used := by
  unfold link
  split <;> rfl

theorem used_detachTransaction (otid : Option PyStr) (userId : PyStr) :
    (detachTransaction otid userId db).used = db.used := by
  funext k
  unfold detachTransaction
  split
  · rfl
  · rw [Db.used, Db.onUsers_users, Table.get_updateWhere, Option.map_map, Db.used]
    refine congrArg (fun g => Option.map g _) (funext fun a => ?_)
    rw [Function.comp_apply]
    split <;> rfl

/-- The downgrade of the holders of a plan leaves everybody else's meter. -/
theorem used_downgrades (tiers : TierConfig) (toUserId : PyStr) (otid : Option PyStr) {k : PyStr}
    (paid : List (PyStr × Account)) (spared : ∀ holder ∈ paid, holder.1 ≠ k) :
    (paid.foldl (fun db holder =>
      link holder.1 toUserId (py "restore") otid (downgradeToFree tiers holder.1 db)) db).used k =
        db.used k := by
  induction paid generalizing db with
  | nil => rfl
  | cons holder paid ih =>
      rw [List.forall_mem_cons] at spared
      rw [List.foldl_cons, ih _ spared.2, used_link]
      exact used_update_of_ne db spared.1.symm _

/-- The move of a plan leaves everybody's meter but the holders' and the new account's. -/
theorem used_movePlan_of_ne (tiers : TierConfig) {heldBy : List (PyStr × Account)}
    {k toUserId : PyStr} (other : k ≠ toUserId) (spared : ∀ holder ∈ heldBy, holder.1 ≠ k)
    (verified : Bool) (otid : Option PyStr) :
    (movePlan tiers heldBy toUserId verified otid db).1.used k = db.used k := by
  unfold movePlan
  split
  · next first rest paid =>
    have moved := (used_downgrades (db.onUsers fun users => users.update toUserId
      (Account.carryUsage (heaviest first rest).2)) tiers toUserId otid (k := k) (first :: rest)
      fun holder member => spared holder (List.mem_filter.mp (paid ▸ member)).1).trans
        (used_update_of_ne db other _)
    simp only
    split
    · exact moved
    · exact moved
  · rfl

/-- The heaviest holder is one of them. -/
theorem heaviest_mem (first : PyStr × Account) (rest : List (PyStr × Account)) :
    heaviest first rest ∈ first :: rest := by
  induction rest generalizing first with
  | nil => exact List.mem_singleton.mpr rfl
  | cons holder rest ih =>
      rw [heaviest]
      rcases List.mem_cons.mp (ih (if first.2.monthlyUsedUsd < holder.2.monthlyUsedUsd then holder
        else first)) with here | later
      · rw [here]
        split <;> simp
      · exact List.mem_cons_of_mem _ (List.mem_cons_of_mem _ later)

/-- A plan that moves carries the usage of one of its paid holders. -/
theorem used_movePlan (tiers : TierConfig) {heldBy : List (PyStr × Account)} {toUserId : PyStr}
    (present : (db.users.get toUserId).isSome) (spared : ∀ holder ∈ heldBy, holder.1 ≠ toUserId)
    (otid : Option PyStr) (paid : ∃ holder ∈ heldBy, isPaidTier holder.2.tier = true) :
    ∃ holder ∈ heldBy, isPaidTier holder.2.tier = true ∧
      (movePlan tiers heldBy toUserId true otid db).1.used toUserId =
        some holder.2.monthlyUsedUsd := by
  cases among : heldBy.filter fun holder => isPaidTier holder.2.tier with
  | nil =>
      obtain ⟨holder, member, pays⟩ := paid
      exact absurd pays (List.filter_eq_nil_iff.mp among holder member)
  | cons first rest =>
      have source := List.mem_filter.mp (among ▸ heaviest_mem first rest)
      refine ⟨heaviest first rest, source.1, source.2, ?_⟩
      have moved := (used_downgrades (db.onUsers fun users => users.update toUserId
        (Account.carryUsage (heaviest first rest).2)) tiers toUserId otid (k := toUserId)
        (first :: rest) fun holder member => spared holder (List.mem_filter.mp (among ▸ member)).1)
        |>.trans (used_set db present fun _ => rfl)
      unfold movePlan
      rw [among]
      simp only
      split
      · exact moved
      · exact moved

end

/-! ### A receipt and the meter -/

/-- What a receipt leaves of the caller's usage: nothing, if it changes the caller's state. -/
def AcceptedReceipt.usageLeft (accepted : AcceptedReceipt) (user : Account) : ℚ :=
  if accepted.isStateChange user then 0 else user.monthlyUsedUsd

theorem AcceptedReceipt.le_usageLeft_iff (accepted : AcceptedReceipt) {user : Account} {used : ℚ} :
    used ≤ accepted.usageLeft user ↔
      (accepted.isStateChange user = true ∧ used ≤ 0) ∨
        (accepted.isStateChange user = false ∧ used ≤ user.monthlyUsedUsd) := by
  unfold usageLeft
  cases accepted.isStateChange user <;> simp

section
variable {db : Db} {userId : PyStr} {user : Account} (accepted : AcceptedReceipt) (now : DateTime)

theorem used_applyTrial (stored : db.used userId = some user.monthlyUsedUsd) :
    (applyTrial accepted now userId user db).used userId = some (accepted.usageLeft user) := by
  have present : (db.users.get userId).isSome := by
    rw [← Option.isSome_map, ← Db.used, stored]
    rfl
  unfold applyTrial AcceptedReceipt.usageLeft
  simp only
  split
  · rw [used_recordSubscriptionEvent]
    split
    · rw [used_update _ userId (f := Account.zeroMemoryQuota now) fun _ => rfl]
      exact used_set db present fun _ => rfl
    · exact used_set db present fun _ => rfl
  · exact used_kept db stored fun _ => rfl

theorem used_applyPaid (stored : db.used userId = some user.monthlyUsedUsd) :
    (applyPaid accepted now userId user db).used userId = some (accepted.usageLeft user) := by
  have present : (db.users.get userId).isSome := by
    rw [← Option.isSome_map, ← Db.used, stored]
    rfl
  unfold applyPaid AcceptedReceipt.usageLeft
  simp only
  split
  · rw [used_recordSubscriptionEvent]
    exact used_set db present fun _ => rfl
  · exact used_kept db stored fun _ => rfl

/-- The caller's usage after the writes of a receipt. -/
theorem used_applyReceipt (stored : db.used userId = some user.monthlyUsedUsd) :
    (applyReceipt accepted now userId user db).used userId = some (accepted.usageLeft user) := by
  unfold applyReceipt
  rw [used_markEverSubscribed]
  have detached := (congrFun (used_detachTransaction db
    accepted.identity.originalTransactionId userId) userId).trans stored
  split
  · exact used_applyTrial accepted now detached
  · exact used_applyPaid accepted now detached

/-- Nobody else's usage changes. -/
theorem used_applyReceipt_of_ne {k : PyStr} (other : k ≠ userId) :
    (applyReceipt accepted now userId user db).used k = db.used k := by
  unfold applyReceipt
  rw [used_markEverSubscribed, ← used_detachTransaction db
    accepted.identity.originalTransactionId userId]
  split
  · unfold applyTrial
    simp only
    split
    · rw [used_recordSubscriptionEvent]
      split
      · rw [used_update _ userId (f := Account.zeroMemoryQuota now) fun _ => rfl]
        exact used_update_of_ne _ other _
      · exact used_update_of_ne _ other _
    · exact used_update_of_ne _ other _
  · unfold applyPaid
    simp only
    split
    · rw [used_recordSubscriptionEvent]
      exact used_update_of_ne _ other _
    · exact used_update_of_ne _ other _

end

/-! ### The run -/

/-- A purchase presented with the transaction Apple signed for it. -/
structure SignedPurchase where
  receipt : Receipt
  claim : TransactionClaim
  payload : SignedPayload
  signed : claim.signed = .verified payload
  named : isPlausibleTransactionId payload.originalTransactionId = true

/-- A call of a run in which no notification arrives and no boundary passes. -/
inductive AllowanceStep where
  | verify (settings : ReceiptSettings) (now : DateTime) (userId : PyStr)
      (purchase : SignedPurchase)
  | cost (call : CostCall)

section
variable [PyRuntime]

/-- What `resolve_identity` makes of the purchase. -/
def SignedPurchase.identity (purchase : SignedPurchase) : TransactionIdentity :=
  resolveIdentity purchase.receipt.productId purchase.claim

/-- The identity is Apple's word, and names a transaction. -/
theorem SignedPurchase.identity_spec (purchase : SignedPurchase) :
    purchase.identity.verified = true ∧ ∃ otid, otid ≠ [] ∧
      purchase.identity.originalTransactionId = some otid := by
  obtain ⟨receipt, claim, payload, signed, digits⟩ := purchase
  unfold SignedPurchase.identity resolveIdentity
  simp only
  rw [signed]
  refine ⟨rfl, ?_⟩
  cases named : payload.originalTransactionId with
  | none =>
      rw [named] at digits
      cases digits
  | some otid =>
      rw [named] at digits
      refine ⟨otid, ?_, ?_⟩
      · rintro rfl
        cases digits
      · change Billing.plausibleId payload.originalTransactionId = some otid
        rw [named]
        exact if_pos digits

/-- Run a call. -/
def AllowanceStep.apply : AllowanceStep → Db → Db
  | .verify settings now userId purchase, db =>
      (verifyReceipt settings now userId purchase.receipt purchase.identity db).2
  | .cost call, db => db.onUsers (recordCost call)

/-- The calls, one after the other. -/
def allowanceMachine : Machine Db AllowanceStep := ⟨fun step db => some (step.apply db)⟩

/-- A call that is accepted finds the transaction with another account on a paid plan, or with one
that has used no more than the call leaves of the caller's own usage: of all of it if neither the
tier nor the trial changes, of nothing if one does. -/
def AllowanceStep.KeepsPeriod (step : AllowanceStep) (db : Db) : Prop :=
  match step with
  | .verify settings _ userId purchase =>
      ∀ user accepted holder held, db.users.get userId = some user →
        acceptReceipt settings userId purchase.receipt purchase.identity db = .ok accepted →
        isPlanConflict db userId purchase.identity = false →
        db.users.get holder = some held →
        held.originalTransactionId = purchase.identity.originalTransactionId →
          (holder ≠ userId ∧ isPaidTier held.tier = true) ∨
            (accepted.isStateChange user = true ∧ held.monthlyUsedUsd ≤ 0) ∨
              (accepted.isStateChange user = false ∧ held.monthlyUsedUsd ≤ user.monthlyUsedUsd)
  | .cost _ => True

omit [PyRuntime] in
theorem holds_recordCost (call : CostCall) (db : Db) :
    (db.onUsers (recordCost call)).holds = db.holds := by
  funext k
  obtain ⟨cost, recorded⟩ := recordCost_get call db.users k
  rw [Db.holds, Db.onUsers_users, recorded, Option.bind_map]
  rfl

omit [PyRuntime] in
/-- A recorded cost only adds. -/
theorem cost_keepsUsage (call : CostCall) {db : Db} (one : OneHolder db.holds) :
    KeepsUsage db (db.onUsers (recordCost call)) := by
  apply keepsUsage_of_le one (holds_recordCost call db)
  intro k used used' before after
  obtain ⟨account, stored, rfl⟩ := Option.map_eq_some_iff.mp before
  rw [Db.used, Db.onUsers_users, recordCost] at after
  split at after
  · rw [stored] at after
    exact (Option.some.inj after).le
  · next charged =>
    rw [not_or, not_or, not_le] at charged
    rw [Table.get_update, stored] at after
    split at after
    · cases after
      exact le_add_of_nonneg_right charged.2.1.le
    · exact (Option.some.inj after).le

omit [PyRuntime] in
/-- A seized transaction keeps its usage when the account that seizes it ends with at least that. -/
theorem keepsUsage_seized_iff {before after : Db} {userId otid : PyStr} {amount : ℚ}
    (one : OneHolder before.holds) (seized : after.holds = seize userId otid before.holds)
    (left_ : after.used userId = some amount)
    (others : ∀ k, k ≠ userId → before.holds k ≠ some otid → after.used k = before.used k) :
    KeepsUsage before after ↔ ∀ holder used, before.holds holder = some otid →
      before.used holder = some used → used ≤ amount := by
  constructor
  · intro keeps holder used held spent
    exact keeps otid holder userId used amount held (by rw [seized, seize, if_pos rfl]) spent left_
  · intro most t h k used used' held held' spent spent'
    rw [seized, seize] at held'
    by_cases here : k = userId
    · rw [if_pos here, Option.some.injEq] at held'
      rw [here, left_, Option.some.injEq] at spent'
      rw [← held'] at held
      rw [← spent']
      exact most h used held spent
    · rw [if_neg here] at held'
      split at held'
      · cases held'
      · next apart =>
        rw [others k here apart, ← one t h k held held', spent, Option.some.injEq] at spent'
        exact spent'.le

/-- What an accepted receipt with a signed transaction leaves, when the transaction has one holder. -/
theorem verify_keepsUsage_iff {settings : ReceiptSettings} {userId : PyStr}
    {purchase : SignedPurchase} {db : Db} {user : Account} {accepted : AcceptedReceipt}
    (one : OneHolder db.holds) (stored : db.users.get userId = some user)
    (ok : acceptReceipt settings userId purchase.receipt purchase.identity db = .ok accepted)
    (now : DateTime) :
    KeepsUsage db (movePlan settings.tiers
        (holders purchase.identity.originalTransactionId userId db) userId
        purchase.identity.verified purchase.identity.originalTransactionId
        (applyReceipt accepted now userId user db)).1 ↔
      ∀ holder held, db.users.get holder = some held →
        held.originalTransactionId = purchase.identity.originalTransactionId →
          (holder ≠ userId ∧ isPaidTier held.tier = true) ∨
            held.monthlyUsedUsd ≤ accepted.usageLeft user := by
  obtain ⟨signed, otid, named, presents⟩ := purchase.identity_spec
  have own := (acceptReceipt_isTrial ok).2
  have present : (db.users.get userId).isSome := by rw [stored]; rfl
  have read : truthy (some otid) = some otid := truthy_eq_some.mpr ⟨rfl, named⟩
  have holds_of : ∀ {holder held}, db.users.get holder = some held →
      held.originalTransactionId = some otid → db.holds holder = some otid := by
    intro holder held row holds
    rw [Db.holds, row]
    exact holds
  have mem_holders : ∀ {holder}, holder ∈ holders (some otid) userId db ↔
      holder ∈ db.users.rows ∧ holder.2.originalTransactionId = some otid ∧ holder.1 ≠ userId := by
    intro holder
    unfold holders
    rw [read]
    exact List.mem_filter.trans (and_congr_right fun _ => decide_eq_true_iff)
  have spared : ∀ k, db.holds k ≠ some otid → ∀ holder ∈ holders (some otid) userId db,
      holder.1 ≠ k := by
    rintro _ apart holder member rfl
    obtain ⟨row, holds, _⟩ := mem_holders.mp member
    exact apart (holds_of (Table.get_of_mem row) holds)
  have seized : (movePlan settings.tiers (holders (some otid) userId db) userId true (some otid)
      (applyReceipt accepted now userId user db)).1.holds = seize userId otid db.holds := by
    rw [holds_movePlan]
    exact applyReceipt_holds present named (by rw [own, presents]) now user
  have others : ∀ k, k ≠ userId → db.holds k ≠ some otid →
      (movePlan settings.tiers (holders (some otid) userId db) userId true (some otid)
        (applyReceipt accepted now userId user db)).1.used k = db.used k := by
    intro k other apart
    rw [used_movePlan_of_ne _ settings.tiers other (spared k apart) true (some otid),
      used_applyReceipt_of_ne accepted now other]
  have used : db.used userId = some user.monthlyUsedUsd := by
    rw [Db.used, stored]
    rfl
  have left_ := used_applyReceipt accepted now used
  have present' : ((applyReceipt accepted now userId user db).users.get userId).isSome := by
    rw [← Option.isSome_map, ← Db.used, left_]
    rfl
  rw [signed, presents]
  by_cases moves : ∃ holder ∈ holders (some otid) userId db, isPaidTier holder.2.tier = true
  · -- the usage of the one holder is carried
    obtain ⟨source, member, pays, carried⟩ := used_movePlan _ settings.tiers present'
      (fun holder member => (mem_holders.mp member).2.2) (some otid) moves
    obtain ⟨row, holds, apart⟩ := mem_holders.mp member
    have sole : ∀ holder, db.holds holder = some otid → holder = source.1 := fun holder held =>
      one otid holder source.1 held (holds_of (Table.get_of_mem row) holds)
    rw [keepsUsage_seized_iff one seized carried others]
    refine iff_of_true ?_ ?_
    · intro holder used held spent
      rw [sole holder held, Db.used, Table.get_of_mem row] at spent
      exact (Option.some.inj spent).symm.le
    · intro holder held row' holds'
      have here := sole holder (holds_of row' holds')
      rw [here, Table.get_of_mem row, Option.some.injEq] at row'
      rw [here, ← row']
      exact .inl ⟨apart, pays⟩
  · have stays : ¬ PlanMovesIn db userId purchase.identity := by
      rintro ⟨_, paid⟩
      rw [presents] at paid
      exact moves paid
    have same := @movePlan_of_not_movesIn db (applyReceipt accepted now userId user db)
      settings.tiers userId purchase.identity stays
    rw [signed, presents] at same
    rw [same] at seized others ⊢
    rw [keepsUsage_seized_iff one seized left_ others]
    constructor
    · intro most holder held row holds
      exact .inr (most holder _ (holds_of row holds) (by rw [Db.used, row]; rfl))
    · intro each holder used held spent
      obtain ⟨account, row, holds⟩ := Option.bind_eq_some_iff.mp held
      rw [Db.used, row, Option.map_some, Option.some.injEq] at spent
      rcases each holder account row holds with ⟨apart, pays⟩ | le
      · exact absurd ⟨(holder, account),
          mem_holders.mpr ⟨Table.mem_of_get row, holds, apart⟩, pays⟩ moves
      · rw [← spent]
        exact le

/-- One call keeps the usage of the transaction exactly when it meets the condition. -/
theorem AllowanceStep.keepsUsage_iff (step : AllowanceStep) {db : Db} (one : OneHolder db.holds) :
    KeepsUsage db (step.apply db) ↔ step.KeepsPeriod db := by
  have unchanged : KeepsUsage db db := keepsUsage_of_le one rfl fun k used used' before after =>
    (Option.some.inj (before.symm.trans after)).le
  cases step with
  | cost call => exact iff_of_true (cost_keepsUsage call one) trivial
  | verify settings now userId purchase =>
      rw [apply, KeepsPeriod]
      unfold verifyReceipt
      split
      · next missing =>
        refine iff_of_true unchanged fun user _ _ _ stored => ?_
        rw [missing] at stored
        cases stored
      · next user stored =>
        split
        · next answer refused =>
          refine iff_of_true unchanged fun _ accepted _ _ _ ok => ?_
          rw [refused] at ok
          cases ok
        · next accepted ok =>
          split
          · next conflict =>
            refine iff_of_true unchanged fun _ _ _ _ _ _ free => ?_
            rw [conflict] at free
            cases free
          · next free =>
            simp only
            rw [verify_keepsUsage_iff one stored ok now]
            constructor
            · intro each user' accepted' holder held stored' ok' _ row holds
              rw [stored, Option.some.injEq] at stored'
              rw [ok, Except.ok.injEq] at ok'
              rw [← stored', ← ok', ← accepted.le_usageLeft_iff]
              exact each holder held row holds
            · intro each holder held row holds
              rw [accepted.le_usageLeft_iff]
              exact each user accepted holder held stored ok (Bool.eq_false_of_not_eq_true free) row
                holds

/-- The calls keep every transaction with one holder. -/
theorem AllowanceStep.keeps_oneHolder (step : AllowanceStep) {db : Db} (one : OneHolder db.holds) :
    OneHolder (step.apply db).holds := by
  cases step with
  | verify settings now userId purchase =>
      exact (OwnershipStep.verify settings now userId purchase.receipt purchase.claim).keeps_oneHolder
        one
  | cost call => rwa [apply, holds_recordCost]

/-- In a run of receipts with signed transactions and of recorded costs, every call leaves the holder
of a transaction with at least the usage its holder had, exactly when every receipt is refused, finds
the transaction with another account on a paid plan, or leaves the caller with as much. -/
theorem reverification_keeps_usage_iff (steps : List AllowanceStep) (initial : Db)
    (one : OneHolder initial.holds) :
    allowanceMachine.Along (fun step db => KeepsUsage db (step.apply db)) steps initial ↔
      allowanceMachine.Along AllowanceStep.KeepsPeriod steps initial := by
  refine Machine.along_congr (I := fun db => OneHolder db.holds) ?_ ?_ one
  · intro step db db' one taken
    cases taken
    exact step.keeps_oneHolder one
  · intro step db one
    exact step.keepsUsage_iff one

end

/-- A call of one account that presents the signed Pro transaction, with the client's flag. -/
def presentPro (isTrial : Bool) : AllowanceStep :=
  .verify openReceipts jan1 (py "a")
    { receipt := (signedPro (py "1000") (some isTrial)).1
      claim := (signedPro (py "1000") (some isTrial)).2
      payload := ⟨some (py "1000"), some (py "1000"), some (py "Production"),
        some (py "com.weirtech.shouldersurf.sub.pro.monthly"), .unknown⟩
      signed := rfl
      named := by decide }

/-- Two dollars spent on the trial of that account. -/
def spendTwo : AllowanceStep :=
  .cost ⟨py "a", 2, ⟨-1, some (51 / 10), [], []⟩, true, false⟩

theorem reverification_keeps_usage_iff_launch :
    letI := PyRuntime.ascii
    allowanceMachine.Along (fun step db => KeepsUsage db (step.apply db))
        [presentPro true, spendTwo, presentPro true] phoneAndTablet ↔
      allowanceMachine.Along AllowanceStep.KeepsPeriod
        [presentPro true, spendTwo, presentPro true] phoneAndTablet :=
  letI := PyRuntime.ascii
  reverification_keeps_usage_iff _ phoneAndTablet (.of_none (holds_of_rows (by decide)))

/-- The same transaction, presented again with the other flag, clears the usage. -/
theorem other_flag_clears_usage :
    letI := PyRuntime.ascii
    ¬ allowanceMachine.Along (fun step db => KeepsUsage db (step.apply db))
      [presentPro true, spendTwo, presentPro false] phoneAndTablet := by
  let _ := PyRuntime.ascii
  intro keeps
  have last := ((keeps.2 _ rfl).2 _ rfl).1
  have le := last (py "1000") (py "a") (py "a") 2 0 (by decide +kernel) (by decide +kernel)
    (by decide +kernel) (by decide +kernel)
  exact absurd le (by norm_num)

end GhostPour.Billing
