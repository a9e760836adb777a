/-
Module: GhostPour.Purchases.Proofs.RefundOrder
Layer: Proof
Purpose: When a refunded transaction ends revoked: exactly when a refund that names it arrives after
  its first record. A refund that arrives before the record changes no row, and the record that
  follows grants what was given back.
Trusted boundary: none
Main exports: PurchaseEvent, NoticeEvent, refund_final_iff, refund_before_record_lost
-/
import GhostPour.Library.Ledgers
import GhostPour.Purchases.Proofs.UnlockConfluence
import GhostPour.Purchases.Unlocks

namespace GhostPour.Purchases

/-! ### The unlocks -/

/-- What happens to the unlocks: a transaction is recorded, a refund arrives, accounts are merged. -/
inductive PurchaseEvent where
  | record (now : Instant) (userId : PyStr) (post : UnlockPost)
  | refund (now : Instant) (notice : RefundNotice)
  | merge (now : Instant) (anonymous apple : PyStr) (otid : Option PyStr)

/-- The tables an event leaves. -/
def PurchaseEvent.apply (catalog : UnlockCatalog) (db : UnlockDb) : PurchaseEvent → UnlockDb
  | .record now userId post => (Purchases.record catalog now userId post db).1
  | .refund now notice => revoke now notice db
  | .merge now anonymous apple otid => mergePurchases catalog now anonymous apple otid db

def runPurchases (catalog : UnlockCatalog) (events : List PurchaseEvent) (db : UnlockDb) : UnlockDb :=
  events.foldl (PurchaseEvent.apply catalog) db

/-- A notice with these ids names a transaction with this original one. -/
def namedBy (keys : List PyStr) (txn : PyStr) (otid : Option PyStr) : Bool :=
  txn ∈ keys ∨ ∃ key ∈ keys, otid = some key

/-- What an event is for one transaction. -/
def PurchaseEvent.on (catalog : UnlockCatalog) (txn : PyStr) :
    PurchaseEvent → MarkEvent (Option PyStr)
  | .record _ _ post =>
      if post.transactionId = txn ∧ txn ≠ [] ∧ catalog.get post.productId ≠ none then
        .put post.originalTransactionId
      else .other
  | .refund _ notice => .mark (namedBy notice.keys txn)
  | .merge _ _ _ _ => .other

/-- A refund that names the transaction comes after its first record. -/
def RefundFollows (catalog : UnlockCatalog) (txn : PyStr) (events : List PurchaseEvent) : Prop :=
  MarkedAfterPut (events.map (PurchaseEvent.on catalog txn))

/-- The transaction is revoked, and no account owns anything by it. -/
def UnlockRevoked (txn : PyStr) (db : UnlockDb) : Prop :=
  ∃ row, db.purchases.get txn = some row ∧ row.revokedAt ≠ none ∧
    ∀ userId, owned userId db = owned userId (db.onPurchases fun t => t.delete txn)

/-- What a refund reads and writes of a row. -/
def Purchase.refundView (row : Purchase) : Option PyStr × Bool :=
  (row.originalTransactionId, row.revokedAt.isSome)

/-- A transaction as a refund sees it. -/
def UnlockDb.refundView (db : UnlockDb) (txn : PyStr) : Option (Option PyStr × Bool) :=
  (db.purchases.get txn).map Purchase.refundView

section
variable {catalog : UnlockCatalog} {db : UnlockDb} {txn userId : PyStr}

/-- A transaction that is stored is not put again. -/
theorem recordAgain_view (now : Instant) (post : UnlockPost) (prevUser : PyStr) :
    (recordAgain catalog now userId post prevUser db).1.refundView txn = db.refundView txn := by
  have priced : (db.onPurchases fun t => t.update post.transactionId post.addPrice).refundView txn =
      db.refundView txn := by
    refine update_reads _ (fun row => ?_) txn
    obtain ⟨_, _, _, revoked, _, otid⟩ := addPrice_same post row
    unfold Purchase.refundView
    rw [revoked, otid]
  unfold recordAgain
  simp only
  split
  · exact priced
  · split
    · exact priced
    · next moved inserted =>
      have decided : (resolvePending catalog userId moved).refundView txn = moved.refundView txn :=
        resolvePending_reads _ (fun _ _ _ => rfl) txn
      rw [← priced]
      refine decided.trans ?_
      unfold UnlockDb.refundView
      rw [insertLink_purchases inserted]
      exact update_reads _ (f := fun row => { row with userId := userId }) (fun _ => rfl) txn

/-- A new transaction is put. -/
theorem recordNew_view (now : Instant) {post : UnlockPost} (spec : UnlockSpec)
    (absent : db.purchases.get post.transactionId = none) :
    (recordNew catalog now userId post spec db).1.refundView txn =
      if txn = post.transactionId then some (post.originalTransactionId, false)
      else db.refundView txn := by
  unfold recordNew
  simp only
  split
  · refine (resolvePending_reads Purchase.refundView (fun _ _ _ => rfl) txn).trans ?_
    exact insert_reads _ _ absent txn
  · exact insert_reads _ _ absent txn

theorem PurchaseEvent.on_record (now : Instant) (post : UnlockPost) :
    (PurchaseEvent.record now userId post).on catalog txn =
      if post.transactionId = txn ∧ txn ≠ [] ∧ catalog.get post.productId ≠ none then
        .put post.originalTransactionId
      else .other := rfl

theorem record_view (now : Instant) (post : UnlockPost) :
    (record catalog now userId post db).1.refundView txn =
      ((PurchaseEvent.record now userId post).on catalog txn).apply (db.refundView txn) := by
  unfold record
  rw [PurchaseEvent.on_record]
  split
  · next unknown =>
    rw [if_neg fun puts => puts.2.2 unknown]
    rfl
  · next spec product =>
    split
    · next unnamed =>
      rw [if_neg fun puts => puts.2.1 (puts.1.symm.trans unnamed)]
      rfl
    · next named =>
      by_cases same : post.transactionId = txn
      · subst same
        rw [if_pos ⟨rfl, named, by simp [product]⟩]
        split
        · next row stored =>
          rw [recordAgain_view]
          unfold UnlockDb.refundView
          rw [stored]
          rfl
        · next absent =>
          rw [recordNew_view now spec absent, if_pos rfl]
          unfold UnlockDb.refundView
          rw [absent]
          rfl
      · rw [if_neg fun puts => same puts.1]
        split
        · exact recordAgain_view now post _
        · next absent =>
          rw [recordNew_view now spec absent, if_neg fun eq => same eq.symm]
          rfl

/-- A refund marks what it names, once. -/
theorem revoke_view (now : Instant) (notice : RefundNotice) :
    (revoke now notice db).refundView txn =
      (MarkEvent.mark (namedBy notice.keys txn)).apply (db.refundView txn) := by
  rw [MarkEvent.apply_mark]
  unfold revoke UnlockDb.refundView
  rw [UnlockDb.onPurchases_purchases, Table.get_updateWhere, Option.map_map, Option.map_map]
  refine congrArg (fun g => Option.map g (db.purchases.get txn)) (funext fun row => ?_)
  have named : notice.names txn row = namedBy notice.keys txn row.originalTransactionId := rfl
  simp only [Function.comp_apply, named, Purchase.refundView]
  rcases revoked : row.revokedAt with _ | at_
  · cases namedBy notice.keys txn row.originalTransactionId <;> simp [revoked]
  · simp [revoked]

theorem merge_view (now : Instant) (anonymous apple : PyStr) (otid : Option PyStr) :
    (mergePurchases catalog now anonymous apple otid db).refundView txn = db.refundView txn := by
  have moved : (db.onPurchases fun t => t.updateWhere (fun _ row => row.userId = anonymous)
      fun row => { row with userId := apple }).refundView txn = db.refundView txn := by
    unfold UnlockDb.refundView
    rw [UnlockDb.onPurchases_purchases, Table.get_updateWhere, Option.map_map]
    refine congrArg (fun g => Option.map g (db.purchases.get txn)) (funext fun row => ?_)
    rw [Function.comp_apply]
    split <;> rfl
  unfold mergePurchases UnlockDb.refundView
  rw [linkAccounts_purchases]
  split
  · exact (resolvePending_reads Purchase.refundView (fun _ _ _ => rfl) txn).trans moved
  · exact moved

/-- Of one transaction, the ledger is an entry that is put once and marked. -/
theorem apply_view (event : PurchaseEvent) :
    (event.apply catalog db).refundView txn = (event.on catalog txn).apply (db.refundView txn) := by
  cases event with
  | record now userId post => exact record_view now post
  | refund now notice => exact revoke_view now notice
  | merge now anonymous apple otid => exact merge_view now anonymous apple otid

theorem run_view (events : List PurchaseEvent) :
    (runPurchases catalog events db).refundView txn =
      markRun (events.map (PurchaseEvent.on catalog txn)) (db.refundView txn) := by
  induction events generalizing db with
  | nil => rfl
  | cons event events ih =>
      rw [List.map_cons, markRun_cons, ← apply_view]
      exact ih

/-- A revoked transaction gives nothing to anyone. -/
theorem owned_delete {row : Purchase} (stored : db.purchases.get txn = some row)
    (revoked : row.revokedAt ≠ none) :
    owned userId db = owned userId (db.onPurchases fun t => t.delete txn) := by
  unfold owned
  refine List.filter_congr fun feature _ => ?_
  rw [Bool.eq_iff_iff, List.any_eq_true, List.any_eq_true]
  constructor
  · rintro ⟨⟨other, held⟩, member, counts⟩
    refine ⟨(other, held), List.mem_filter.mpr ⟨member, ?_⟩, counts⟩
    rcases eq_or_ne other txn with rfl | ne
    · rw [Table.get_of_mem member, Option.some.injEq] at stored
      subst stored
      simp [Purchase.counts, revoked] at counts
    · simpa using ne
  · rintro ⟨r, member, counts⟩
    exact ⟨r, (List.mem_filter.mp member).1, counts⟩

theorem unlockRevoked_iff_view :
    UnlockRevoked txn db ↔ (db.refundView txn).map Prod.snd = some true := by
  unfold UnlockRevoked UnlockDb.refundView
  constructor
  · rintro ⟨row, stored, revoked, _⟩
    rw [stored]
    simpa [Purchase.refundView, Option.isSome_iff_ne_none] using revoked
  · intro marked
    obtain ⟨row, stored, eq⟩ : ∃ row, db.purchases.get txn = some row ∧ row.revokedAt.isSome = true :=
      by simpa [Purchase.refundView, Option.map_eq_some_iff] using marked
    have revoked : row.revokedAt ≠ none := Option.isSome_iff_ne_none.mp eq
    exact ⟨row, stored, revoked, fun userId => owned_delete stored revoked⟩

end

/-! ### The ledger of the other apps -/

/-- A notification for an app that keeps a ledger. -/
structure NoticeEvent where
  now : Instant
  appId : PyStr
  bundleId : PyStr
  notificationType : PyStr
  info : TransactionInfo
  environment : Option PyStr

def NoticeEvent.apply (table : AppPurchases) (event : NoticeEvent) : AppPurchases :=
  (recordNotification event.now event.appId event.bundleId event.notificationType event.info
    event.environment table).1

def runNotices (events : List NoticeEvent) (table : AppPurchases) : AppPurchases :=
  events.foldl NoticeEvent.apply table

/-- What a notification is for one transaction. -/
def NoticeEvent.on (txn : PyStr) (event : NoticeEvent) : MarkEvent (Option PyStr) :=
  if event.notificationType = py "ONE_TIME_CHARGE" then
    if truthy event.info.transactionId = some txn then .put event.info.originalTransactionId
    else .other
  else if event.notificationType = py "REFUND" ∨ event.notificationType = py "REVOKE" then
    .mark (namedBy event.info.keys txn)
  else .other

/-- A refund that names the transaction comes after its first charge. -/
def RefundFollowsCharge (txn : PyStr) (events : List NoticeEvent) : Prop :=
  MarkedAfterPut (events.map (NoticeEvent.on txn))

/-- The transaction is revoked, and is not counted as kept. -/
def ChargeRevoked (txn : PyStr) (table : AppPurchases) : Prop :=
  ∃ row, table.get txn = some row ∧ row.revokedAt ≠ none ∧ ∀ r ∈ live table, r.1 ≠ txn

/-- What a refund reads and writes of a row. -/
def AppPurchase.refundView (row : AppPurchase) : Option PyStr × Bool :=
  (row.originalTransactionId, row.revokedAt.isSome)

section
variable {txn : PyStr} {table : AppPurchases}

/-- Of one transaction, the ledger is an entry that is put once and marked. -/
theorem notice_view (event : NoticeEvent) :
    ((event.apply table).get txn).map AppPurchase.refundView =
      (event.on txn).apply ((table.get txn).map AppPurchase.refundView) := by
  unfold NoticeEvent.apply recordNotification NoticeEvent.on
  split
  · split
    · next unnamed =>
      rw [unnamed, if_neg (by simp)]
      rfl
    · next key named =>
      rw [named]
      by_cases same : key = txn
      · subst same
        rw [if_pos rfl]
        simp only
        rw [Table.get_upsert_self]
        cases table.get key <;> rfl
      · rw [if_neg fun eq => same (Option.some.inj eq)]
        simp only
        rw [Table.get_upsert_of_ne _ _ _ fun eq => same eq.symm]
        rfl
  · split
    · split
      · next noKeys =>
        have nothing : namedBy event.info.keys txn = fun _ => false := by
          funext otid
          simp [namedBy, noKeys]
        rw [nothing]
        cases table.get txn <;> simp [MarkEvent.apply, AppPurchase.refundView]
      · rw [MarkEvent.apply_mark, Table.get_updateWhere, Option.map_map, Option.map_map]
        refine congrArg (fun g => Option.map g (table.get txn)) (funext fun row => ?_)
        have named : event.info.names txn row =
            namedBy event.info.keys txn row.originalTransactionId := rfl
        simp only [Function.comp_apply, named, AppPurchase.refundView]
        rcases revoked : row.revokedAt with _ | at_
        · cases namedBy event.info.keys txn row.originalTransactionId <;> simp [revoked]
        · simp [revoked]
    · rfl

theorem runNotices_view (events : List NoticeEvent) :
    ((runNotices events table).get txn).map AppPurchase.refundView =
      markRun (events.map (NoticeEvent.on txn)) ((table.get txn).map AppPurchase.refundView) := by
  induction events generalizing table with
  | nil => rfl
  | cons event events ih =>
      rw [List.map_cons, markRun_cons, ← notice_view]
      exact ih

theorem chargeRevoked_iff_view :
    ChargeRevoked txn table ↔
      ((table.get txn).map AppPurchase.refundView).map Prod.snd = some true := by
  unfold ChargeRevoked
  constructor
  · rintro ⟨row, stored, revoked, _⟩
    rw [stored]
    simpa [AppPurchase.refundView, Option.isSome_iff_ne_none] using revoked
  · intro marked
    obtain ⟨row, stored, eq⟩ : ∃ row, table.get txn = some row ∧ row.revokedAt.isSome = true := by
      simpa [AppPurchase.refundView, Option.map_eq_some_iff] using marked
    refine ⟨row, stored, Option.isSome_iff_ne_none.mp eq, ?_⟩
    rintro ⟨other, held⟩ member rfl
    obtain ⟨there, kept⟩ := List.mem_filter.mp member
    rw [Table.get_of_mem there, Option.some.injEq] at stored
    subst stored
    have unrevoked : held.revokedAt = none := of_decide_eq_true kept
    rw [unrevoked] at eq
    cases eq

end

/-! ### When a refund is final -/

/-- Whatever else happens, a transaction that was not stored ends revoked exactly when a refund that
names it arrives after its first record, in either ledger. -/
theorem refund_final_iff (catalog : UnlockCatalog) (txn : PyStr) (events : List PurchaseEvent)
    (db : UnlockDb) (absent : db.purchases.get txn = none) (notices : List NoticeEvent)
    (table : AppPurchases) (absent' : table.get txn = none) :
    (UnlockRevoked txn (runPurchases catalog events db) ↔ RefundFollows catalog txn events) ∧
      (ChargeRevoked txn (runNotices notices table) ↔ RefundFollowsCharge txn notices) := by
  constructor
  · rw [unlockRevoked_iff_view, run_view, UnlockDb.refundView, absent]
    exact markRun_marked_iff _
  · rw [chargeRevoked_iff_view, runNotices_view, absent']
    exact markRun_marked_iff _

/-- A purchase of an account, and its refund. -/
def boughtAt (now : Instant) : PurchaseEvent :=
  .record now (py "u") ⟨py "t", py "com.weirtech.shouldersurf.unlock.byok", some (py "t"), none, none⟩

def refundedAt (now : Instant) : PurchaseEvent :=
  .refund now ⟨some (py "t"), some (py "t"), py "refund"⟩

/-- The notifications of a charge and of its refund. -/
def chargeNotice (notificationType : PyStr) (now : Instant) : NoticeEvent :=
  ⟨now, py "n400", py "com.weirtech.n400", notificationType,
    ⟨some (py "t"), some (py "t"), some 0, none, some 9990, some (py "USD"), none⟩, none⟩

/-- The tables before any purchase. -/
def noPurchases : UnlockDb := ⟨.empty, .empty⟩

/-- The theorem where the refund comes last, with both sent twice. -/
theorem refund_final_iff_in_order :
    UnlockRevoked (py "t")
        (runPurchases unlocksYml [refundedAt 1, boughtAt 2, refundedAt 3, boughtAt 4] noPurchases) ∧
      ChargeRevoked (py "t") (runNotices [chargeNotice (py "ONE_TIME_CHARGE") 1,
        chargeNotice (py "REFUND") 2, chargeNotice (py "ONE_TIME_CHARGE") 3] .empty) := by
  obtain ⟨unlocks, charges⟩ := refund_final_iff unlocksYml (py "t")
    [refundedAt 1, boughtAt 2, refundedAt 3, boughtAt 4] noPurchases rfl
    [chargeNotice (py "ONE_TIME_CHARGE") 1, chargeNotice (py "REFUND") 2,
      chargeNotice (py "ONE_TIME_CHARGE") 3] .empty rfl
  constructor
  · apply unlocks.mpr
    refine ⟨[(refundedAt 1).on unlocksYml (py "t")], some (py "t"),
      [(refundedAt 3).on unlocksYml (py "t"), (boughtAt 4).on unlocksYml (py "t")], rfl, ?_,
      (refundedAt 3).on unlocksYml (py "t"), List.mem_cons_self, by decide +kernel⟩
    intro event member
    rw [List.mem_singleton.mp member]
    rfl
  · apply charges.mpr
    exact ⟨[], some (py "t"), [(chargeNotice (py "REFUND") 2).on (py "t"),
      (chargeNotice (py "ONE_TIME_CHARGE") 3).on (py "t")], rfl,
      fun _ member => absurd member List.not_mem_nil, _, List.mem_cons_self, by decide +kernel⟩

/-- A refund that arrives first is lost: the purchase it takes back is granted, and kept. -/
theorem refund_before_record_lost :
    ((runPurchases unlocksYml [refundedAt 1, boughtAt 2] noPurchases).purchases.get (py "t")).map
        Purchase.revokedAt = some none ∧
      owned (py "u") (runPurchases unlocksYml [refundedAt 1, boughtAt 2] noPurchases) =
        [py "unlock_byok"] ∧
      (live (runNotices [chargeNotice (py "REFUND") 1, chargeNotice (py "ONE_TIME_CHARGE") 2]
        .empty)).map Prod.fst = [py "t"] := by
  decide +kernel

end GhostPour.Purchases
