/-
Module: GhostPour.Purchases.Unlocks
Layer: Model
Purpose: The two ledgers of purchases. `app/services/unlocks.py` with the part of
  `anonymous_merge.merge_into` that moves its rows: `environment`, `purchased_at` and `source`, which are
  only stored, and the operator's alert for a refund are left out. `app/services/app_purchases.py`, the
  record-only ledger of what Apple notifies for apps whose pay sheet is on the phone, with how
  `case_stats.summarize` counts its rows: the product, the account token and the storefront, which are only
  stored, are left out.
Trusted boundary: human-reviewed spec
Main exports: UnlockSpec, UnlockCatalog, Purchase, UnlockDb, owned, decide, resolvePending, record, revoke,
  mergePurchases, AppPurchase, TransactionInfo, LedgerAction, recordNotification, live, refunded
-/
import GhostPour.Library.Calendar
import GhostPour.Library.PyText
import GhostPour.Library.Table

namespace GhostPour.Purchases

/-! ### The catalog -/

/-- `UNLOCK_FEATURES`. -/
def unlockFeatures : List PyStr := [py "unlock_apple_cloud", py "unlock_byok"]

/-- A product of `unlocks.yml`. -/
structure UnlockSpec where
  grants : List PyStr
  requires : Option PyStr

/-- The features a product can turn on. -/
def UnlockSpec.unlocks (spec : UnlockSpec) : List PyStr :=
  spec.grants.filter fun feature => feature ∈ unlockFeatures

/-- `products()`. -/
abbrev UnlockCatalog := List (PyStr × UnlockSpec)

/-- `products().get(product_id)`. -/
def UnlockCatalog.get (catalog : UnlockCatalog) (productId : PyStr) : Option UnlockSpec :=
  (catalog.find? (·.1 = productId)).map Prod.snd

/-- `unlocks.yml`. -/
def unlocksYml : UnlockCatalog :=
  [ (py "com.weirtech.shouldersurf.unlock.applecloud", ⟨[py "unlock_apple_cloud"], none⟩),
    (py "com.weirtech.shouldersurf.unlock.byok", ⟨[py "unlock_byok"], none⟩),
    (py "com.weirtech.shouldersurf.unlock.bundle",
      ⟨[py "unlock_apple_cloud", py "unlock_byok"], none⟩),
    (py "com.weirtech.shouldersurf.unlock.applecloud.upgrade",
      ⟨[py "unlock_apple_cloud"], some (py "unlock_byok")⟩),
    (py "com.weirtech.shouldersurf.unlock.byok.upgrade",
      ⟨[py "unlock_byok"], some (py "unlock_apple_cloud")⟩) ]

/-! ### The tables -/

/-- The `status` of a purchase. -/
inductive PurchaseStatus where
  | granted
  | pending
  | refundFlagged
deriving DecidableEq

/-- A `purchases` row without its primary key, the transaction id. -/
structure Purchase where
  originalTransactionId : Option PyStr
  userId : PyStr
  productId : PyStr
  grants : List PyStr
  status : PurchaseStatus
  recordedAt : Instant
  revokedAt : Option Instant
  revokeReason : Option PyStr
  pricePaid : Option ℚ
  currency : Option PyStr
deriving DecidableEq

/-- An `account_links` row; its key is the pair of accounts. -/
structure AccountLink where
  reason : PyStr
  originalTransactionId : Option PyStr
  linkedAt : Instant
deriving DecidableEq

/-- The tables. -/
structure UnlockDb where
  purchases : Table PyStr Purchase
  accountLinks : Table (PyStr × PyStr) AccountLink

/-- A change of the purchases. -/
def UnlockDb.onPurchases (db : UnlockDb) (f : Table PyStr Purchase → Table PyStr Purchase) :
    UnlockDb :=
  { db with purchases := f db.purchases }

@[simp] theorem UnlockDb.onPurchases_purchases (db : UnlockDb)
    (f : Table PyStr Purchase → Table PyStr Purchase) :
    (db.onPurchases f).purchases = f db.purchases := rfl

/-! ### Deciding -/

/-- A row that turns features on for its user. -/
def Purchase.counts (userId : PyStr) (row : Purchase) : Bool :=
  row.userId = userId ∧ row.status = .granted ∧ row.revokedAt = none

/-- `owned`: the unlock features a user holds. -/
def owned (userId : PyStr) (db : UnlockDb) : List PyStr :=
  unlockFeatures.filter fun feature =>
    db.purchases.rows.any fun r => r.2.counts userId && decide (feature ∈ r.2.grants)

/-- `_decide`. -/
def decideUnlock (spec : UnlockSpec) (have_ : List PyStr) : PurchaseStatus × List PyStr :=
  match spec.requires with
  | none => (.granted, spec.unlocks)
  | some required =>
      if ∀ feature ∈ spec.unlocks, feature ∈ have_ then (.refundFlagged, [])
      else if required ∉ have_ then (.pending, [])
      else (.granted, spec.unlocks)

/-- One round of `_resolve_pending`. -/
def resolveOne (catalog : UnlockCatalog) (userId : PyStr) (db : UnlockDb)
    (entry : PyStr × PyStr) : UnlockDb :=
  match catalog.get entry.2 with
  | none => db
  | some spec =>
      match decideUnlock spec (owned userId db) with
      | (.granted, grants) =>
          db.onPurchases fun t => t.update entry.1 fun row =>
            { row with status := .granted, grants := grants }
      | (.refundFlagged, _) =>
          db.onPurchases fun t => t.update entry.1 fun row => { row with status := .refundFlagged }
      | (.pending, _) => db

/-- A pending upgrade of a user. -/
def Purchase.waits (userId : PyStr) (row : Purchase) : Bool :=
  row.userId = userId ∧ row.status = .pending ∧ row.revokedAt = none

/-- The pending upgrades of a user with their products, in the order they were recorded. -/
def pendingOf (userId : PyStr) (db : UnlockDb) : List (PyStr × PyStr) :=
  ((db.purchases.select fun _ row => row.waits userId).mergeSort
    fun one two => one.2.recordedAt ≤ two.2.recordedAt).map fun r => (r.1, r.2.productId)

/-- `_resolve_pending`. -/
def resolvePending (catalog : UnlockCatalog) (userId : PyStr) (db : UnlockDb) : UnlockDb :=
  (pendingOf userId db).foldl (resolveOne catalog userId) db

/-! ### Recording -/

/-- The arguments of `record` that name a transaction. -/
structure UnlockPost where
  transactionId : PyStr
  productId : PyStr
  originalTransactionId : Option PyStr
  pricePaid : Option ℚ
  currency : Option PyStr

/-- What `record` returns. -/
structure RecordResult where
  status : PurchaseStatus
  unlocks : List PyStr

/-- The price, for a row that has none yet. -/
def UnlockPost.addPrice (post : UnlockPost) (row : Purchase) : Purchase :=
  match post.pricePaid, row.pricePaid with
  | some price, none => { row with pricePaid := some price, currency := post.currency }
  | _, _ => row

/-- The plain insert into `account_links`: a pair that is there already is an error. -/
def insertLink (pair : PyStr × PyStr) (link : AccountLink) (db : UnlockDb) :
    Except PyStr UnlockDb :=
  match db.accountLinks.get pair with
  | some _ =>
      .error (py
        "UNIQUE constraint failed: account_links.from_user_id, account_links.to_user_id")
  | none => .ok { db with accountLinks := db.accountLinks.upsert pair link id }

/-- The status of a transaction, as `record` reads it back. -/
def statusOf (transactionId : PyStr) (db : UnlockDb) : PurchaseStatus :=
  ((db.purchases.get transactionId).map Purchase.status).getD .pending

/-- A transaction that is stored already: it changes nothing, except that it moves to the account
that posts it. An error after the price leaves what was committed before it. -/
def recordAgain (catalog : UnlockCatalog) (now : Instant) (userId : PyStr) (post : UnlockPost)
    (prevUser : PyStr) (db : UnlockDb) : UnlockDb × Except PyStr RecordResult :=
  let db := db.onPurchases fun t => t.update post.transactionId post.addPrice
  if prevUser = userId then (db, .ok ⟨statusOf post.transactionId db, owned userId db⟩)
  else
    let moved := db.onPurchases fun t =>
      t.update post.transactionId fun row => { row with userId := userId }
    let otid := some (post.originalTransactionId.getD post.transactionId)
    match insertLink (prevUser, userId) ⟨py "restore", otid, now⟩ moved with
    | .error message => (db, .error message)
    | .ok moved =>
        let db := resolvePending catalog userId moved
        (db, .ok ⟨statusOf post.transactionId db, owned userId db⟩)

/-- A transaction that is new. -/
def recordNew (catalog : UnlockCatalog) (now : Instant) (userId : PyStr) (post : UnlockPost)
    (spec : UnlockSpec) (db : UnlockDb) : UnlockDb × Except PyStr RecordResult :=
  let (status, grants) := decideUnlock spec (owned userId db)
  let row : Purchase :=
    ⟨post.originalTransactionId, userId, post.productId, grants, status, now, none, none,
      post.pricePaid, post.currency⟩
  let db := db.onPurchases fun t => t.upsert post.transactionId row id
  let db := if status = .granted then resolvePending catalog userId db else db
  (db, .ok ⟨status, owned userId db⟩)

/-- `record`: the tables as they are committed, and the result or the error it raises. -/
def record (catalog : UnlockCatalog) (now : Instant) (userId : PyStr) (post : UnlockPost)
    (db : UnlockDb) : UnlockDb × Except PyStr RecordResult :=
  match catalog.get post.productId with
  | none => (db, .error (py "not an unlock product: " ++ post.productId))
  | some spec =>
      if post.transactionId = [] then (db, .error (py "an unlock needs a transaction id"))
      else
        match db.purchases.get post.transactionId with
        | some row => recordAgain catalog now userId post row.userId db
        | none => recordNew catalog now userId post spec db

/-! ### Refunds and merges -/

/-- The ids a refund notification names. -/
structure RefundNotice where
  transactionId : Option PyStr
  originalTransactionId : Option PyStr
  reason : PyStr

/-- `keys`: the ids that are there and not empty. -/
def RefundNotice.keys (notice : RefundNotice) : List PyStr :=
  ([notice.transactionId, notice.originalTransactionId].filterMap id).filter (· ≠ [])

/-- The row a refund names, by either id. -/
def RefundNotice.names (notice : RefundNotice) (transactionId : PyStr) (row : Purchase) : Bool :=
  transactionId ∈ notice.keys ∨ ∃ key ∈ notice.keys, row.originalTransactionId = some key

/-- `revoke`. -/
def revoke (now : Instant) (notice : RefundNotice) (db : UnlockDb) : UnlockDb :=
  db.onPurchases fun t =>
    t.updateWhere (fun txn row => decide (row.revokedAt = none) && notice.names txn row)
      fun row => { row with revokedAt := some now, revokeReason := some notice.reason }

/-- `account_groups.link`: two accounts are one person; a pair that is there already stays. -/
def linkAccounts (source target : PyStr) (link : AccountLink) (db : UnlockDb) : UnlockDb :=
  if source = [] ∨ target = [] ∨ source = target then db
  else { db with accountLinks := db.accountLinks.upsert (source, target) link id }

/-- The purchases in `merge_into`: all of them follow the person, and what waits is decided again.
`otid` is the subscription of the anonymous account. -/
def mergePurchases (catalog : UnlockCatalog) (now : Instant) (anonymous apple : PyStr)
    (otid : Option PyStr) (db : UnlockDb) : UnlockDb :=
  let moves := db.purchases.rows.any fun r => decide (r.2.userId = anonymous)
  let moved := db.onPurchases fun t =>
    t.updateWhere (fun _ row => row.userId = anonymous) fun row => { row with userId := apple }
  let decided := if moves then resolvePending catalog apple moved else moved
  linkAccounts anonymous apple ⟨py "merge", otid, now⟩ decided

end GhostPour.Purchases

namespace GhostPour.Purchases

/-- An `app_purchases` row without its primary key, the transaction id. -/
structure AppPurchase where
  originalTransactionId : Option PyStr
  appId : PyStr
  bundleId : PyStr
  purchasedAt : Option Instant
  priceMilli : Option Int
  currency : Option PyStr
  environment : Option PyStr
  recordedAt : Instant
  revokedAt : Option Instant
  revokeReason : Option PyStr
deriving DecidableEq

/-- The table. -/
abbrev AppPurchases := Table PyStr AppPurchase

/-- What a notification says of its transaction; the dates are in milliseconds from 1970. -/
structure TransactionInfo where
  transactionId : Option PyStr
  originalTransactionId : Option PyStr
  purchaseDate : Option Nat
  revocationDate : Option Nat
  price : Option Int
  currency : Option PyStr
  environment : Option PyStr

/-- `_ms_to_iso`. -/
def msToIso (ms : Nat) : Instant := 719162 * microsPerDay + ms * 1000

/-- What `record_notification` returns. -/
inductive LedgerAction where
  | recorded
  | duplicate
  | revoked
  | none
deriving DecidableEq

/-- A text that Python takes for true. -/
def truthy (text : Option PyStr) : Option PyStr := text.filter (· ≠ [])

/-- `keys`: the ids that are there and not empty. -/
def TransactionInfo.keys (info : TransactionInfo) : List PyStr :=
  [info.transactionId, info.originalTransactionId].filterMap truthy

/-- The row a refund names, by either id. -/
def TransactionInfo.names (info : TransactionInfo) (transactionId : PyStr) (row : AppPurchase) :
    Bool :=
  transactionId ∈ info.keys ∨ ∃ key ∈ info.keys, row.originalTransactionId = some key

/-- The row of a charge. -/
def TransactionInfo.charge (info : TransactionInfo) (now : Instant) (appId bundleId : PyStr)
    (environment : Option PyStr) : AppPurchase :=
  ⟨info.originalTransactionId, appId, bundleId, info.purchaseDate.map msToIso, info.price,
    info.currency, (truthy info.environment).or environment, now, none, none⟩

/-- `record_notification`: a charge is inserted unless it is there, a refund marks the rows it
names. -/
def recordNotification (now : Instant) (appId bundleId notificationType : PyStr)
    (info : TransactionInfo) (environment : Option PyStr) (table : AppPurchases) :
    AppPurchases × LedgerAction :=
  if notificationType = py "ONE_TIME_CHARGE" then
    match truthy info.transactionId with
    | none => (table, .none)
    | some txn =>
        let action := if table.get txn = none then LedgerAction.recorded else .duplicate
        (table.upsert txn (info.charge now appId bundleId environment) id, action)
  else if notificationType = py "REFUND" ∨ notificationType = py "REVOKE" then
    if info.keys = [] then (table, .none)
    else
      let when_ := (info.revocationDate.map msToIso).getD now
      let reason := if notificationType = py "REFUND" then py "refund" else py "revoke"
      (table.updateWhere (fun txn row => decide (row.revokedAt = none) && info.names txn row)
        fun row => { row with revokedAt := some when_, revokeReason := some reason }, .revoked)
  else (table, .none)

/-! ### How the rows are counted -/

/-- The purchases `summarize` takes for kept. -/
def live (table : AppPurchases) : List (PyStr × AppPurchase) :=
  table.select fun _ row => row.revokedAt = none

/-- `refunded`. -/
def refunded (table : AppPurchases) : Nat := table.rows.length - (live table).length

end GhostPour.Purchases
