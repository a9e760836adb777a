/-
Module: GhostPour.Billing.VerifyReceipt
Layer: Model
Purpose: `verify_receipt` of `app/routers/chat.py`: a client presents a purchase and the user's tier follows.
  Who the transaction is, on whose word, is the `TransactionIdentity` that
  `receipt_verification.resolve_identity` has settled; one-time unlocks leave the tables here alone.
  `app/services/receipt_verification.py`: on whose word a purchase happened. The cryptography of
  `verify_signed_transaction` is an input: the payload Apple signed for one of our bundles, or the text of the
  error. A field of a payload that is not a string is absent.
Trusted boundary: human-reviewed spec
Main exports: TransactionIdentity, Receipt, ReceiptAnswer, verifyReceipt, SignedTransaction, TransactionClaim,
  isPlausibleTransactionId, resolveIdentity
-/
import GhostPour.Billing.PlanMoves

namespace GhostPour.Billing

/-- What the server is willing to say about a purchase, and whether Apple signed it. -/
structure TransactionIdentity where
  originalTransactionId : Option PyStr
  transactionId : Option PyStr
  environment : Option PyStr
  productId : Option PyStr
  verified : Bool
  rejectReason : Option PyStr
  money : Money

/-- The fields of the request that decide something. -/
structure Receipt where
  productId : PyStr
  offerType : Option PyStr
  offerPrice : Option ℚ
  isTrial : Option Bool
  offerId : Option PyStr

/-- What the endpoint is configured with. -/
structure ReceiptSettings where
  tiers : TierConfig
  unlockProducts : List PyStr
  /-- The served dial that refuses receipts Apple did not sign. -/
  requireSigned : Bool

/-- The plan the endpoint reports. -/
structure ReceiptPlan where
  oldTier : PyStr
  newTier : PyStr
  isTrial : Bool
  moved : Bool
  keptExistingPlan : Bool
  monthlyLimitUsd : Option ℚ
  allocationResetsAt : Option DateTime
  trialEnd : Option DateTime

/-- What the endpoint answers. -/
inductive ReceiptAnswer where
  | noUser
  | unlock
  | signedTransactionRequired
  | unknownProduct (productId : PyStr)
  | receiptUnverified (reason : PyStr)
  | ok (plan : ReceiptPlan)

/-- Which product was bought: Apple's word overrides the client's. -/
def effectiveProductId (receipt : Receipt) (identity : TransactionIdentity) : PyStr :=
  if identity.verified then (truthy identity.productId).getD receipt.productId
  else receipt.productId

/-- Whether a purchase starts a trial: the client's flag, or an introductory offer at no price; an
offer code is not a trial. -/
def receiptIsTrial (receipt : Receipt) : Bool :=
  let claimed := receipt.isTrial.getD
    (receipt.offerType = some (py "introductory") ∧
      (receipt.offerPrice = none ∨ receipt.offerPrice = some 0))
  claimed && !((truthy receipt.offerId).isSome && receipt.offerType ≠ some (py "introductory"))

/-- `_resolve_storekit_environment`: the verified one, else the one of the user's latest event. -/
def resolveStorekitEnvironment (db : Db) (userId : PyStr) (verified : Option PyStr) :
    Option PyStr :=
  match verified with
  | some environment =>
      if environment ∈ [py "Production", py "Sandbox", py "Unverified"] then some environment
      else guess
  | none => guess
where
  guess : Option PyStr :=
    (latestIndex (fun e => e.userId = userId ∧ e.environment ≠ none) db.events).bind fun i =>
      (db.events[i]?).bind SubscriptionEvent.environment

/-- The limit of a trial of a tier. -/
def TierDefinition.trialLimit (tier : TierDefinition) : ℚ :=
  match tier.trialCostLimitUsd with
  | some limit => if limit = 0 then tier.monthlyCostLimitUsd else limit
  | none => tier.monthlyCostLimitUsd

/-! ### Statements on the user's row -/

/-- A trial starts. -/
def Account.startTrial (name : PyStr) (limit : ℚ) (now : DateTime) (otid : Option PyStr)
    (account : Account) : Account :=
  { account with
    tier := name
    monthlyCostLimitUsd := some limit
    monthlyUsedUsd := 0
    overageBalanceUsd := 0
    allocationResetsAt := some (now.addDays 7)
    simulatedTier := none
    simulatedExhausted := false
    isTrial := true
    trialStart := some now
    trialEnd := some (now.addDays 7)
    originalTransactionId := otid <|> account.originalTransactionId }

/-- A trial is verified again. -/
def Account.verifyTrial (limit : ℚ) (otid : Option PyStr) (account : Account) : Account :=
  { account with
    monthlyCostLimitUsd := some limit
    isTrial := true
    originalTransactionId := otid <|> account.originalTransactionId }

/-- A paid subscription starts, or a trial converts. -/
def Account.startPaid (name : PyStr) (limit : ℚ) (resetsAt : DateTime) (otid : Option PyStr)
    (account : Account) : Account :=
  { account with
    tier := name
    monthlyCostLimitUsd := some limit
    monthlyUsedUsd := 0
    overageBalanceUsd := 0
    searchesUsed := 0
    generationsUsed := 0
    allocationResetsAt := some resetsAt
    simulatedTier := none
    simulatedExhausted := false
    isTrial := false
    trialStart := none
    trialEnd := none
    originalTransactionId := otid <|> account.originalTransactionId }

/-- A paid subscription is verified again. -/
def Account.verifyPaid (limit : ℚ) (otid : Option PyStr) (account : Account) : Account :=
  { account with
    monthlyCostLimitUsd := some limit
    isTrial := false
    originalTransactionId := otid <|> account.originalTransactionId }

/-- `zero_memory_quota_on_tier_change`. -/
def Account.zeroMemoryQuota (now : DateTime) (account : Account) : Account :=
  { account with memoryUsedThisPeriod := 0, memoryPeriod := some now.month }

/-- Detach a transaction from every other account. -/
def detachTransaction (otid : Option PyStr) (userId : PyStr) (db : Db) : Db :=
  match truthy otid with
  | none => db
  | some named => db.onUsers fun users => users.updateWhere
      (fun other account => account.originalTransactionId = some named ∧ other ≠ userId)
      fun account => { account with originalTransactionId := none }

/-- `tier_rank`. -/
def tierRank (tier : PyStr) : Nat :=
  if tier = py "plus" then 1 else if tier = py "pro" then 2 else if tier = py "admin" then 3 else 0

/-! ### The endpoint -/

/-- A receipt that has been accepted: the tier it is for and whether it is a trial. -/
structure AcceptedReceipt where
  receipt : Receipt
  identity : TransactionIdentity
  productId : PyStr
  tierName : PyStr
  tier : TierDefinition
  isTrial : Bool
  environment : Option PyStr

/-- `is_state_change`: the tier changes, or a trial becomes a paid subscription. -/
def AcceptedReceipt.isStateChange (accepted : AcceptedReceipt) (user : Account) : Bool :=
  user.tier ≠ accepted.tierName || (user.isTrial && !accepted.isTrial)

/-- The event of a state change. -/
def AcceptedReceipt.event (accepted : AcceptedReceipt) (now : DateTime) (userId : PyStr)
    (user : Account) (eventType : PyStr) (subtype : Option PyStr) (priceUsd : Option ℚ) :
    SubscriptionEvent where
  userId := userId
  eventType := eventType
  notificationType := none
  subtype := subtype
  fromTier := some user.tier
  toTier := some accepted.tierName
  productId := some accepted.productId
  originalTransactionId := accepted.identity.originalTransactionId
  transactionId :=
    truthy accepted.identity.transactionId <|> accepted.identity.originalTransactionId
  expiresAt := none
  environment := accepted.environment
  source := py "verify_receipt"
  priceUsd := priceUsd
  effectiveAt := now
  recordedAt := now
  offerId := accepted.receipt.offerId
  money := accepted.identity.money

/-- The branch of a trial. -/
def applyTrial (accepted : AcceptedReceipt) (now : DateTime) (userId : PyStr) (user : Account)
    (db : Db) : Db :=
  let otid := accepted.identity.originalTransactionId
  if accepted.isStateChange user then
    let db := db.onUsers fun users =>
      users.update userId (Account.startTrial accepted.tierName accepted.tier.trialLimit now otid)
    let db := if user.tier = freeTier then
        db.onUsers fun users => users.update userId (Account.zeroMemoryQuota now)
      else db
    recordSubscriptionEvent
      (accepted.event now userId user (py "subscribed") (some (py "trial")) (some 0)) db
  else
    db.onUsers fun users => users.update userId (Account.verifyTrial accepted.tier.trialLimit otid)

/-- The type of the event of a paid state change. -/
def paidEventType (accepted : AcceptedReceipt) (user : Account) : PyStr :=
  if (user.isTrial && !accepted.isTrial) ∨ user.tier = freeTier then py "subscribed"
  else if tierRank user.tier ≤ tierRank accepted.tierName then py "upgraded"
  else py "downgraded"

/-- The branch of a paid subscription. -/
def applyPaid (accepted : AcceptedReceipt) (now : DateTime) (userId : PyStr) (user : Account)
    (db : Db) : Db :=
  let otid := accepted.identity.originalTransactionId
  let limit := accepted.tier.monthlyCostLimitUsd
  if accepted.isStateChange user then
    let subtype := if user.isTrial && !accepted.isTrial then some (py "conversion") else none
    recordSubscriptionEvent
      (accepted.event now userId user (paidEventType accepted user) subtype none)
      (db.onUsers fun users => users.update userId
        (Account.startPaid accepted.tierName limit (computeNextReset now none) otid))
  else
    db.onUsers fun users => users.update userId (Account.verifyPaid limit otid)

/-- What is decided before anything is written: the tier of the product, on whose word, and whether
the purchase is a trial. -/
def acceptReceipt (settings : ReceiptSettings) (userId : PyStr) (receipt : Receipt)
    (identity : TransactionIdentity) (db : Db) : Except ReceiptAnswer AcceptedReceipt :=
  let productId := effectiveProductId receipt identity
  if productId ∈ settings.unlockProducts ∨
      (identity.verified = false ∧ receipt.productId ∈ settings.unlockProducts) then
    if identity.verified ∧ (truthy identity.productId).isSome ∧
        ((truthy identity.transactionId).isSome ∨
          (truthy identity.originalTransactionId).isSome) then
      .error .unlock
    else .error .signedTransactionRequired
  else match truthy (tierOfProduct settings.tiers productId) with
    | none => .error (.unknownProduct productId)
    | some tierName =>
        match settings.tiers.get tierName with
        | none => .error (.unknownProduct productId)
        | some tier =>
            if settings.requireSigned ∧ (identity.verified = false ∨
                (truthy identity.originalTransactionId).isNone) then
              .error (.receiptUnverified
                ((truthy identity.rejectReason).getD (py "no_signed_transaction")))
            else .ok
              { receipt := receipt
                identity := identity
                productId := productId
                tierName := tierName
                tier := tier
                isTrial := receiptIsTrial receipt
                environment := resolveStorekitEnvironment db userId identity.environment }

/-- A transaction that a `plan_conflict` merge left behind. -/
def isPlanConflict (db : Db) (userId : PyStr) (identity : TransactionIdentity) : Bool :=
  match truthy identity.originalTransactionId with
  | none => false
  | some otid => db.planConflicts.contains (userId, otid)

/-- The writes of an accepted receipt, up to the move of a plan. -/
def applyReceipt (accepted : AcceptedReceipt) (now : DateTime) (userId : PyStr) (user : Account)
    (db : Db) : Db :=
  let db := detachTransaction accepted.identity.originalTransactionId userId db
  let db := if accepted.isTrial then applyTrial accepted now userId user db
    else applyPaid accepted now userId user db
  markEverSubscribed userId none db

/-- `verify_receipt`. -/
def verifyReceipt (settings : ReceiptSettings) (now : DateTime) (userId : PyStr) (receipt : Receipt)
    (identity : TransactionIdentity) (db : Db) : ReceiptAnswer × Db :=
  match db.users.get userId with
  | none => (.noUser, db)
  | some user =>
      match acceptReceipt settings userId receipt identity db with
      | .error answer => (answer, db)
      | .ok accepted =>
          if isPlanConflict db userId identity then
            (.ok
              { oldTier := user.tier
                newTier := user.tier
                isTrial := user.isTrial
                moved := false
                keptExistingPlan := true
                monthlyLimitUsd :=
                  some (((settings.tiers.get user.tier).map
                    TierDefinition.monthlyCostLimitUsd).getD (-1))
                allocationResetsAt := user.allocationResetsAt
                trialEnd := none }, db)
          else
            let heldBy := holders identity.originalTransactionId userId db
            let moved := movePlan settings.tiers heldBy userId identity.verified
              identity.originalTransactionId (applyReceipt accepted now userId user db)
            (.ok
              { oldTier := user.tier
                newTier := accepted.tierName
                isTrial := accepted.isTrial
                moved := moved.2
                keptExistingPlan := false
                monthlyLimitUsd := some (if accepted.isTrial then accepted.tier.trialLimit
                  else accepted.tier.monthlyCostLimitUsd)
                allocationResetsAt := (moved.1.users.get userId).bind Account.allocationResetsAt
                trialEnd := if accepted.isTrial then
                    (moved.1.users.get userId).bind Account.trialEnd
                  else none }, moved.1)

end GhostPour.Billing

namespace GhostPour.Billing

/-- The fields of a signed transaction that are read. -/
structure SignedPayload where
  originalTransactionId : Option PyStr
  transactionId : Option PyStr
  environment : Option PyStr
  productId : Option PyStr
  /-- `money_fields_from_apple` of the payload. -/
  money : Money

/-- What `verify_signed_transaction` makes of the request's `signed_transaction`, if it has one. -/
inductive SignedTransaction where
  | absent
  | rejected (error : PyStr)
  | verified (payload : SignedPayload)

/-- What the client sends to say which transaction it presents. -/
structure TransactionClaim where
  signed : SignedTransaction
  transactionId : Option PyStr
  currentTransactionId : Option PyStr

/-- `UNVERIFIED`, the environment of a transaction whose signature was rejected. -/
def unverifiedEnvironment : PyStr := py "Unverified"

/-- `is_plausible_transaction_id`: the decimal form of a positive integer. -/
def isPlausibleTransactionId : Option PyStr → Bool
  | none => false
  | some value =>
      let candidate := strip value
      candidate ≠ [] && candidate.all isAsciiDigit && natOfDigits candidate ≠ 0

/-- An id that is plausible, or none. -/
def plausibleId (value : Option PyStr) : Option PyStr :=
  if isPlausibleTransactionId value then value else none

/-- The empty string is no id. -/
theorem truthy_plausibleId (value : Option PyStr) : truthy (plausibleId value) = plausibleId value := by
  unfold plausibleId
  split
  · next digits =>
    cases value with
    | none => rfl
    | some id =>
        cases id with
        | nil => cases digits
        | cons c id => rfl
  · rfl

section
variable [PyRuntime]

/-- `repr` of an optional string. -/
def reprOf : Option PyStr → PyStr
  | none => py "None"
  | some value => PyRuntime.quote value

/-- `resolve_identity`: Apple's signature where there is one, else the client's word. -/
def resolveIdentity (productId : PyStr) (claim : TransactionClaim) : TransactionIdentity :=
  match claim.signed with
  | .rejected error =>
      { originalTransactionId := none
        transactionId := none
        environment := some unverifiedEnvironment
        productId := none
        verified := false
        rejectReason := some (py "signature_rejected: " ++ error)
        money := .unknown }
  | .verified payload =>
      { originalTransactionId := plausibleId payload.originalTransactionId
        transactionId := plausibleId payload.transactionId
        environment := payload.environment.filter (· ∈ [py "Production", py "Sandbox"])
        productId := payload.productId
        verified := true
        rejectReason :=
          if isPlausibleTransactionId payload.originalTransactionId then none
          else some (py "apple_signed_but_implausible_otid: " ++
            reprOf payload.originalTransactionId)
        money := payload.money }
  | .absent =>
      { originalTransactionId := plausibleId claim.transactionId
        transactionId := plausibleId (truthy claim.currentTransactionId <|> claim.transactionId)
        environment := none
        productId := some productId
        verified := false
        rejectReason :=
          if isPlausibleTransactionId claim.transactionId then none
          else some (py "implausible_transaction_id: " ++ reprOf claim.transactionId)
        money := .unknown }

/-- An identity never names the empty transaction. -/
theorem truthy_resolveIdentity (productId : PyStr) (claim : TransactionClaim) :
    truthy (resolveIdentity productId claim).originalTransactionId =
      (resolveIdentity productId claim).originalTransactionId := by
  unfold resolveIdentity
  split
  · rfl
  · exact truthy_plausibleId _
  · exact truthy_plausibleId _

end

end GhostPour.Billing
