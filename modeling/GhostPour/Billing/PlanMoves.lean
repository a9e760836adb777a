/-
Module: GhostPour.Billing.PlanMoves
Layer: Model
Purpose: `app/services/plan_moves.py`: a plan moves to the account that presents the signed transaction behind
  it, with the usage of its period. `app/services/anonymous_merge.py`: an anonymous purchase account is merged
  into an existing Apple account and closed. The user's content, tokens and one-time unlocks, which move too,
  are in other tables; an account is merged once, so the record of a merge is never replaced.
  `app/services/account_groups.py`: which accounts are one person. The links are the hops of plans and merges;
  the groups are what a union-find makes of them.
Trusted boundary: human-reviewed spec
Main exports: holders, movePlan, planMoves, planConflicts, mergeInto, groups, groupKey, Db.linkRows, MoveCall,
  runMoves
-/
import GhostPour.Billing.AppleWebhooks
import GhostPour.Library.PyValue
import GhostPour.Library.UnionFind

namespace GhostPour.Billing

/-- `holders`: every other account that stores the transaction. -/
def holders (otid : Option PyStr) (userId : PyStr) (db : Db) : List (PyStr × Account) :=
  match truthy otid with
  | none => []
  | some otid => db.users.select fun other account =>
      account.originalTransactionId = some otid ∧ other ≠ userId

/-- `max(paid, key=monthly_used_usd)`: the first of the largest. -/
def heaviest : PyStr × Account → List (PyStr × Account) → PyStr × Account
  | best, [] => best
  | best, holder :: rest =>
      heaviest (if best.2.monthlyUsedUsd < holder.2.monthlyUsedUsd then holder else best) rest

/-- The usage and the period end of an account, carried to another one. -/
def Account.carryUsage (source account : Account) : Account :=
  { account with
    monthlyUsedUsd := source.monthlyUsedUsd
    searchesUsed := source.searchesUsed
    generationsUsed := source.generationsUsed
    allocationResetsAt := source.allocationResetsAt <|> account.allocationResetsAt }

/-- `account_groups.link`: two accounts are one person; a link is recorded once. -/
def link (fromUserId toUserId reason : PyStr) (otid : Option PyStr) (db : Db) : Db :=
  if fromUserId = [] ∨ toUserId = [] ∨ fromUserId = toUserId ∨
      db.links.any (fun l => l.fromUserId = fromUserId ∧ l.toUserId = toUserId) then db
  else { db with links := db.links ++ [⟨fromUserId, toUserId, reason, otid⟩] }

/-- The index of the latest event of a list that meets a condition. -/
def latestIndex (p : SubscriptionEvent → Bool) (events : List SubscriptionEvent) : Option Nat :=
  (events.zipIdx.filter fun e => p e.1).foldl (fun best e =>
    match best with
    | none => some e
    | some b => if b.1.recordedAt.instant < e.1.recordedAt.instant then some e else some b) none
  |>.map Prod.snd

/-- The records of a purchase follow its plan: the status row and the holders' events name the new
account, and the purchase it has just recorded is a move if it had been recorded before. -/
def moveRecords (otid : PyStr) (heldBy : List PyStr) (toUserId : PyStr) (db : Db) : Db :=
  let mine (e : SubscriptionEvent) : Bool :=
    e.originalTransactionId = some otid ∧ e.userId ∈ heldBy
  let already := db.events.any fun e => mine e ∧ e.eventType = py "subscribed"
  let moved := db.events.map fun e => if mine e then { e with userId := toUserId } else e
  let events :=
    if already then
      match latestIndex (fun e => e.userId = toUserId ∧ e.originalTransactionId = some otid ∧
          e.source = py "verify_receipt" ∧ e.eventType = py "subscribed") moved with
      | none => moved
      | some i => moved.modify i fun e =>
          { e with eventType := py "reconciled", subtype := some (py "moved") }
    else moved
  { db with
    status := db.status.update otid fun row => { row with userId := some toUserId }
    events := events }

/-- `move_plan`, and whether a plan moved. -/
def movePlan (tiers : TierConfig) (heldBy : List (PyStr × Account)) (toUserId : PyStr)
    (verified : Bool) (otid : Option PyStr) (db : Db) : Db × Bool :=
  match verified, heldBy.filter fun holder => isPaidTier holder.2.tier with
  | true, first :: rest =>
      let source := heaviest first rest
      let db := db.onUsers fun users => users.update toUserId (Account.carryUsage source.2)
      let db := (first :: rest).foldl (fun db holder =>
        link holder.1 toUserId (py "restore") otid (downgradeToFree tiers holder.1 db)) db
      match truthy otid with
      | none => (db, true)
      | some named => (moveRecords named (heldBy.map Prod.fst) toUserId db, true)
  | _, _ => (db, false)

/-- Without a paid holder, or without Apple's signature, nothing moves. -/
theorem movePlan_none {tiers : TierConfig} {heldBy : List (PyStr × Account)} {toUserId : PyStr}
    {verified : Bool} {otid : Option PyStr} {db : Db}
    (stays : (movePlan tiers heldBy toUserId verified otid db).2 = false) :
    (movePlan tiers heldBy toUserId verified otid db).1 = db := by
  unfold movePlan at stays ⊢
  split at stays
  · simp only at stays
    split at stays <;> cases stays
  · rfl

end GhostPour.Billing

namespace GhostPour.Billing

/-- `plan_moved`: the anonymous account has a plan and the Apple account has none. -/
def planMoves (anon apple : Account) : Bool := isPaidTier anon.tier && !isPaidTier apple.tier

/-- `plan_conflict`: both have a plan. -/
def planConflicts (anon apple : Account) : Bool := isPaidTier anon.tier && isPaidTier apple.tier

/-- The columns of `_PLAN_COLUMNS` are copied from the anonymous account. -/
def Account.takePlan (anon account : Account) : Account :=
  { account with
    tier := anon.tier
    monthlyCostLimitUsd := anon.monthlyCostLimitUsd
    monthlyUsedUsd := anon.monthlyUsedUsd
    overageBalanceUsd := anon.overageBalanceUsd
    searchesUsed := anon.searchesUsed
    generationsUsed := anon.generationsUsed
    allocationResetsAt := anon.allocationResetsAt
    isTrial := anon.isTrial
    trialStart := anon.trialStart
    trialEnd := anon.trialEnd
    originalTransactionId := anon.originalTransactionId
    simulatedTier := none
    simulatedExhausted := false
    everSubscribed := true }

/-- The anonymous account is left without its plan. -/
def Account.givePlan (account : Account) : Account :=
  { account with tier := freeTier, originalTransactionId := none }

/-- The records of a plan that moves: `PLAN_TABLES`. -/
def movePlanTables (anonId appleId : PyStr) (db : Db) : Db :=
  { db with
    events := db.events.map fun e => if e.userId = anonId then { e with userId := appleId } else e
    status := db.status.updateWhere (fun _ row => row.userId = some anonId)
      fun row => { row with userId := some appleId } }

/-- The row of `anonymous_merges`, of which only a conflict with a transaction is read again. -/
def recordMerge (conflict : Bool) (appleId : PyStr) (otid : Option PyStr) (db : Db) : Db :=
  match conflict, otid with
  | true, some named => { db with planConflicts := db.planConflicts ++ [(appleId, named)] }
  | _, _ => db

/-- `merge_into`, on the rows the sign-in has read. -/
def mergeRows (anonId appleId : PyStr) (anon apple : Account) (db : Db) : Db :=
  let db :=
    if planMoves anon apple then
      movePlanTables anonId appleId
        (db.onUsers fun users =>
          (users.update appleId (Account.takePlan anon)).update anonId Account.givePlan)
    else db
  recordMerge (planConflicts anon apple) appleId anon.originalTransactionId
    (link anonId appleId (py "merge") anon.originalTransactionId db)

/-- `merge_into` when the sign-in finds both accounts. -/
def mergeInto (anonId appleId : PyStr) (db : Db) : Db :=
  match db.users.get anonId, db.users.get appleId with
  | some anon, some apple => mergeRows anonId appleId anon apple db
  | _, _ => db

end GhostPour.Billing

namespace GhostPour.Billing

/-- `groups`, on the rows of `account_links` in the order they are read. -/
def groups (rows : List (PyStr × PyStr)) : Py (Assoc PyStr) := do
  let parent ← UnionFind.unionAll rows
  UnionFind.findAll (parent.rows.map Prod.fst) parent

/-- `groups.get(user_id, user_id)`: an account without a link is its own group. -/
def groupKey (g : Assoc PyStr) (userId : PyStr) : PyStr := (g.get userId).getD userId

/-- The rows `groups` reads. A link is stamped when it is recorded, so `ORDER BY linked_at` is the
order in which the links came. -/
def Db.linkRows (db : Db) : List (PyStr × PyStr) :=
  db.links.map fun l => (l.fromUserId, l.toUserId)

/-- The arguments of a call of `move_plan`. -/
structure MoveCall where
  heldBy : List (PyStr × Account)
  toUserId : PyStr
  verified : Bool
  otid : Option PyStr

/-- The calls of `move_plan`, one after the other. -/
def runMoves (tiers : TierConfig) (calls : List MoveCall) (db : Db) : Db :=
  calls.foldl (fun db call =>
    (movePlan tiers call.heldBy call.toUserId call.verified call.otid db).1) db

/-- The moves of a plan a call makes: from each other account that holds it paid. -/
def MoveCall.hops (call : MoveCall) : List (PyStr × PyStr) :=
  if call.verified then
    ((call.heldBy.filter fun holder => isPaidTier holder.2.tier).map
      fun holder => (holder.1, call.toUserId)).filter fun hop =>
        hop.1 ≠ [] ∧ hop.2 ≠ [] ∧ hop.1 ≠ hop.2
  else []

end GhostPour.Billing
