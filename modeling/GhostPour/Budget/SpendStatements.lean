/-
Module: GhostPour.Budget.SpendStatements
Layer: Model
Purpose: What writes and deletes `usage_log` rows: `log_usage`, `carry_spend_before_delete` inside
  `delete_user_data`, and `expire_old_usage_rows`, with the sign-up of anonymous accounts. A request
  has its own connection, whose reads see what is committed; from its first write to its commit no
  other connection writes, so that stretch is one action.
Trusted boundary: human-reviewed spec
Main exports: Credit, DeleteCall, ExpireCall, SpendState, SpendAction, spendMachine
-/
import GhostPour.Budget.AnonymousBudget
import GhostPour.Library.Machine

namespace GhostPour.Budget

/-! ### The carry -/

/-- What a deletion adds to the carry row of an app. -/
structure Credit where
  appId : PyStr
  total : ℚ
  today : ℚ
deriving DecidableEq

/-- The sums of `carry_spend_before_delete` for one app. -/
def Credit.of (userId : PyStr) (day : Nat) (usage : List UsageRow) (app : PyStr) : Credit where
  appId := app
  total := spentOn userId app usage
  today := spentSince (day * microsPerDay) userId app usage

/-- The conflict clause of a deletion's carry. -/
def Carry.add (day : Nat) (credit : Credit) (carry : Carry) : Carry where
  lifetimeUsd := carry.lifetimeUsd + credit.total
  day := some day
  dayUsd := if carry.day = some day then carry.dayUsd + credit.today else credit.today

/-- The carry of one app: nothing for an account that spent nothing there. -/
def Credit.store (sub : PyStr) (day : Nat) (carry : SpendCarry) (credit : Credit) : SpendCarry :=
  if credit.total ≤ 0 then carry
  else carry.upsert (sub, credit.appId) ⟨credit.total, some day, credit.today⟩ (Carry.add day credit)

/-- The carry of an expiring batch, which is never of today. -/
def storeExpired (sub app : PyStr) (spent : ℚ) (carry : SpendCarry) : SpendCarry :=
  carry.upsert (sub, app) ⟨spent, none, 0⟩ fun c => { c with lifetimeUsd := c.lifetimeUsd + spent }

/-! ### Deleting -/

/-- The rows a deletion purges: of one app, or all of the account. -/
def UsageRow.inScope (userId : PyStr) (scope : Option PyStr) (row : UsageRow) : Bool :=
  row.userId = userId ∧ (scope = none ∨ row.appId = scope)

/-- The memberships a deletion in a scope leaves at first. -/
def leaveApp (userId : PyStr) (scope : Option PyStr) (userApps : List (PyStr × PyStr)) :
    List (PyStr × PyStr) :=
  userApps.filter fun r => !(r.1 = userId && (some r.2 = scope))

/-- `account_removed`: no app was named, or none survives. -/
def accountRemoved (userId : PyStr) (scope : Option PyStr) (db : BudgetDb) : Bool :=
  scope = none ∨ ∀ r ∈ leaveApp userId scope db.userApps, r.1 ≠ userId

/-- What `delete_user_data` purges of these tables. -/
def BudgetDb.purge (userId : PyStr) (scope : Option PyStr) (db : BudgetDb) : BudgetDb where
  users := if accountRemoved userId scope db then db.users.delete userId else db.users
  userApps :=
    if accountRemoved userId scope db then db.userApps.filter fun r => r.1 ≠ userId
    else leaveApp userId scope db.userApps
  usageLog := db.usageLog.filter fun row => !row.inScope userId scope
  spendCarry := db.spendCarry

/-- A deletion under way: whom, in which app, the account's `apple_sub` if it is anonymous, and the
day that is today for it. -/
structure DeleteRequest where
  userId : PyStr
  scope : Option PyStr
  sub : Option PyStr
  day : Nat

/-- Where a call of `delete_user_data` stands. -/
inductive DeleteCall where
  | idle
  /-- The apps it has still to sum. -/
  | reading (request : DeleteRequest) (apps : List PyStr)
  /-- Between the two sums of an app. -/
  | summing (request : DeleteRequest) (app : PyStr) (total : ℚ) (apps : List PyStr)
  /-- Before its first write: the carry of an app. -/
  | writing (request : DeleteRequest) (credit : Credit) (apps : List PyStr)

/-- The apps whose spend a deletion in a scope carries. -/
def appsInScope (scope : Option PyStr) : List PyStr :=
  carryApps.filter fun app => scope = none ∨ scope = some app

/-- What a call that is about to write carries. The sums of the apps after the first are read within
its transaction. -/
def DeleteCall.credits (usage : List UsageRow) : DeleteCall → List Credit
  | .writing request credit apps => credit :: apps.map (Credit.of request.userId request.day usage)
  | _ => []

/-- `carry_spend_before_delete`: an account that is not anonymous carries nothing. -/
def DeleteRequest.store (request : DeleteRequest) (credits : List Credit) (carry : SpendCarry) :
    SpendCarry :=
  match request.sub with
  | none => carry
  | some sub => credits.foldl (Credit.store sub request.day) carry

/-- The transaction of a deletion. -/
def BudgetDb.deleteWith (request : DeleteRequest) (credits : List Credit) (db : BudgetDb) :
    BudgetDb :=
  { db with spendCarry := request.store credits db.spendCarry }.purge request.userId request.scope

/-- The `apple_sub` of an account, if it is anonymous. -/
def anonymousSub (userId : PyStr) (db : BudgetDb) : Option PyStr :=
  ((db.users.get userId).map BudgetUser.appleSub).filter isAnonymous

/-! ### Expiring -/

/-- `USAGE_LOG_RETENTION_DAYS`, `USAGE_LOG_EXPIRING_APPS` and `KEEP_USAGE_ROWS_FOR`. -/
def usageLogRetentionDays : Nat := 90
def usageLogExpiringApps : List PyStr := [py "n400", py "i765"]
def keepUsageRowsFor : List PyStr := [py "fa4d903c-24c0-45d5-9fdb-b5496e32501b"]

/-- The cutoff of a pass that starts now. -/
def expiryCutoff (now : Instant) : Instant :=
  now.wholeSeconds - usageLogRetentionDays * microsPerDay

/-- The row is of this pair and before the cutoff. -/
def UsageRow.expires (cutoff : Instant) (userId app : PyStr) (row : UsageRow) : Bool :=
  row.isOf userId app && decide (row.requestTimestamp < cutoff)

/-- Where a pass of `expire_old_usage_rows` stands. -/
inductive ExpireCall where
  | idle
  /-- The pairs of the batch it has still to expire. -/
  | pairs (cutoff : Instant) (batch : List (PyStr × PyStr))
  | summed (cutoff : Instant) (userId app : PyStr) (spent : ℚ) (batch : List (PyStr × PyStr))
  | named (cutoff : Instant) (userId app : PyStr) (spent : ℚ) (sub : Option PyStr)
      (batch : List (PyStr × PyStr))

/-- A pair the batch select can return. -/
def canExpire (cutoff : Instant) (usage : List UsageRow) (pair : PyStr × PyStr) : Bool :=
  pair.2 ∈ usageLogExpiringApps ∧ pair.1 ∉ keepUsageRowsFor ∧
    ∃ row ∈ usage, row.expires cutoff pair.1 pair.2 = true

/-- The transaction of one pair. -/
def BudgetDb.expireWith (cutoff : Instant) (userId app : PyStr) (spent : ℚ) (sub : Option PyStr)
    (db : BudgetDb) : BudgetDb where
  users := db.users
  userApps := db.userApps
  usageLog := db.usageLog.filter fun row => !row.expires cutoff userId app
  spendCarry :=
    match sub with
    | none => db.spendCarry
    | some sub =>
        if 0 < spent ∧ app ∈ carryApps then storeExpired sub app spent db.spendCarry
        else db.spendCarry

/-! ### The calls beside each other -/

/-- The tables and the calls under way; and, for the account of what was spent, the `apple_sub` each
account was created with and every row that was ever logged. -/
structure SpendState where
  now : Instant
  db : BudgetDb
  deletes : Nat → DeleteCall
  expires : Nat → ExpireCall
  created : PyStr → Option PyStr
  logged : List UsageRow

/-- Empty tables. -/
def SpendState.empty : SpendState :=
  ⟨0, ⟨⟨[], List.nodup_nil⟩, [], [], ⟨[], List.nodup_nil⟩⟩, fun _ => .idle, fun _ => .idle,
    fun _ => none, []⟩

/-- A statement, or the transaction of a call. -/
inductive SpendAction where
  | tick (now : Instant)
  | signUp (userId sub : PyStr) (excludeFromStats : Bool)
  | join (userId app : PyStr)
  | log (userId : PyStr) (app : Option PyStr) (cost : Option ℚ) (case ipHash : Option PyStr)
  | deleteStart (call : Nat) (userId : PyStr) (scope : Option PyStr) (apps : List PyStr)
  | deleteTotal (call : Nat)
  | deleteToday (call : Nat)
  | deleteWrite (call : Nat)
  | expireStart (call : Nat)
  | expireSelect (call : Nat) (batch : List (PyStr × PyStr))
  | expireSum (call : Nat)
  | expireName (call : Nat)
  | expireWrite (call : Nat)

namespace SpendState
variable (s : SpendState)

/-- The calls after a deletion has moved on. -/
def setDelete (call : Nat) (state : DeleteCall) : SpendState :=
  { s with deletes := Function.update s.deletes call state }

/-- The calls after an expiry has moved on. -/
def setExpire (call : Nat) (state : ExpireCall) : SpendState :=
  { s with expires := Function.update s.expires call state }

/-- The insert of an anonymous or an Apple account: a fresh id, and `apple_sub` is unique. -/
def signUp (userId sub : PyStr) (excludeFromStats : Bool) : Option SpendState :=
  if s.created userId = none ∧ ∀ r ∈ s.db.users.rows, r.2.appleSub ≠ sub then
    let user : BudgetUser := ⟨sub, excludeFromStats⟩
    some { s with
      db := { s.db with users := s.db.users.upsert userId user fun _ => user }
      created := Function.update s.created userId (some sub) }
  else none

/-- The insert of `log_usage`, for an account that was authenticated once. -/
def log (userId : PyStr) (app : Option PyStr) (cost : Option ℚ) (case ipHash : Option PyStr) :
    Option SpendState :=
  if s.created userId = none then none
  else
    let row : UsageRow := ⟨userId, app, cost, s.now, case, ipHash⟩
    some { s with
      db := { s.db with usageLog := s.db.usageLog ++ [row] }
      logged := s.logged ++ [row] }

/-- The start of `delete_user_data`; `CARRY_APPS` is a set, so its order is any. -/
def deleteStart (call : Nat) (userId : PyStr) (scope : Option PyStr) (apps : List PyStr) :
    Option SpendState :=
  match s.deletes call with
  | .idle =>
      if s.created userId ≠ none ∧ apps.Perm (appsInScope scope) then
        let sub := anonymousSub userId s.db
        some (s.setDelete call
          (.reading ⟨userId, scope, sub, s.now.day⟩ (if sub = none then [] else apps)))
      else none
  | _ => none

/-- The lifetime sum of the next app. -/
def deleteTotal (call : Nat) : Option SpendState :=
  match s.deletes call with
  | .reading request (app :: apps) =>
      some (s.setDelete call (.summing request app (spentOn request.userId app s.db.usageLog) apps))
  | _ => none

/-- The sum of the day; an app nothing was spent in is passed over. -/
def deleteToday (call : Nat) : Option SpendState :=
  match s.deletes call with
  | .summing request app total apps =>
      let today := spentSince (request.day * microsPerDay) request.userId app s.db.usageLog
      some (s.setDelete call
        (if total ≤ 0 then .reading request apps else .writing request ⟨app, total, today⟩ apps))
  | _ => none

/-- The writes of a deletion. -/
def deleteWrite (call : Nat) : Option SpendState :=
  match s.deletes call with
  | .reading request [] => some ({ s with db := s.db.deleteWith request [] }.setDelete call .idle)
  | .writing request credit apps =>
      let credits := (DeleteCall.writing request credit apps).credits s.db.usageLog
      some ({ s with db := s.db.deleteWith request credits }.setDelete call .idle)
  | _ => none

/-- The cutoff of a pass. -/
def expireStart (call : Nat) : Option SpendState :=
  match s.expires call with
  | .idle => some (s.setExpire call (.pairs (expiryCutoff s.now) []))
  | _ => none

/-- The select of a batch: up to fifty pairs, and the pass ends when there is none. -/
def expireSelect (call : Nat) (batch : List (PyStr × PyStr)) : Option SpendState :=
  match s.expires call with
  | .pairs cutoff [] =>
      if batch.length ≤ 50 ∧ batch.Nodup ∧ ∀ pair ∈ batch, canExpire cutoff s.db.usageLog pair then
        some (s.setExpire call (if batch = [] then .idle else .pairs cutoff batch))
      else none
  | _ => none

/-- The sum of the next pair. -/
def expireSum (call : Nat) : Option SpendState :=
  match s.expires call with
  | .pairs cutoff ((userId, app) :: batch) =>
      let spent := sumWhere (UsageRow.expires cutoff userId app) UsageRow.cost s.db.usageLog
      some (s.setExpire call (.summed cutoff userId app spent batch))
  | _ => none

/-- The account of the pair. -/
def expireName (call : Nat) : Option SpendState :=
  match s.expires call with
  | .summed cutoff userId app spent batch =>
      some (s.setExpire call (.named cutoff userId app spent (anonymousSub userId s.db) batch))
  | _ => none

/-- The writes of the pair. -/
def expireWrite (call : Nat) : Option SpendState :=
  match s.expires call with
  | .named cutoff userId app spent sub batch =>
      some ({ s with db := s.db.expireWith cutoff userId app spent sub }.setExpire call
        (.pairs cutoff batch))
  | _ => none

end SpendState

/-- The statements of any number of calls; the clock does not run backwards. -/
def spendMachine : Machine SpendState SpendAction where
  step
    | .tick now, s => if s.now ≤ now then some { s with now := now } else none
    | .signUp userId sub exclude, s => s.signUp userId sub exclude
    | .join userId app, s =>
        some { s with db := { s.db with userApps := s.db.userApps.insert (userId, app) } }
    | .log userId app cost case ipHash, s => s.log userId app cost case ipHash
    | .deleteStart call userId scope apps, s => s.deleteStart call userId scope apps
    | .deleteTotal call, s => s.deleteTotal call
    | .deleteToday call, s => s.deleteToday call
    | .deleteWrite call, s => s.deleteWrite call
    | .expireStart call, s => s.expireStart call
    | .expireSelect call batch, s => s.expireSelect call batch
    | .expireSum call, s => s.expireSum call
    | .expireName call, s => s.expireName call
    | .expireWrite call, s => s.expireWrite call

end GhostPour.Budget
