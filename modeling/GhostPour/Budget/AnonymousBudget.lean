/-
Module: GhostPour.Budget.AnonymousBudget
Layer: Model
Purpose: `check` of `app/services/anonymous_budget.py`: whether a call of an anonymous account must
  be refused, and what it says about the allowance.
Trusted boundary: human-reviewed spec
Main exports: AnonymousCaps, BudgetInfo, check, lifetimeSpent, dailySpent
-/
import GhostPour.Budget.UsageLog

namespace GhostPour.Budget

/-- `CODE_APPLICATION`, `CODE_INSTALL` and `CODE_DAILY`. -/
def codeApplication : PyStr := py "n400_application_allowance_used"
def codeInstall : PyStr := py "n400_install_allowance_used"
def codeDaily : PyStr := py "n400_daily_capacity_reached"

/-- `CARRY_APPS`. -/
def carryApps : List PyStr := [py "n400", py "i765"]

/-- What `caps` reads from the served budget document. -/
structure AnonymousCaps where
  perApplication : Option ℚ
  perInstall : ℚ
  daily : Option ℚ
  perIp : Option ℚ
  perIpWindowDays : Nat

/-- `caps_.get("per_ip_window_days") or 30`. -/
def AnonymousCaps.windowDays (caps : AnonymousCaps) : Nat :=
  if caps.perIpWindowDays = 0 then 30 else caps.perIpWindowDays

/-- The `info` of `check`. -/
structure BudgetInfo where
  appId : PyStr
  caseId : Option PyStr
  estimate : Option ℚ
  carried : Option ℚ
  perApplication : Option ℚ
  applicationSpent : Option ℚ
  perInstall : ℚ
  daily : Option ℚ
  dailySpent : Option ℚ
  spent : Option ℚ
  ipSpentByOthers : Option ℚ
  perIp : Option ℚ
  reason : Option PyStr

/-- `APPLICATION_SPEND_SQL`. -/
def applicationSpent (userId app : PyStr) (case : Option PyStr) (db : BudgetDb) : ℚ :=
  sumWhere (fun row => row.isOf userId app && decide (row.caseId = case)) UsageRow.cost db.usageLog

/-- `CARRIED_SQL`. -/
def carriedSpent (userId app : PyStr) (db : BudgetDb) : ℚ :=
  match db.users.get userId with
  | none => 0
  | some user => ((db.spendCarry.get (user.appleSub, app)).map Carry.lifetimeUsd).getD 0

/-- The lifetime spend `check` holds against `per_install`. -/
def lifetimeSpent (userId app : PyStr) (db : BudgetDb) : ℚ :=
  spentOn userId app db.usageLog + carriedSpent userId app db

/-- The row is of an anonymous account. -/
def UsageRow.ofAnonymous (users : Table PyStr BudgetUser) (row : UsageRow) : Bool :=
  ((users.get row.userId).map fun user => isAnonymous user.appleSub).getD false

/-- The carry row is of this app and this date. -/
def carriedOn (app : PyStr) (day : Nat) (r : (PyStr × PyStr) × Carry) : Bool :=
  r.1.2 = app ∧ r.2.day = some day

/-- `CARRIED_TODAY_SQL`. -/
def carriedToday (app : PyStr) (day : Nat) (carry : SpendCarry) : ℚ :=
  sumWhere (carriedOn app day) (fun r => r.2.dayUsd) carry.rows

/-- `DAILY_SPEND_SQL` and `CARRIED_TODAY_SQL`: what `check` holds against `daily`. -/
def dailySpent (now : Instant) (app : PyStr) (db : BudgetDb) : ℚ :=
  sumWhere (fun row => decide (row.appId = some app) &&
      decide (now.dayStart ≤ row.requestTimestamp) && row.ofAnonymous db.users)
    UsageRow.cost db.usageLog + carriedToday app now.day db.spendCarry

/-- `IP_OTHERS_SPEND_SQL`. -/
def ipOthersSpent (userId app ipKey : PyStr) (since : Instant) (db : BudgetDb) : ℚ :=
  sumWhere (fun row => decide (row.appId = some app) && decide (row.ipHash = some ipKey) &&
      decide (since ≤ row.requestTimestamp) && decide (row.userId ≠ userId) &&
      !((db.users.get row.userId).map BudgetUser.excludeFromStats).getD false)
    UsageRow.cost db.usageLog

/-- A cap is reached, or the estimate crosses it. -/
def crosses (spent est cap : ℚ) : Bool := cap ≤ spent ∨ cap < spent + est

/-- The daily ceiling, the last of the checks. -/
def checkDaily (now : Instant) (app : PyStr) (est : ℚ) (info : BudgetInfo) (db : BudgetDb) :
    Option PyStr × BudgetInfo :=
  match info.daily with
  | none => (none, info)
  | some daily =>
      let day := dailySpent now app db
      (if crosses day est daily then some codeDaily else none, { info with dailySpent := some day })

/-- The spend of other accounts on the caller's network, then the daily ceiling. -/
def checkIp (now : Instant) (userId app : PyStr) (est : ℚ) (caps : AnonymousCaps)
    (ipKey : Option PyStr) (info : BudgetInfo) (db : BudgetDb) : Option PyStr × BudgetInfo :=
  match caps.perIp, ipKey with
  | some perIp, some (c :: key) =>
      let since := now - caps.windowDays * microsPerDay
      let others := ipOthersSpent userId app (c :: key) since db
      let info := { info with ipSpentByOthers := some others, perIp := some perIp }
      if perIp ≤ others then (some codeInstall, { info with reason := some (py "ip") })
      else checkDaily now app est info db
  | _, _ => checkDaily now app est info db

/-- The lifetime cap of the install, then the network and the day. -/
def checkInstall (now : Instant) (userId app : PyStr) (est : ℚ) (caps : AnonymousCaps)
    (ipKey : Option PyStr) (info : BudgetInfo) (db : BudgetDb) : Option PyStr × BudgetInfo :=
  let spent := lifetimeSpent userId app db
  let info := { info with carried := some (carriedSpent userId app db), spent := some spent }
  if crosses spent est caps.perInstall then (some codeInstall, info)
  else checkIp now userId app est caps ipKey info db

/-- `check`: the application first, then the install, the network and the day. -/
def check (now : Instant) (userId app : PyStr) (estimate : Option ℚ) (caps : AnonymousCaps)
    (case ipKey : Option PyStr) (db : BudgetDb) : Option PyStr × BudgetInfo :=
  let est := estimate.getD 0
  let info : BudgetInfo :=
    ⟨app, case, estimate, none, caps.perApplication, none, caps.perInstall, caps.daily, none, none,
      none, none, none⟩
  match caps.perApplication with
  | none => checkInstall now userId app est caps ipKey info db
  | some perApplication =>
      let spent := applicationSpent userId app case db
      let info := { info with applicationSpent := some spent }
      if crosses spent est perApplication then (some codeApplication, { info with spent := some spent })
      else checkInstall now userId app est caps ipKey info db

/-! ### What the figures of a check are -/

section
variable (now : Instant) (userId app : PyStr) (est : ℚ) (caps : AnonymousCaps)
  (ipKey : Option PyStr) (info : BudgetInfo) (db : BudgetDb)

theorem checkDaily_info :
    (checkDaily now app est info db).2.spent = info.spent ∧
      ((checkDaily now app est info db).2.dailySpent = info.dailySpent ∨
        (checkDaily now app est info db).2.dailySpent = some (dailySpent now app db)) := by
  unfold checkDaily
  split
  · exact ⟨rfl, .inl rfl⟩
  · exact ⟨rfl, .inr rfl⟩

theorem checkIp_info :
    (checkIp now userId app est caps ipKey info db).2.spent = info.spent ∧
      ((checkIp now userId app est caps ipKey info db).2.dailySpent = info.dailySpent ∨
        (checkIp now userId app est caps ipKey info db).2.dailySpent =
          some (dailySpent now app db)) := by
  unfold checkIp
  split
  · simp only
    split
    · exact ⟨rfl, .inl rfl⟩
    · exact checkDaily_info now app est _ db
  · exact checkDaily_info now app est info db

theorem checkInstall_info (unset : info.dailySpent = none) :
    (checkInstall now userId app est caps ipKey info db).2.spent =
        some (lifetimeSpent userId app db) ∧
      ∀ day, (checkInstall now userId app est caps ipKey info db).2.dailySpent = some day →
        day = dailySpent now app db := by
  unfold checkInstall
  simp only
  split
  · refine ⟨rfl, fun day shown => ?_⟩
    rw [unset] at shown
    cases shown
  · obtain ⟨spent, daily⟩ := checkIp_info now userId app est caps ipKey
      { info with carried := some (carriedSpent userId app db)
                  spent := some (lifetimeSpent userId app db) } db
    refine ⟨spent, fun day shown => ?_⟩
    rcases daily with none | some
    · rw [none, unset] at shown
      cases shown
    · rw [some] at shown
      exact (Option.some.inj shown).symm

end

/-- The spend a check reports is the lifetime spend unless the application was refused, and its
daily figure, where there is one, is that of the day. -/
theorem check_info (now : Instant) (userId app : PyStr) (estimate : Option ℚ) (caps : AnonymousCaps)
    (case ipKey : Option PyStr) (db : BudgetDb) :
    let result := check now userId app estimate caps case ipKey db
    (result.1 ≠ some codeApplication → result.2.spent = some (lifetimeSpent userId app db)) ∧
      ∀ day, result.2.dailySpent = some day → day = dailySpent now app db := by
  intro result
  show (_ → (check now userId app estimate caps case ipKey db).2.spent = _) ∧ _
  unfold result check
  simp only
  split
  · obtain ⟨spent, daily⟩ := checkInstall_info now userId app (estimate.getD 0) caps ipKey
      ⟨app, case, estimate, none, caps.perApplication, none, caps.perInstall, caps.daily, none, none,
        none, none, none⟩ db rfl
    exact ⟨fun _ => spent, daily⟩
  · split
    · refine ⟨fun passed => absurd rfl passed, fun day shown => ?_⟩
      cases shown
    · obtain ⟨spent, daily⟩ := checkInstall_info now userId app (estimate.getD 0) caps ipKey
        ⟨app, case, estimate, none, caps.perApplication,
          some (applicationSpent userId app case db), caps.perInstall, caps.daily, none, none, none,
          none, none⟩ db rfl
      exact ⟨fun _ => spent, daily⟩

end GhostPour.Budget
