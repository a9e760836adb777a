/-
Module: GhostPour.Alerting.Incidents
Layer: Model
Purpose: The statements of `app/services/alerting.py` on the incidents and the recipients. A recipient's
  filter is what its JSON text says, `none` when there is none or it cannot be read; the ids of recipients,
  their names and the texts of the emails are left out. `report_incident`, `resolve_incident` and
  `list_incidents` as the statements they run, for any number of calls beside each other. Each request and
  each background task has a connection of its own and runs one call on it after the other. The sweep is the
  first statement of a report and writes, so it opens the transaction that lasts until the commit; a sweep
  that is locked out is logged and swallowed, any other statement that is locked out raises.
Trusted boundary: human-reviewed spec
Main exports: Incident, Recipient, AlertDb, IncidentReport, sweepStale, findOpen, bump, openIncident,
  activeRecipientsFor, noteEmailed, resolveOpen, ReportPhase, OtherStatement, Alerts, AlertAction,
  alertMachine
-/
import GhostPour.Library.Calendar
import GhostPour.Library.Machine
import GhostPour.Library.PyText
import GhostPour.Library.Table
import GhostPour.Library.Transactions

namespace GhostPour.Alerting

/-- `INCIDENT_AUTO_RESOLVE_MINUTES`, in microseconds. -/
def autoResolve : Nat := 30 * 60 * microsPerSecond

/-- An `alert_incidents` row without its primary key. -/
structure Incident where
  category : PyStr
  subject : PyStr
  fingerprint : PyStr
  firstSeenAt : Instant
  lastSeenAt : Instant
  triggerCount : Nat
  details : PyStr
  emailSentAt : Option Instant
  emailedRecipients : List PyStr
  resolvedAt : Option Instant
deriving DecidableEq

/-- An `alert_recipients` row, under its address, which is unique. -/
structure Recipient where
  active : Bool
  categories : Option (List PyStr)
deriving DecidableEq

/-- The tables. -/
structure AlertDb where
  incidents : Table PyStr Incident
  recipients : Table PyStr Recipient

/-- A change of the incidents. -/
def AlertDb.onIncidents (db : AlertDb) (f : Table PyStr Incident → Table PyStr Incident) : AlertDb :=
  { db with incidents := f db.incidents }

@[simp] theorem AlertDb.onIncidents_incidents (db : AlertDb)
    (f : Table PyStr Incident → Table PyStr Incident) :
    (db.onIncidents f).incidents = f db.incidents := rfl

/-- A call of `report_incident`: its arguments, its reading of the clock and the id it draws. -/
structure IncidentReport where
  category : PyStr
  subject : PyStr
  details : PyStr
  now : Instant
  incidentId : PyStr

/-- `_fingerprint`. -/
def fingerprint (category subject : PyStr) : PyStr := category ++ py ":" ++ subject

def IncidentReport.fingerprint (report : IncidentReport) : PyStr :=
  Alerting.fingerprint report.category report.subject

/-- An open incident of a fingerprint. -/
def Incident.opens (fp : PyStr) (row : Incident) : Bool :=
  row.fingerprint = fp ∧ row.resolvedAt = none

/-- `_sweep_stale_incidents`. -/
def sweepStale (cutoffAt stampAt : Instant) (db : AlertDb) : AlertDb :=
  db.onIncidents fun t =>
    t.updateWhere (fun _ row => row.resolvedAt = none ∧ row.lastSeenAt < cutoffAt - autoResolve)
      fun row => { row with resolvedAt := some stampAt }

/-- The open incident `report_incident` looks up. -/
def findOpen (fp : PyStr) (db : AlertDb) : Option (PyStr × Incident) :=
  db.incidents.first fun _ row => row.opens fp

/-- The update of an incident that is open already. -/
def bump (report : IncidentReport) (incidentId : PyStr) (db : AlertDb) : AlertDb :=
  db.onIncidents fun t => t.update incidentId fun row =>
    { row with
      lastSeenAt := report.now
      triggerCount := row.triggerCount + 1
      details := report.details }

/-- A recipient with no filter receives everything. -/
def Recipient.wants (category : PyStr) (r : Recipient) : Bool :=
  match r.categories with
  | none => true
  | some categories => categories = [] ∨ category ∈ categories

/-- `_active_recipients_for`: the addresses, in order. -/
def activeRecipientsFor (category : PyStr) (db : AlertDb) : List PyStr :=
  sortStrs ((db.recipients.select fun _ r => r.active && r.wants category).map Prod.fst)

/-- The row of a new incident. -/
def IncidentReport.incident (report : IncidentReport) : Incident :=
  ⟨report.category, report.subject, report.fingerprint, report.now, report.now, 1, report.details,
    none, [], none⟩

/-- The insert of a new incident; `none` when its id is taken. -/
def openIncident (report : IncidentReport) (db : AlertDb) : Option AlertDb :=
  match db.incidents.get report.incidentId with
  | some _ => none
  | none => some (db.onIncidents fun t => t.upsert report.incidentId report.incident id)

/-- The update that records who was emailed. -/
def noteEmailed (report : IncidentReport) (emailed : List PyStr) (db : AlertDb) : AlertDb :=
  db.onIncidents fun t => t.update report.incidentId fun row =>
    { row with emailSentAt := some report.now, emailedRecipients := emailed }

/-- The update of `resolve_incident`. -/
def resolveOpen (category subject : PyStr) (now : Instant) (db : AlertDb) : AlertDb :=
  db.onIncidents fun t =>
    t.updateWhere (fun _ row => row.opens (fingerprint category subject))
      fun row => { row with resolvedAt := some now }

end GhostPour.Alerting

namespace GhostPour.Alerting

/-- Where the call of a connection stands. -/
inductive ReportPhase where
  | ready
  | swept (report : IncidentReport)
  | found (report : IncidentReport) (incidentId : PyStr)
  | fresh (report : IncidentReport)
  | chosen (report : IncidentReport) (recipients : List PyStr)
  | inserted (report : IncidentReport) (recipients : List PyStr)
  | mailing (report : IncidentReport) (recipients emailed : List PyStr)
  | closing

/-- A statement of the code around the calls, on the same connection. -/
inductive OtherStatement where
  | begin
  | select
  | write (recipients : Table PyStr Recipient)
  | commit
  | rollback

/-- Other code writes other tables, and the recipients. -/
def OtherStatement.op : OtherStatement → StoreOp AlertDb
  | .begin => .begin
  | .select => .read
  | .write recipients => .write fun db => { db with recipients := recipients }
  | .commit => .commit
  | .rollback => .rollback

/-- The database, the calls, and the emails that were sent, with their incidents. -/
structure Alerts where
  store : Store Nat AlertDb
  phases : Nat → ReportPhase
  outbox : List (PyStr × PyStr)

/-- Before any call. -/
def Alerts.start (db : AlertDb) : Alerts := ⟨.start db, fun _ => .ready, []⟩

/-- A statement of a connection; `locked` when another connection keeps it waiting for too long. -/
inductive AlertAction where
  | report (c : Nat) (report : IncidentReport) (cutoffAt stampAt : Instant) (locked : Bool)
  | lookup (c : Nat)
  | bump (c : Nat) (locked : Bool)
  | recipients (c : Nat)
  | insert (c : Nat) (locked : Bool)
  | commit (c : Nat) (locked : Bool)
  | send (c : Nat) (delivered : Bool)
  | note (c : Nat) (locked : Bool)
  | resolve (c : Nat) (category subject : PyStr) (now : Instant) (locked : Bool)
  | list (c : Nat) (cutoffAt stampAt : Instant) (locked : Bool)
  | abort (c : Nat)
  | other (c : Nat) (statement : OtherStatement)

namespace Alerts

def setPhase (a : Alerts) (c : Nat) (phase : ReportPhase) : Alerts :=
  { a with phases := Function.update a.phases c phase }

/-- A transaction statement, and the phase that follows it. -/
def took (a : Alerts) (c : Nat) (op : StoreOp AlertDb) (phase : ReportPhase) : Alerts :=
  { a with store := a.store.apply c op, phases := Function.update a.phases c phase }

/-- A write, and the phase that follows it; the call raises when it is locked out. -/
def wrote (a : Alerts) (c : Nat) (locked : Bool) (f : AlertDb → AlertDb) (phase : ReportPhase) :
    Alerts :=
  if locked || !a.store.free c then a.took c .begin .ready else a.took c (.write f) phase

/-- The sweep, whose failure is swallowed. -/
def sweep (a : Alerts) (c : Nat) (locked : Bool) (cutoffAt stampAt : Instant) (phase : ReportPhase) :
    Alerts :=
  if locked then a.took c .begin phase else a.took c (.write (sweepStale cutoffAt stampAt)) phase

/-- The look-up of the open incident. -/
def lookup (a : Alerts) (c : Nat) (report : IncidentReport) : Alerts :=
  match findOpen report.fingerprint (a.store.view c) with
  | some (incidentId, _) => a.took c .read (.found report incidentId)
  | none => a.took c .read (.fresh report)

/-- The insert; an id that is taken is an error, which leaves the transaction open. -/
def insert (a : Alerts) (c : Nat) (locked : Bool) (report : IncidentReport)
    (recipients : List PyStr) : Alerts :=
  match openIncident report (a.store.view c) with
  | none => a.wrote c locked id .ready
  | some _ =>
      a.wrote c locked (fun db => (openIncident report db).getD db) (.inserted report recipients)

/-- The phase a commit leads to. -/
def afterCommit : ReportPhase → ReportPhase
  | .inserted report recipients => .mailing report recipients []
  | _ => .ready

/-- A send to the next recipient; `send_email` never raises out of the loop. -/
def send (a : Alerts) (c : Nat) (delivered : Bool) (report : IncidentReport) (email : PyStr)
    (recipients emailed : List PyStr) : Alerts where
  store := a.store
  phases := Function.update a.phases c
    (.mailing report recipients (if delivered then emailed ++ [email] else emailed))
  outbox := a.outbox ++ [(report.incidentId, email)]

end Alerts

/-- The statements of any number of connections. -/
def alertMachine : Machine Alerts AlertAction where
  step
    | .report c report cutoffAt stampAt locked, a =>
        match a.phases c with
        | .ready => some (a.sweep c locked cutoffAt stampAt (.swept report))
        | _ => none
    | .lookup c, a =>
        match a.phases c with
        | .swept report => some (a.lookup c report)
        | _ => none
    | .bump c locked, a =>
        match a.phases c with
        | .found report incidentId => some (a.wrote c locked (bump report incidentId) .closing)
        | _ => none
    | .recipients c, a =>
        match a.phases c with
        | .fresh report =>
            some (a.took c .read (.chosen report (activeRecipientsFor report.category (a.store.view c))))
        | _ => none
    | .insert c locked, a =>
        match a.phases c with
        | .chosen report recipients => some (a.insert c locked report recipients)
        | _ => none
    | .commit c locked, a =>
        match a.phases c with
        | .closing | .inserted _ _ =>
            if locked then some (a.setPhase c .ready)
            else some (a.took c .commit (Alerts.afterCommit (a.phases c)))
        | _ => none
    | .send c delivered, a =>
        match a.phases c with
        | .mailing report (email :: recipients) emailed =>
            some (a.send c delivered report email recipients emailed)
        | _ => none
    | .note c locked, a =>
        match a.phases c with
        | .mailing report [] emailed =>
            if emailed = [] then some (a.setPhase c .ready)
            else some (a.wrote c locked (noteEmailed report emailed) .closing)
        | _ => none
    | .resolve c category subject now locked, a =>
        match a.phases c with
        | .ready => some (a.wrote c locked (resolveOpen category subject now) .closing)
        | _ => none
    | .list c cutoffAt stampAt locked, a =>
        match a.phases c with
        | .ready => some (a.wrote c locked (sweepStale cutoffAt stampAt) .ready)
        | _ => none
    | .abort c, a => some (a.setPhase c .ready)
    | .other c statement, a =>
        match a.phases c with
        | .ready | .mailing _ _ _ => some (a.took c statement.op (a.phases c))
        | _ => none

end GhostPour.Alerting
