/-
Module: GhostPour.Retention.Sweeps
Layer: Model
Purpose: The sweeps of `app/services/retention.py`: every table with a window, the cutoff as SQLite
  writes it, and the loop of `purge_expired` over them, which skips a table it cannot sweep. A row is
  its columns, each a text or null. The two sweeps of `usage_log` that follow the loop, the log and
  the time between the statements are left out.
Trusted boundary: human-reviewed spec
Main exports: Row, Tables, Sweep, sweeps, cutoff, expired, absorbTelemetryDevices, sweepTable,
  purgeExpired
-/
import GhostPour.Library.IsoText
import GhostPour.Library.PyValue

namespace GhostPour.Retention

/-! ### The database -/

/-- A row: the texts of its columns that are not null. -/
abbrev Row := Assoc PyStr

/-- The rows of each table; a table that is missing or locked has none to give. -/
abbrev Tables := PyStr → Option (List Row)

/-! ### The windows -/

/-- `Sweep`, with whether the devices of the table are absorbed first. -/
structure Sweep where
  table : PyStr
  column : PyStr
  days : Nat
  absorbs : Bool

/-- `TRANSCRIPT_RETENTION_DAYS`. -/
def transcriptRetentionDays : Nat := 30

/-- `SWEEPS`. -/
def sweeps : List Sweep :=
  [⟨py "meeting_transcripts", py "created_at", transcriptRetentionDays, false⟩,
    ⟨py "meeting_reports", py "created_at", 30, false⟩,
    ⟨py "plan_snapshots", py "created_at", 365, false⟩,
    ⟨py "email_events", py "received_at", 90, false⟩,
    ⟨py "telemetry_events", py "received_at", 30, true⟩,
    ⟨py "meeting_heartbeats", py "received_at", 30, false⟩,
    ⟨py "companion_events", py "received_at", 180, false⟩,
    ⟨py "companion_downloads", py "received_at", 180, false⟩]

/-- `datetime('now', '-30 days')`, as a reading. -/
def cutoff (now : Instant) (days : Nat) : Instant := now - days * microsPerDay

theorem cutoff_day (now : Instant) (days : Nat) : (cutoff now days).day = now.day - days := by
  unfold cutoff Instant.day
  rw [mul_comm]
  exact Nat.sub_mul_div now microsPerDay days

/-- The row's column is before the text of the cutoff; null is not. -/
def expired (now : Instant) (s : Sweep) (row : Row) : Bool :=
  match row.get s.column with
  | none => false
  | some text => text < (cutoff now s.days).sqliteText

/-! ### The sweeps -/

/-- The table of the devices' first-seen dates. -/
def telemetryDevices : PyStr := py "telemetry_devices"

/-- The devices of a list of rows, each with the first of its texts. -/
def firstSeen (events : List Row) : Assoc PyStr :=
  events.foldl (fun seen row =>
    match row.get (py "device_id"), row.get (py "received_at") with
    | some device, some at_ =>
        match seen.get device with
        | some first => seen.set device (min first at_)
        | none => seen.set device at_
    | _, _ => seen) []

/-- `_ABSORB_TELEMETRY_DEVICES`: a device that is known keeps its row. -/
def absorbTelemetryDevices (tables : Tables) : Option Tables := do
  let known ← tables telemetryDevices
  let events ← tables (py "telemetry_events")
  let new := (firstSeen events).filter fun d =>
    known.all fun row => row.get (py "device_id") ≠ some d.1
  some (Function.update tables telemetryDevices (some (known ++ new.map fun d =>
    [(py "device_id", d.1), (py "first_seen_at", d.2)])))

/-- The statement that runs before a sweep, if any. -/
def runBefore (s : Sweep) (tables : Tables) : Option Tables :=
  if s.absorbs then absorbTelemetryDevices tables else some tables

/-- The statements of one sweep, and the number of rows deleted. -/
def sweepTable (now : Instant) (s : Sweep) (tables : Tables) : Option (Tables × Nat) := do
  let tables ← runBefore s tables
  let rows ← tables s.table
  let kept := rows.filter fun row => !expired now s row
  some (Function.update tables s.table (some kept), rows.length - kept.length)

/-- One turn of the loop: a sweep that raises is reported as no rows. -/
def sweepOrSkip (now : Instant) (state : Tables × Assoc Nat) (s : Sweep) : Tables × Assoc Nat :=
  match sweepTable now s state.1 with
  | some (tables, deleted) => (tables, state.2.set s.table deleted)
  | none => (state.1, state.2.set s.table 0)

/-- `purge_expired`: the tables after it, and the rows deleted from each. -/
def purgeExpired (now : Instant) (tables : Tables) : Tables × Assoc Nat :=
  sweeps.foldl (sweepOrSkip now) (tables, [])

end GhostPour.Retention
