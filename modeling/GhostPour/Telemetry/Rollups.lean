/-
Module: GhostPour.Telemetry.Rollups
Layer: Model
Purpose: `app/services/telemetry_rollup.py`, with the events it reads, the retention sweep of their
  table and the startups that sweep first and roll up after that. An event keeps the reading it was
  received at; its column is the ISO text of it. Counts and means are exact numbers. The columns no
  rollup reads are left out.
Trusted boundary: human-reviewed spec
Main exports: TelemetryEvent, ofDay, notResumedOrphan, DayCounts, dayCounts, computeDay,
  computeRollups, EventStore, TelemetryAction, telemetryMachine
-/
import GhostPour.Library.Machine
import GhostPour.Library.Sums
import GhostPour.Library.Table
import GhostPour.Retention.Sweeps

namespace GhostPour.Telemetry

open Retention (cutoff)

/-! ### The events -/

/-- The fields of the body of an event. -/
structure EventBody where
  eventType : PyStr
  deviceId : PyStr
  userId : Option PyStr
  meetingId : Option PyStr
  modelId : Option PyStr
  durationSeconds : Option Int
  resumedFromMeetingId : Option PyStr
deriving DecidableEq

/-- A row of `telemetry_events`. -/
structure TelemetryEvent extends EventBody where
  receivedAt : Instant
deriving DecidableEq

/-- `received_at`. -/
def TelemetryEvent.receivedText (e : TelemetryEvent) : PyStr :=
  (DateTime.ofInstant e.receivedAt).isoformat

/-- The row of an event that comes in. A meeting that is resumed is named on the start alone. -/
def EventBody.row (now : Instant) (body : EventBody) : TelemetryEvent :=
  { body with
    resumedFromMeetingId :=
      if body.eventType = py "meeting_start" then body.resumedFromMeetingId else none
    receivedAt := now }

/-- A stop that is already stored under the meeting's id. -/
def repeatedStop (events : List TelemetryEvent) (body : EventBody) : Bool :=
  body.eventType = py "meeting_stop" && (match body.meetingId with
    | none | some [] => false
    | some id => events.any fun e => e.eventType = py "meeting_stop" && e.meetingId = some id)

/-! ### One day -/

/-- `received_at BETWEEN start AND end`. -/
def ofDay (day : Nat) (e : TelemetryEvent) : Bool :=
  DateTime.dayText day ++ py "T00:00:00+00:00" ≤ e.receivedText &&
    e.receivedText ≤ DateTime.dayText day ++ py "T23:59:59.999999+00:00"

/-- The ids of the select in `NOT_RESUMED_ORPHAN`. -/
def resumedIds (events : List TelemetryEvent) : List PyStr :=
  events.filterMap (·.resumedFromMeetingId)

/-- The events the condition is about. -/
def isMeeting (e : TelemetryEvent) : Bool :=
  e.eventType = py "meeting_start" || e.eventType = py "meeting_stop"

/-- `NOT_RESUMED_ORPHAN`. For a meeting without an id the `IN` is null as soon as there is an id to
compare with, and the row is left out. -/
def notResumedOrphan (events : List TelemetryEvent) (e : TelemetryEvent) : Bool :=
  !isMeeting e || (match e.meetingId with
    | none => (resumedIds events).isEmpty
    | some id => id ∉ resumedIds events)

/-- `counts.get(event_type, 0)`. -/
def countOf (events : List TelemetryEvent) (day : Nat) (eventType : PyStr) : Nat :=
  (events.filter (ofDay day)).countP fun e => notResumedOrphan events e && e.eventType = eventType

/-- The metrics that are written for every day. -/
structure DayCounts where
  appStarts : Nat
  meetingsStarted : Nat
  meetingsStopped : Nat
  distinctDevices : Nat
  distinctUsers : Nat

/-- The counts of a day, from the events that are given. -/
def dayCounts (events : List TelemetryEvent) (day : Nat) : DayCounts where
  appStarts := countOf events day (py "app_start")
  meetingsStarted := countOf events day (py "meeting_start")
  meetingsStopped := countOf events day (py "meeting_stop")
  distinctDevices := ((events.filter (ofDay day)).map (·.deviceId)).dedup.length
  distinctUsers := ((events.filter (ofDay day)).filterMap (·.userId)).dedup.length

/-- The counts under the names of their metrics. -/
def DayCounts.rows (c : DayCounts) : List (PyStr × Nat) :=
  [(py "app_starts", c.appStarts), (py "meetings_started", c.meetingsStarted),
    (py "meetings_stopped", c.meetingsStopped), (py "distinct_devices", c.distinctDevices),
    (py "distinct_users", c.distinctUsers)]

/-- The meetings of each model. -/
def perModel (events : List TelemetryEvent) (day : Nat) : List (PyStr × Rat) :=
  let models := ((events.filter (ofDay day)).filter fun e =>
    isMeeting e && notResumedOrphan events e).filterMap (·.modelId)
  models.dedup.map fun model => (py "meetings_per_model:" ++ model, (models.count model : Rat))

/-- Mean, least and greatest of the durations, if there are any. -/
def durations (events : List TelemetryEvent) (day : Nat) : List (PyStr × Rat) :=
  let lengths := ((events.filter (ofDay day)).filter fun e =>
    e.eventType = py "meeting_stop" && notResumedOrphan events e).filterMap (·.durationSeconds)
  match lengths with
  | [] => []
  | first :: rest =>
      [(py "duration_avg_sec", ((lengths.sum : Int) : Rat) / lengths.length),
        (py "duration_min_sec", ((rest.foldl min first : Int) : Rat)),
        (py "duration_max_sec", ((rest.foldl max first : Int) : Rat))]

/-- `telemetry_daily_rollups`, by day and metric. -/
abbrev Rollups := Table (PyStr × PyStr) Rat

/-- `_compute_day`: the rows it writes, in their order. -/
def computeDay (events : List TelemetryEvent) (day : Nat) : List ((PyStr × PyStr) × Rat) :=
  ((dayCounts events day).rows.map (fun r => (r.1, (r.2 : Rat))) ++ perModel events day ++
    durations events day).map fun r => ((DateTime.dayText day, r.1), r.2)

/-- `_LOOKBACK_DAYS`. -/
def lookbackDays : Nat := 35

/-- `compute_rollups`, with the number of rows written. -/
def computeRollups (now : Instant) (events : List TelemetryEvent) (rollups : Rollups) :
    Rollups × Nat :=
  let rows := (List.range lookbackDays).flatMap fun i => computeDay events (now.day - i)
  (rollups.replaceAll rows, rows.length)

/-! ### Runs -/

/-- The sweep of `telemetry_events`. -/
def purge (now : Instant) (events : List TelemetryEvent) : List TelemetryEvent :=
  events.filter fun e => !(e.receivedText < (cutoff now 30).sqliteText : Bool)

/-- The clock, the stored events and rollups; all events ever received, and the days that had ended
when they were rolled up. -/
structure EventStore where
  now : Instant
  events : List TelemetryEvent
  rollups : Rollups
  received : List TelemetryEvent
  rolledUp : List Nat

/-- An event comes in, the sweep runs, or the service starts up: it sweeps, and rolls up after
that. -/
inductive TelemetryAction where
  | ingest (now : Instant) (body : EventBody)
  | sweep (now : Instant)
  | startup (swept rolled : Instant)

namespace EventStore

/-- A new database. -/
def start : EventStore := ⟨0, [], .empty, [], []⟩

/-- `ingest_telemetry`: the insert, unless the event repeats a stop. -/
def ingest (s : EventStore) (now : Instant) (body : EventBody) : EventStore :=
  if repeatedStop s.events body then { s with now := now }
  else { s with
    now := now
    events := s.events ++ [body.row now]
    received := s.received ++ [body.row now] }

def sweep (s : EventStore) (now : Instant) : EventStore :=
  { s with now := now, events := purge now s.events }

/-- The days of the window that have ended. -/
def ended (now : Instant) : List Nat :=
  ((List.range lookbackDays).map (now.day - ·)).filter (· < now.day)

def rollUp (s : EventStore) (now : Instant) : EventStore :=
  { s with
    now := now
    rollups := (computeRollups now s.events s.rollups).1
    rolledUp := s.rolledUp ++ ended now }

end EventStore

/-- The clock goes on, and shows a year that `datetime` has. -/
def EventStore.reads (s : EventStore) (now : Instant) : Bool :=
  s.now ≤ now && (DateTime.ofInstant now).Dated

/-- Events, sweeps and startups, each when the clock shows its reading. -/
def telemetryMachine : Machine EventStore TelemetryAction where
  step
    | .ingest now body, s => if s.reads now then some (s.ingest now body) else none
    | .sweep now, s => if s.reads now then some (s.sweep now) else none
    | .startup swept rolled, s =>
        if s.reads swept && (s.sweep swept).reads rolled then some ((s.sweep swept).rollUp rolled)
        else none

end GhostPour.Telemetry
