/-
Module: GhostPour.Documents.PlanSnapshots
Layer: Model
Purpose: The trail of plan versions (`src/app/services/plan_snapshots.py`): `record` adds a row for every
  rendered plan, `history` reads a project's rows in the order of the query and keeps one of each day.
  The tasks of a row are what `json.loads` makes of its text, `none` where it raises.
Trusted boundary: human-reviewed spec
Main exports: Snapshot, Call, record, run, rowsOf, byQuery, asOf, PlanVersion, history
-/
import GhostPour.Library.Dicts
import GhostPour.Library.IsoText

namespace GhostPour

namespace Documents.PlanSnapshots

/-- A row of `plan_snapshots`. -/
structure Snapshot where
  userId : PyStr
  projectId : Option PyStr
  meetingDate : Option PyStr
  tasks : Option Json
  createdAt : PyStr

/-- The arguments of `record`, and the clock. -/
structure Call where
  userId : PyStr
  projectId : Option PyStr
  meetingDate : Option PyStr
  tasks : Json
  now : Instant

section
variable [PyRuntime]

/-- `record`. -/
def record (db : List Snapshot) (c : Call) : List Snapshot :=
  db ++ [{ userId := c.userId, projectId := c.projectId, meetingDate := c.meetingDate,
           tasks := some (if c.tasks.truthy then c.tasks else .arr []),
           createdAt := (DateTime.ofInstant c.now).isoformat }]

/-- A sequence of recordings. -/
def run (calls : List Call) : List Snapshot := calls.foldl record []

end

/-- `WHERE user_id = ? AND project_id = ?`. -/
def rowsOf (userId projectId : PyStr) (db : List Snapshot) : List Snapshot :=
  db.filter fun r => r.userId == userId && r.projectId == some projectId

/-- `COALESCE(meeting_date, substr(created_at, 1, 10))`. -/
def Snapshot.sortDate (r : Snapshot) : PyStr := r.meetingDate.getD (r.createdAt.take 10)

/-- `ORDER BY` the sort date, `created_at`. -/
def byQuery (r s : Snapshot) : Bool :=
  r.sortDate < s.sortDate || r.sortDate == s.sortDate && r.createdAt ≤ s.createdAt

/-- `meeting_date or created_at[:10]`. -/
def asOf (r : Snapshot) : PyStr :=
  let meetingDate := r.meetingDate.getD []
  if meetingDate.isEmpty then r.createdAt.take 10 else meetingDate

/-- One version of a plan. -/
structure PlanVersion where
  asOf : PyStr
  createdAt : PyStr
  tasks : Json

/-- One row: a later one of a day takes the place of an earlier one. -/
def collapse (byAsOf : Assoc PlanVersion) (r : Snapshot) : Assoc PlanVersion :=
  match r.tasks with
  | none => byAsOf
  | some tasks => byAsOf.set (asOf r) ⟨asOf r, r.createdAt, tasks⟩

/-- `history`. -/
def history (db : List Snapshot) (userId : PyStr) (projectId : Option PyStr) : List PlanVersion :=
  let projectId := projectId.getD []
  if projectId.isEmpty then []
  else (((rowsOf userId projectId db).mergeSort byQuery).take 100 |>.foldl collapse []).values

end Documents.PlanSnapshots

end GhostPour
