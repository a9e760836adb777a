/-
Module: GhostPour.Generations.GenerationTurns
Layer: Model
Purpose: `app/services/generation_turns.py`, and the requests of one user that carry one generation id,
  as the steps `_chat_impl` takes between its awaits: the look-up, `begin`, `record_start`, the turn
  tail with its two failure paths, `finish`; beside them the process that restarts, the sweeps and the
  clock. The ids of the user and of the generation are those of the one turn; the JSON columns hold
  their values; `acked_at`, which the discovery endpoints alone read, is left out, and so is the expiry
  of the staged files.
Trusted boundary: human-reviewed spec
Main exports: GenerationRow, Terminal, runningInfo, begin_, startedRow, Finished, finished, storeFinish,
  lookupTerminal, sweepLostToRestart, purgeExpired, BuildPhase, BuildState, GenerationAction,
  generationMachine
-/
import GhostPour.Library.Calendar
import GhostPour.Library.Json
import GhostPour.Library.Machine

namespace GhostPour.Generations

/-! ### The in-flight entry -/

/-- So many hours, in microseconds. -/
def hours (n : Nat) : Nat := n * 3600 * microsPerSecond

/-- `DEFAULT_EXPECTED_SECONDS`. -/
def defaultExpectedSeconds : Nat := 150

/-- What `_IN_FLIGHT` holds for the turn. -/
structure Entry where
  startedAt : Instant
  expectedSeconds : Nat

/-- The entry of the turn, if there is one. -/
abbrev InFlight := Option Entry

/-- The honest-progress fields. -/
structure RunningInfo where
  startedAt : Instant
  elapsedSeconds : Nat
  expectedSeconds : Nat
  pollAfterSeconds : Nat

/-- `running_info`. -/
def runningInfo (now : Instant) (entry : InFlight) : Option RunningInfo :=
  entry.map fun e => ⟨e.startedAt, (now - e.startedAt) / microsPerSecond, e.expectedSeconds, 5⟩

/-- `begin`. -/
def begin_ (now : Instant) (expectedSeconds : Nat) (entry : InFlight) : InFlight × Bool :=
  match entry with
  | some e => (some e, false)
  | none => (some ⟨now, expectedSeconds⟩, true)

/-! ### The row -/

/-- The `status` of a row. -/
inductive GenerationStatus where
  | running
  | done
  | failed
deriving DecidableEq

/-- Where the turn belongs, and the question. -/
structure TurnContext where
  appId : Option PyStr
  projectId : Option PyStr
  meetingId : Option PyStr
  sessionId : Option PyStr
  question : Option PyStr

/-- The `generations` row of the turn. -/
structure GenerationRow where
  context : TurnContext
  status : GenerationStatus
  text : Option PyStr
  error : Option Json
  files : List Json
  startedAt : Instant
  completedAt : Instant
  expiresAt : Instant

/-- The row `record_start` writes. -/
def startedRow (now : Instant) (context : TurnContext) : GenerationRow where
  context := context
  status := .running
  text := none
  error := none
  files := []
  startedAt := now
  completedAt := now
  expiresAt := now + hours 6

/-- What `lookup_terminal` returns. -/
inductive Terminal where
  | done (text : PyStr) (files : List Json)
  | failed (error : Json)

/-- A row as `lookup_terminal` reads it. -/
def terminalOf (row : GenerationRow) : Terminal :=
  if row.status = .done then .done (row.text.getD []) row.files
  else .failed (row.error.getD (.obj []))

/-- `lookup_terminal`. -/
def lookupTerminal (now : Instant) (row : Option GenerationRow) : Option Terminal :=
  (row.filter fun r => now < r.expiresAt && r.status ≠ .running).map terminalOf

/-- The arguments of `finish`, with what it has read before it writes. -/
structure Finished where
  appId : Option PyStr
  done : Bool
  text : Option PyStr
  error : Option Json
  files : List Json
  startedAt : Instant
  completedAt : Instant

/-- When the row of a finished turn expires: `DONE_EXPIRY_HOURS` or `FAILED_EXPIRY_HOURS`. -/
def Finished.expiresAt (f : Finished) : Instant :=
  f.completedAt + if f.done then hours (7 * 24) else hours 24

/-- Its status. -/
def Finished.status (f : Finished) : GenerationStatus := if f.done then .done else .failed

/-- The update of `finish`, or the insert where there is no row. -/
def storeFinish (f : Finished) : Option GenerationRow → GenerationRow
  | some row =>
      { row with
        status := f.status
        text := f.text
        error := f.error
        files := f.files
        completedAt := f.completedAt
        expiresAt := f.expiresAt }
  | none =>
      ⟨⟨f.appId, none, none, none, none⟩, f.status, f.text, f.error, f.files, f.startedAt,
        f.completedAt, f.expiresAt⟩

/-- `LOST_TO_RESTART`. -/
def lostToRestart : Json :=
  .obj [(py "code", .str (py "lost_to_restart")),
    (py "message", .str (py "GhostPour restarted while this file was being built"))]

/-- `sweep_lost_to_restart`. -/
def sweepLostToRestart (now : Instant) (row : Option GenerationRow) : Option GenerationRow :=
  row.map fun r =>
    if r.status = .running then
      { r with
        status := .failed
        error := some lostToRestart
        completedAt := now
        expiresAt := now + hours 24 }
    else r

/-- `purge_expired`. -/
def purgeExpired (now : Instant) (row : Option GenerationRow) : Option GenerationRow :=
  row.filter fun r => ¬ r.expiresAt ≤ now

/-! ### The requests -/

/-- What a request comes to. -/
inductive Outcome where
  | replayed (text : PyStr) (files : List Json)
  | inProgress (info : Option RunningInfo)
  | finished (done : Bool)
  | gone

/-- Where a request stands: about to look the turn up; the look-up answered; begun, and about to record
its start; at work on the turn; about to write what `finish` was called with. -/
inductive BuildPhase where
  | lookup
  | answered (stored : Option Terminal)
  | starting
  | building
  | finishing (finish : Finished)
  | over (outcome : Outcome)

/-- Whether the request builds the file: from its registration, or from the stored failure it retries,
until it calls `finish`. -/
def BuildPhase.builds : BuildPhase → Bool
  | .starting => true
  | .building => true
  | _ => false

/-- A request for the turn. -/
structure BuildRequest where
  context : TurnContext
  expectedSeconds : Option Nat
  phase : BuildPhase

/-- Whether the request builds. -/
def BuildRequest.builds (q : BuildRequest) : Bool := q.phase.builds

/-- The clock, the entry and the row of the turn, the requests of the process, whether the startup sweep
is still to come; and, as history, the rows that a start has replaced, each with when. -/
structure BuildState where
  now : Instant
  inFlight : InFlight
  row : Option GenerationRow
  requests : List BuildRequest
  sweepDue : Bool
  replaced : List (GenerationRow × Instant)

/-- A process that has just come up. -/
def BuildState.boot (now : Instant) (row : Option GenerationRow) : BuildState :=
  ⟨now, none, row, [], true, []⟩

/-- A step between two awaits of a request, or of what runs beside the requests. The provider call of a
request raises and is recorded (`fail`), or the request is cancelled, or leaves by an error that no
handler on its way records (`die`). -/
inductive GenerationAction where
  | tick (now : Instant)
  | arrive (context : TurnContext) (expectedSeconds : Option Nat)
  | select (r : Nat)
  | resume (r : Nat)
  | start (r : Nat)
  | succeed (r : Nat) (text : PyStr) (files : List Json)
  | fail (r : Nat) (error : Json)
  | store (r : Nat)
  | die (r : Nat)
  | restart
  | sweep
  | purge

namespace BuildState

/-- A request goes on. -/
def move (s : BuildState) (r : Nat) (q : BuildRequest) (phase : BuildPhase) : BuildState :=
  { s with requests := s.requests.set r { q with phase := phase } }

/-- What follows the look-up, in one step. A stored failure falls through: the resend is the retry. -/
def resume (s : BuildState) (r : Nat) (q : BuildRequest) : Option Terminal → BuildState
  | some (.done text files) => s.move r q (.over (.replayed text files))
  | some (.failed _) => s.move r q .building
  | none =>
      match begin_ s.now (q.expectedSeconds.getD defaultExpectedSeconds) s.inFlight with
      | (entry, true) => { s.move r q .starting with inFlight := entry }
      | (_, false) => s.move r q (.over (.inProgress (runningInfo s.now s.inFlight)))

/-- `record_start`: `INSERT OR REPLACE`. -/
def start (s : BuildState) (r : Nat) (q : BuildRequest) : BuildState :=
  { s.move r q .building with
    row := some (startedRow s.now q.context)
    replaced := s.replaced ++ s.row.toList.map fun old => (old, s.now) }

/-- `finish` up to its first await: the entry is taken out before the row is written. -/
def finish (s : BuildState) (r : Nat) (q : BuildRequest) (done : Bool) (text : Option PyStr)
    (error : Option Json) (files : List Json) : BuildState :=
  { s.move r q (.finishing ⟨q.context.appId, done, text, error, files,
      (s.inFlight.map Entry.startedAt).getD s.now, s.now⟩) with
    inFlight := none }

/-- The rest of `finish`. -/
def store (s : BuildState) (r : Nat) (q : BuildRequest) (f : Finished) : BuildState :=
  { s.move r q (.over (.finished f.done)) with row := some (storeFinish f s.row) }

/-- The process dies with its requests and its registry, and comes up again. -/
def restart (s : BuildState) : BuildState :=
  { s with
    inFlight := none
    requests := s.requests.map fun q => { q with phase := .over .gone }
    sweepDue := true }

end BuildState

/-- The steps of any number of requests for one generation id. -/
def generationMachine : Machine BuildState GenerationAction where
  step
    | .tick now, s => if s.now ≤ now then some { s with now := now } else none
    | .arrive context expectedSeconds, s =>
        some { s with requests := s.requests ++ [⟨context, expectedSeconds, .lookup⟩] }
    | .select r, s =>
        (s.requests[r]?).bind fun q =>
          match q.phase with
          | .lookup => some (s.move r q (.answered (lookupTerminal s.now s.row)))
          | _ => none
    | .resume r, s =>
        (s.requests[r]?).bind fun q =>
          match q.phase with
          | .answered stored => some (s.resume r q stored)
          | _ => none
    | .start r, s =>
        (s.requests[r]?).bind fun q =>
          match q.phase with
          | .starting => some (s.start r q)
          | _ => none
    | .succeed r text files, s =>
        (s.requests[r]?).bind fun q =>
          match q.phase with
          | .building => some (s.finish r q true (some text) none files)
          | _ => none
    | .fail r error, s =>
        (s.requests[r]?).bind fun q =>
          match q.phase with
          | .building => some (s.finish r q false none (some error) [])
          | _ => none
    | .store r, s =>
        (s.requests[r]?).bind fun q =>
          match q.phase with
          | .finishing f => some (s.store r q f)
          | _ => none
    | .die r, s =>
        (s.requests[r]?).bind fun q =>
          match q.phase with
          | .over _ => none
          | _ => some (s.move r q (.over .gone))
    | .restart, s => some s.restart
    | .sweep, s =>
        if s.sweepDue then
          some { s with row := sweepLostToRestart s.now s.row, sweepDue := false }
        else none
    | .purge, s => some { s with row := purgeExpired s.now s.row }

end GhostPour.Generations
