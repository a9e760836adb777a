/-
Module: GhostPour.Chat.ChatTurns
Layer: Model
Purpose: `app/services/chat_turns.py`, and the requests of one user that carry one turn id, as the
  steps `chat` and `_chat_impl` take between their awaits. A request runs the turn itself (attached),
  or hands it to the task of a streaming response (detached). The ids of the user, of the turn and of
  the app are those of the one turn.
Trusted boundary: human-reviewed spec
Main exports: TurnRow, runningInfo, begin_, abandon, finishedRow, lookupTerminal, TurnPhase, Turns,
  TurnAction, turnMachine
-/
import GhostPour.Library.Calendar
import GhostPour.Library.Machine
import GhostPour.Library.PyText

namespace GhostPour.Chat

/-! ### The in-flight entry and the stored row -/

/-- `_IN_FLIGHT_MAX_SECONDS`, in microseconds. -/
def inFlightMax : Nat := 240 * microsPerSecond

/-- `EXPIRY_HOURS`, in microseconds. -/
def expiry : Nat := 6 * 3600 * microsPerSecond

/-- The `status` of a row. -/
inductive TurnStatus where
  | done
  | failed
deriving DecidableEq

/-- The `chat_turns` row of the turn; the payload is its body or its error. -/
structure TurnRow where
  status : TurnStatus
  payload : PyStr
  startedAt : Instant
  completedAt : Instant
  expiresAt : Instant
deriving DecidableEq

/-- The entry of the turn in `_IN_FLIGHT`: when it started. -/
abbrev InFlight := Option Instant

/-- `running_info`: an entry that is too old is dropped. -/
def runningInfo (now : Instant) (entry : InFlight) : InFlight × Option Instant :=
  match entry with
  | none => (none, none)
  | some startedAt =>
      if inFlightMax < now - startedAt then (none, none) else (some startedAt, some startedAt)

/-- `begin`. -/
def begin_ (now : Instant) (entry : InFlight) : InFlight × Bool :=
  match entry with
  | none => (some now, true)
  | some startedAt =>
      if now - startedAt ≤ inFlightMax then (some startedAt, false) else (some now, true)

/-- `abandon`. -/
def abandon (_ : InFlight) : InFlight := none

/-- The row `finish` stores, after it has taken the entry out. -/
def finishedRow (now : Instant) (status : TurnStatus) (payload : PyStr) (entry : InFlight) : TurnRow :=
  ⟨status, payload, entry.getD now, now, now + expiry⟩

/-- `lookup_terminal`. -/
def lookupTerminal (now : Instant) (row : Option TurnRow) : Option TurnRow :=
  row.filter fun r => now < r.expiresAt

/-- `purge_expired`. -/
def purgeExpired (now : Instant) (row : Option TurnRow) : Option TurnRow :=
  row.filter fun r => ¬ r.expiresAt ≤ now

/-! ### The requests -/

/-- Where a request stands. An answer of the look-up comes with the number of rows stored by then. -/
inductive TurnPhase where
  | idle
  | lookup
  | answered (row : Option TurnRow) (stored : Nat)
  | running (attached : Bool)
  | storing (row : TurnRow) (attached : Bool)
  | stored (attached : Bool)
  | done
deriving DecidableEq

/-- What a request has done with the turn. -/
inductive TurnEvent where
  | begun (r : Nat) (at_ : Instant)
  | finished (r : Nat) (expiresAt : Instant)
deriving DecidableEq

/-- The clock, the entry, the row, the requests; the ones that run the turn, with when they began;
the finishes that have still to store their row, with when it expires; the number of rows stored; and
what has been done so far. A finish that stores no row is taken back. -/
structure Turns where
  now : Instant
  inFlight : InFlight
  row : Option TurnRow
  phases : Nat → TurnPhase
  running : List (Nat × Instant)
  pending : List (Nat × Instant)
  stored : Nat
  history : List TurnEvent

/-- Before any request. -/
def Turns.start (now : Instant) (row : Option TurnRow) : Turns :=
  ⟨now, none, row, fun _ => .idle, [], [], 0, []⟩

/-- A step between two awaits of a request, or of the clock, or of the code beside the requests. -/
inductive TurnAction where
  | tick (now : Instant)
  | peek
  | purge
  | arrive (r : Nat)
  | select (r : Nat)
  | resume (r : Nat)
  | detach (r : Nat)
  | finish (r : Nat) (status : TurnStatus) (payload : PyStr)
  | store (r : Nat)
  | storeFails (r : Nat)
  | leave (r : Nat)
  | fail (r : Nat)
  | cancel (r : Nat)

namespace Turns

def setPhase (s : Turns) (r : Nat) (phase : TurnPhase) : Turns :=
  { s with phases := Function.update s.phases r phase }

/-- The release of the id by the route wrapper, or by the run. -/
def release (s : Turns) (releases : Bool) : Turns :=
  if releases then { s with inFlight := abandon s.inFlight } else s

/-- A request leaves without a stored row. -/
def giveUp (s : Turns) (r : Nat) (releases : Bool) : Turns :=
  ({ s.setPhase r .done with
      running := s.running.filter (·.1 ≠ r)
      pending := s.pending.filter (·.1 ≠ r)
      history := s.history.filter fun
        | .begun _ _ => true
        | .finished r' _ => r' ≠ r } : Turns).release releases

/-- The select of `lookup_terminal`. -/
def select (s : Turns) (r : Nat) : Turns :=
  s.setPhase r (.answered (lookupTerminal s.now s.row) s.stored)

/-- What follows the look-up, in one step: a stored turn is replayed, and the wrapper releases the
id; a turn that runs is answered as such, and the id is marked as not ours; else the turn begins. -/
def resume (s : Turns) (r : Nat) (row : Option TurnRow) : Turns :=
  match row with
  | some _ => (s.setPhase r .done).release true
  | none =>
      match runningInfo s.now s.inFlight with
      | (entry, some _) => { s.setPhase r .done with inFlight := entry }
      | (entry, none) =>
          { s.setPhase r (.running true) with
            inFlight := (begin_ s.now entry).1
            running := s.running ++ [(r, s.now)]
            history := s.history ++ [.begun r s.now] }

/-- The synchronous part of `finish`: the entry is taken out before the row is stored. -/
def finish (s : Turns) (r : Nat) (attached : Bool) (status : TurnStatus) (payload : PyStr) : Turns :=
  let row := finishedRow s.now status payload s.inFlight
  { s.setPhase r (.storing row attached) with
    inFlight := none
    running := s.running.filter (·.1 ≠ r)
    pending := s.pending ++ [(r, row.expiresAt)]
    history := s.history ++ [.finished r row.expiresAt] }

/-- The insert or replace of `finish` is committed. -/
def store (s : Turns) (r : Nat) (row : TurnRow) (attached : Bool) : Turns :=
  { s.setPhase r (.stored attached) with
    row := some row
    pending := s.pending.filter (·.1 ≠ r)
    stored := s.stored + 1 }

end Turns

/-- The steps of any number of requests with one turn id. -/
def turnMachine : Machine Turns TurnAction where
  step
    | .tick now, s => if s.now ≤ now then some { s with now := now } else none
    | .peek, s => some { s with inFlight := (runningInfo s.now s.inFlight).1 }
    | .purge, s => some { s with row := purgeExpired s.now s.row }
    | .arrive r, s =>
        match s.phases r with
        | .idle => some (s.setPhase r .lookup)
        | _ => none
    | .select r, s =>
        match s.phases r with
        | .lookup => some (s.select r)
        | _ => none
    | .resume r, s =>
        match s.phases r with
        | .answered row _ => some (s.resume r row)
        | _ => none
    | .detach r, s =>
        match s.phases r with
        | .running true => some (s.setPhase r (.running false))
        | _ => none
    | .finish r status payload, s =>
        match s.phases r with
        | .running attached => some (s.finish r attached status payload)
        | _ => none
    | .store r, s =>
        match s.phases r with
        | .storing row attached => some (s.store r row attached)
        | _ => none
    | .storeFails r, s =>
        match s.phases r with
        | .storing _ attached => some (s.giveUp r attached)
        | _ => none
    | .leave r, s =>
        match s.phases r with
        | .stored attached => some ((s.setPhase r .done).release attached)
        | _ => none
    | .fail r, s =>
        match s.phases r with
        | .running _ => some (s.giveUp r true)
        | _ => none
    | .cancel r, s =>
        match s.phases r with
        | .lookup | .answered _ _ => some (s.giveUp r true)
        | .running attached | .storing _ attached => some (s.giveUp r attached)
        | _ => none

end GhostPour.Chat
