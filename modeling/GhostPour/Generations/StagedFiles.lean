/-
Module: GhostPour.Generations.StagedFiles
Layer: Model
Purpose: The staging store: `app/services/generated_files.py`, and what else writes the two tables its cap
  reads, `generated_files` and `generations`: `record_start`, `finish`, `ack` and the sweeps of
  `generation_turns.py`, `merge_into` of `anonymous_merge.py`, `delete_user_data` of
  `account_deletion.py`. Of a wire entry in `files_json` the file id alone is read. Columns that none of
  these statements reads are left out, and so are the bytes on the disk.
Trusted boundary: human-reviewed spec; an id that `uuid4` mints is in use nowhere; `ORDER BY acked_at`
  leaves open how ties are broken; the clock does not go back
Main exports: FileRow, StagedFiles, liveBytesForUser, TurnRow, ackedFileIdsForUser,
  purgeOldestAckedForUser, StageClock, StageCall, StagingStore, StagingStore.stage, StagingAction,
  stagingMachine
-/
import GhostPour.Generations.GenerationTurns
import GhostPour.Library.Sums

namespace GhostPour.Generations

/-! ### The two tables -/

/-- A row of `generated_files`. -/
structure FileRow where
  userId : PyStr
  appId : Option PyStr
  sizeBytes : Nat
  expiresAt : Instant
deriving DecidableEq

/-- `generated_files`, by id. -/
abbrev StagedFiles := Table PyStr FileRow

/-- `PER_USER_LIVE_CAP_BYTES`. -/
def perUserLiveCapBytes : Nat := 50 * 1024 * 1024

/-- A row of the user that has not expired. -/
def FileRow.live (now : Instant) (user : PyStr) (row : FileRow) : Bool :=
  row.userId = user ∧ now < row.expiresAt

/-- `live_bytes_for_user`. -/
def liveBytesForUser (now : Instant) (user : PyStr) (files : StagedFiles) : Nat :=
  sumWhere (fun r => r.2.live now user) (fun r => r.2.sizeBytes) files.rows

/-- A row of `generations`, as far as the staging store depends on it. -/
structure TurnRow where
  appId : Option PyStr
  status : GenerationStatus
  files : List PyStr
  ackedAt : Option Instant
  expiresAt : Instant
deriving DecidableEq

/-- `generations`, by generation id and user. -/
abbrev Turns := Table (PyStr × PyStr) TurnRow

/-- The rows of the user that have been acked. -/
def Turns.acked (turns : Turns) (user : PyStr) : List ((PyStr × PyStr) × TurnRow) :=
  turns.select fun key turn => key.2 = user ∧ turn.ackedAt ≠ none

/-- What `ORDER BY acked_at ASC` may return of them. -/
def Turns.AckOrder (turns : Turns) (user : PyStr) (rows : List ((PyStr × PyStr) × TurnRow)) : Prop :=
  rows.Perm (turns.acked user) ∧
    rows.Pairwise fun r r' => r.2.ackedAt.getD 0 ≤ r'.2.ackedAt.getD 0

instance (turns : Turns) (user : PyStr) (rows : List ((PyStr × PyStr) × TurnRow)) :
    Decidable (turns.AckOrder user rows) :=
  inferInstanceAs (Decidable (_ ∧ _))

/-- `acked_file_ids_for_user`, from the rows its query returns. -/
def ackedFileIdsForUser (rows : List ((PyStr × PyStr) × TurnRow)) : List PyStr :=
  rows.flatMap fun r => r.2.files

/-! ### Staging -/

/-- The loop of `purge_oldest_acked_for_user`, with what it has freed so far. -/
def purgeWalk (user : PyStr) (neededBytes : Int) : List PyStr → Nat → StagedFiles → StagedFiles
  | [], _, files => files
  | fid :: ids, freed, files =>
      match (files.get fid).filter fun row => row.userId = user with
      | none => purgeWalk user neededBytes ids freed files
      | some row =>
          if neededBytes ≤ (freed + row.sizeBytes : Nat) then files.delete fid
          else purgeWalk user neededBytes ids (freed + row.sizeBytes) (files.delete fid)

/-- `purge_oldest_acked_for_user`. -/
def purgeOldestAckedForUser (user : PyStr) (neededBytes : Int) (acked : List PyStr)
    (files : StagedFiles) : StagedFiles :=
  if neededBytes ≤ 0 then files else purgeWalk user neededBytes acked 0 files

/-- The times at which one call of `stage` reads the clock: for the first sum, for the sum in the argument
of the purge, for the last sum, and for the new row. -/
structure StageClock where
  check : Instant
  short : Instant
  recheck : Instant
  created : Instant
  check_le_short : check ≤ short
  short_le_recheck : short ≤ recheck
  recheck_le_created : recheck ≤ created

/-- A call of `stage`: its arguments, the id it mints, its readings of the clock, and the rows that the
query for the acked turns returns, if it comes to it. -/
structure StageCall where
  userId : PyStr
  appId : Option PyStr
  size : Nat
  fileId : PyStr
  clock : StageClock
  acked : List ((PyStr × PyStr) × TurnRow)

/-- How many bytes are missing: `len(content) - (PER_USER_LIVE_CAP_BYTES - live)`. -/
def StageCall.needed (call : StageCall) (files : StagedFiles) : Int :=
  call.size - (perUserLiveCapBytes - liveBytesForUser call.clock.short call.userId files : Int)

/-- The rows after the purge, if there is one. -/
def StageCall.makeRoom (call : StageCall) (files : StagedFiles) : StagedFiles :=
  if perUserLiveCapBytes < liveBytesForUser call.clock.check call.userId files + call.size then
    purgeOldestAckedForUser call.userId (call.needed files) (ackedFileIdsForUser call.acked) files
  else files

/-- Whether the second check refuses the file. -/
def StageCall.refused (call : StageCall) (files : StagedFiles) : Bool :=
  perUserLiveCapBytes <
    liveBytesForUser call.clock.recheck call.userId (call.makeRoom files) + call.size

/-- The new row. -/
def StageCall.row (call : StageCall) : FileRow :=
  ⟨call.userId, call.appId, call.size, call.clock.created + hours 6⟩

/-- `stage` on the table. -/
def StageCall.stage (call : StageCall) (files : StagedFiles) : StagedFiles :=
  if call.refused files then call.makeRoom files
  else (call.makeRoom files).upsert call.fileId call.row fun _ => call.row

/-! ### The store -/

/-- The clock and the tables; the ids that the requests of a user were given and have not recorded yet;
the calls of `extend_expiry` that are still to come. -/
structure StagingStore where
  now : Instant
  files : StagedFiles
  turns : Turns
  held : List (PyStr × PyStr)
  extensions : List (List PyStr × Instant)

/-- A store without rows. -/
def StagingStore.empty (now : Instant) : StagingStore := ⟨now, .empty, .empty, [], []⟩

/-- No row, no turn and no request has the id. -/
def StagingStore.Fresh (s : StagingStore) (fid : PyStr) : Prop :=
  s.files.get fid = none ∧ (∀ h ∈ s.held, h.2 ≠ fid) ∧ ∀ r ∈ s.turns.rows, fid ∉ r.2.files

instance (s : StagingStore) (fid : PyStr) : Decidable (s.Fresh fid) :=
  inferInstanceAs (Decidable (_ ∧ _ ∧ _))

/-- The call can be made here: its id is new, the clock has not gone back, and the rows are what the query
may return. -/
def StagingStore.Admits (s : StagingStore) (call : StageCall) : Prop :=
  s.Fresh call.fileId ∧ s.now ≤ call.clock.check ∧ s.turns.AckOrder call.userId call.acked

instance (s : StagingStore) (call : StageCall) : Decidable (s.Admits call) :=
  inferInstanceAs (Decidable (_ ∧ _ ∧ _))

/-- The statements that change the store, and the clock. -/
inductive StagingAction where
  | tick (now : Instant)
  | stage (call : StageCall)
  | recordStart (user : PyStr) (app : Option PyStr) (generationId : PyStr)
  | finish (user : PyStr) (app : Option PyStr) (generationId : PyStr) (done : Bool)
      (files : List PyStr)
  | extendExpiry (n : Nat)
  | ack (user generationId : PyStr)
  | purgeFiles
  | purgeTurns
  | sweepLostToRestart
  | merge (anon apple : PyStr)
  | deleteUserData (user : PyStr) (app : Option PyStr)

namespace StagingStore

/-- `stage`, run to its end. A file that is staged is held by the request until it records it. -/
def stage (s : StagingStore) (call : StageCall) : StagingStore :=
  { s with
    now := call.clock.created
    files := call.stage s.files
    held := if call.refused s.files then s.held else (call.userId, call.fileId) :: s.held }

/-- `record_start`: `INSERT OR REPLACE`. -/
def recordStart (s : StagingStore) (user : PyStr) (app : Option PyStr) (generationId : PyStr) :
    StagingStore :=
  let row : TurnRow := ⟨app, .running, [], none, s.now + hours 6⟩
  { s with turns := s.turns.upsert (generationId, user) row fun _ => row }

/-- `finish`: the update, or the insert where there is no row. The extension of the staged files follows
in a statement of its own. -/
def finish (s : StagingStore) (user : PyStr) (app : Option PyStr) (generationId : PyStr) (done : Bool)
    (files : List PyStr) : StagingStore :=
  let status : GenerationStatus := if done then .done else .failed
  let expires := s.now + if done then hours (7 * 24) else hours 24
  { s with
    turns := s.turns.upsert (generationId, user) ⟨app, status, files, none, expires⟩ fun row =>
      { row with status := status, files := files, expiresAt := expires }
    held := s.held.filter fun h => h.2 ∉ files
    extensions := if done ∧ files ≠ [] then s.extensions ++ [(files, expires)] else s.extensions }

/-- `extend_expiry`. -/
def extendExpiry (s : StagingStore) (ids : List PyStr) (expires : Instant) : StagedFiles :=
  s.files.updateWhere (fun fid _ => fid ∈ ids) fun row => { row with expiresAt := expires }

/-- `ack`. -/
def ack (s : StagingStore) (user generationId : PyStr) : Turns :=
  s.turns.updateWhere
    (fun key row => key = (generationId, user) ∧ row.ackedAt = none ∧ row.status ≠ .running ∧
      s.now < row.expiresAt)
    fun row => { row with ackedAt := some s.now }

/-- `sweep_lost_to_restart`. -/
def lostToRestart (s : StagingStore) : Turns :=
  s.turns.updateWhere (fun _ row => row.status = .running) fun row =>
    { row with status := .failed, expiresAt := s.now + hours 24 }

end StagingStore

/-- The key of a turn after `UPDATE OR IGNORE generations SET user_id`: a row that would collide stays. -/
def mergedKey (turns : Turns) (anon apple : PyStr) (key : PyStr × PyStr) : PyStr × PyStr :=
  if key.2 = anon ∧ turns.get (key.1, apple) = none then (key.1, apple) else key

/-- Two stored turns do not come to one key. -/
theorem mergedKey_ne {turns : Turns} (anon apple : PyStr) {r r' : (PyStr × PyStr) × TurnRow}
    (stored : r ∈ turns.rows) (stored' : r' ∈ turns.rows) (other : r.1 ≠ r'.1) :
    mergedKey turns anon apple r.1 ≠ mergedKey turns anon apple r'.1 := by
  have here : turns.get r.1 = some r.2 := Table.get_of_mem stored
  have here' : turns.get r'.1 = some r'.2 := Table.get_of_mem stored'
  unfold mergedKey
  by_cases moves : r.1.2 = anon ∧ turns.get (r.1.1, apple) = none
  · by_cases moves' : r'.1.2 = anon ∧ turns.get (r'.1.1, apple) = none
    · rw [if_pos moves, if_pos moves']
      intro same
      exact other (Prod.ext (Prod.mk.inj same).1 (moves.1.trans moves'.1.symm))
    · rw [if_pos moves, if_neg moves']
      intro same
      rw [← same, moves.2] at here'
      cases here'
  · by_cases moves' : r'.1.2 = anon ∧ turns.get (r'.1.1, apple) = none
    · rw [if_neg moves, if_pos moves']
      intro same
      rw [same, moves'.2] at here
      cases here
    · rw [if_neg moves, if_neg moves']
      exact other

/-- `UPDATE OR IGNORE generations SET user_id = apple WHERE user_id = anon`. -/
def mergeTurns (turns : Turns) (anon apple : PyStr) : Turns where
  rows := turns.rows.map fun r => (mergedKey turns anon apple r.1, r.2)
  nodup := by
    have distinct : turns.rows.Pairwise fun r r' => r.1 ≠ r'.1 := List.pairwise_map.mp turns.nodup
    rw [List.map_map, List.Nodup, List.pairwise_map]
    exact distinct.imp_of_mem fun stored stored' => mergedKey_ne anon apple stored stored'

/-- The steps of the store. -/
def stagingMachine : Machine StagingStore StagingAction where
  step
    | .tick now, s => if s.now ≤ now then some { s with now := now } else none
    | .stage call, s => if s.Admits call then some (s.stage call) else none
    | .recordStart user app generationId, s => some (s.recordStart user app generationId)
    | .finish user app generationId done files, s =>
        if files.Nodup ∧ ∀ fid ∈ files, (user, fid) ∈ s.held then
          some (s.finish user app generationId done files)
        else none
    | .extendExpiry n, s =>
        (s.extensions[n]?).map fun e =>
          { s with files := s.extendExpiry e.1 e.2, extensions := s.extensions.eraseIdx n }
    | .ack user generationId, s => some { s with turns := s.ack user generationId }
    | .purgeFiles, s =>
        some { s with files := s.files.deleteWhere fun _ row => row.expiresAt ≤ s.now }
    | .purgeTurns, s =>
        some { s with turns := s.turns.deleteWhere fun _ row => row.expiresAt ≤ s.now }
    | .sweepLostToRestart, s => some { s with turns := s.lostToRestart }
    | .merge anon apple, s =>
        some { s with
          files := s.files.updateWhere (fun _ row => row.userId = anon) fun row =>
            { row with userId := apple }
          turns := mergeTurns s.turns anon apple }
    | .deleteUserData user app, s =>
        some { s with
          files := s.files.deleteWhere fun _ row => row.userId = user ∧ (app = none ∨ row.appId = app)
          turns := s.turns.deleteWhere fun key row => key.2 = user ∧ (app = none ∨ row.appId = app) }

/-- The stores that a run leads to. -/
def StagingStore.Reachable (s : StagingStore) : Prop :=
  ∃ began actions, stagingMachine.run actions (.empty began) = some s

end GhostPour.Generations
