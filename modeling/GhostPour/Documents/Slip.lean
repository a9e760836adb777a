/-
Module: GhostPour.Documents.Slip
Layer: Model
Purpose: The Slip sheet's rows: for each task, the due dates that somebody spoke and those of earlier
  plan versions, merged by the meeting they belong to, with the runs of equal dates collapsed.
Trusted boundary: the character database behind `str.lower`
Main exports: slipKey, Spoken, commitments, SlipEntry, SlipRow, spokenEntries, plannedEnd,
  byAsOf, slipSequence, slipRow, computeSlip
-/
import GhostPour.Documents.Progress
import GhostPour.Library.PyRuntime
import GhostPour.Library.Table

namespace GhostPour.Documents

variable [PyRuntime]

/-! ### Task identity -/

/-- `[a-z0-9]`. -/
def isKeyChar (c : Nat) : Bool := (97 ≤ c && c ≤ 122) || (48 ≤ c && c ≤ 57)

/-- `re.sub(r"[^a-z0-9]+", " ", s)`: every run of other characters becomes one space. -/
def spaceRuns : Bool → PyStr → PyStr
  | _, [] => []
  | inRun, c :: s =>
      if isKeyChar c then c :: spaceRuns false s
      else if inRun then spaceRuns true s
      else ord ' ' :: spaceRuns true s

/-- `_slip_key`. -/
def slipKey (name : PyStr) : PyStr := strip (spaceRuns false (lower name))

/-! ### What was spoken -/

/-- A commitment that `_commitments` could read. -/
structure Spoken where
  date : Int
  asOf : Option Int
  quote : PyStr
  speaker : PyStr
  reason : PyStr
deriving DecidableEq, Repr

/-- The body of the loop of `_commitments`: a commitment whose date cannot be read is dropped. -/
def Commitment.spoken (c : Commitment) : Option Spoken :=
  c.date.read.map fun when_ =>
    { date := when_, asOf := c.asOf.read, quote := strip c.quote, speaker := strip c.speaker
      reason := strip c.reason }

/-- The order of `c["as_of"]`, for those that have one. -/
def Spoken.asOfLe (a b : Spoken) : Bool := a.asOf.getD 0 ≤ b.asOf.getD 0

/-- `_commitments`: the dated in the order of their meetings, then the others as given. -/
def commitments (t : Item) : List Spoken :=
  let out := t.commitments.filterMap Commitment.spoken
  (out.filter fun c => c.asOf.isSome).mergeSort Spoken.asOfLe ++ out.filter fun c => c.asOf.isNone

/-! ### The merged trail -/

/-- One date of a trail. -/
structure SlipEntry where
  asOf : Option Int
  date : Int
  spoken : Bool
  quote : PyStr
  reason : PyStr
  current : Bool
deriving DecidableEq, Repr

/-- The entry of a spoken date. -/
def Spoken.entry (c : Spoken) : SlipEntry :=
  { asOf := c.asOf, date := c.date, spoken := true, quote := c.quote, reason := c.reason
    current := false }

/-- The loop over the spoken dates: the undated in `seq`, the others by their meeting, where a later
    one replaces an earlier one. -/
def spokenEntries (spoken : List Spoken) : List SlipEntry × Table Int SlipEntry :=
  spoken.foldl
    (fun s c =>
      match c.asOf with
      | none => (s.1 ++ [c.entry], s.2)
      | some day => (s.1, s.2.upsert day c.entry fun _ => c.entry))
    ([], .empty)

/-- The end of a task in an earlier version, on a working day; `none` where a date cannot be read. A
    task without a start is taken to start at its end. -/
def plannedEnd (ht : Item) : Option Int :=
  let start := match ht.rawStart with
    | .absent => ht.rawEnd
    | given => given
  match start.read, ht.rawEnd.read with
  | some s, some e => some (snapSpan s e).finish
  | _, _ => none

/-- The loop over the tasks of a version: the first task of that name decides. -/
def versionEnd (key : PyStr) (ver : Version) : Option Int :=
  (ver.tasks.find? fun ht => ht.kind ≠ .phase ∧ slipKey ht.name = key).bind plannedEnd

/-- `versions`: those with a day, before the plan's own meeting. -/
def versionsBefore (history : List Version) (asOf : DateField) : List (Int × Version) :=
  (history.filterMap fun ver => ver.asOf.read.map fun day => (day, ver)).filter fun v =>
    asOf.read.all fun cur => v.1 < cur

/-- The entry of a date that was planned. -/
def plannedEntry (day date : Int) : SlipEntry :=
  { asOf := some day, date := date, spoken := false, quote := [], reason := [], current := false }

/-- `by_as_of` after the loop over the versions: a day that already has an entry keeps it. -/
def byAsOf (key : PyStr) (versions : List (Int × Version)) (spoken : Table Int SlipEntry) :
    Table Int SlipEntry :=
  versions.foldl
    (fun t v =>
      match versionEnd key v.2 with
      | none => t
      | some date => t.upsert v.1 (plannedEntry v.1 date) id)
    spoken

/-- The entry of the current end. -/
def currentEntry (cur : Int) : SlipEntry :=
  { asOf := none, date := cur, spoken := false, quote := [], reason := [], current := true }

/-- `seq`: the undated spoken dates, the others in the order of their meetings, and the current end
    unless it is already last. -/
def slipSequence (t : Dated) (versions : List (Int × Version)) : List SlipEntry :=
  let spoken := spokenEntries (commitments t.toItem)
  let seq := spoken.1 ++
    (byAsOf (slipKey t.name) versions spoken.2).inOrder.map Prod.snd
  if (seq.getLast?).any fun last => last.date = t.finish then seq
  else seq ++ [currentEntry t.finish]

/-- One row of the sheet. -/
structure SlipRow where
  task : Dated
  baseline : Option Int
  baselineAsOf : Option Int
  baselineSpoken : Bool
  current : Int
  moves : Int
  trail : List SlipEntry
  firstTracked : Bool
  spokenAny : Bool
deriving DecidableEq, Repr

/-- The body of the loop over the tasks; a date that repeats the one before is no change. -/
def slipRow (t : Dated) (versions : List (Int × Version)) : SlipRow :=
  let seq := slipSequence t versions
  let changes := seq.destutter fun a b => b.date ≠ a.date
  { task := t
    baseline := changes.head?.map (·.date)
    baselineAsOf := changes.head?.bind (·.asOf)
    baselineSpoken := changes.head?.any (·.spoken)
    current := t.finish
    moves := changes.length - 1
    trail := changes
    firstTracked := seq.length = 1
    spokenAny := changes.any (·.spoken) }

/-- `_compute_slip`. -/
def computeSlip (tasks : List Dated) (history : List Version) (asOf : DateField) : List SlipRow :=
  (tasks.filter fun t => t.kind ≠ .phase).map fun t => slipRow t (versionsBefore history asOf)

end GhostPour.Documents
