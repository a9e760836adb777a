/-
Module: GhostPour.N400.Checkpoint
Layer: Model
Purpose: The agenda the client sends with a turn, as `app/services/n400_interviewer_guard.py` reads it: one
  node a line, `node_id | Part N: title | field ids | question`. The checkpoint refusal of
  `app/services/n400_interviewer_guard.py`: a response may not claim a part that is still open after it, nor
  one with nothing on file. `none` is an exception that escapes; the inner option is the refusal.
Trusted boundary: human-reviewed spec
Main exports: agendaFieldIds, agendaQuestions, agendaLines, agendaParts, agendaCarriesOath, deferralOrigin,
  idsSettled, mootNodes, checkpointIsRefused
-/
import GhostPour.Library.PyValue
import GhostPour.Library.Regex

namespace GhostPour.N400

/-- `s or ""` of an optional string. -/
def orEmpty (s : Option PyStr) : PyStr := s.getD []

/-- The stripped columns of the lines of an agenda that parse. -/
def agendaColumns (agenda : Option PyStr) : List (List PyStr) :=
  ((splitlines (orEmpty agenda)).map fun raw => (splitAt '|' raw).map strip).filter fun cols =>
    4 ≤ cols.length && cols.head? != some []

/-- A column of a line. -/
def column (cols : List PyStr) (n : Nat) : PyStr := cols.getD n []

/-- `{f.strip() for f in column.split(",") if f.strip()}`, in order. -/
def idSet (text : PyStr) : List PyStr :=
  (((splitAt ',' text).map strip).filter (· != [])).dedup

/-- `agenda_field_ids`. -/
def agendaFieldIds (agenda : Option PyStr) : Assoc (List PyStr) :=
  (agendaColumns agenda).foldl (fun out cols =>
    if idSet (column cols 2) = [] then out
    else out.set (column cols 0) (idSet (column cols 2))) []

/-- `agenda_questions`. -/
def agendaQuestions (agenda : Option PyStr) : Assoc PyStr :=
  (agendaColumns agenda).foldl (fun out cols => out.set (column cols 0) (column cols 3)) []

/-- `_agenda_lines`. -/
def agendaLines (agenda : Option PyStr) : List (PyStr × List PyStr × PyStr) :=
  (agendaColumns agenda).map fun cols => (column cols 0, idSet (column cols 2), column cols 3)

section
variable [PyRuntime]

/-- The number of the part a column names, `Part\s+(\d+)\b`. -/
def partNumber (text : PyStr) : Option Nat :=
  (Regex.matchStart (Regex.seqs [Regex.lit "Part".toList, .plus .space, .group 1 (.plus .digit),
    .bound]) text).bind fun m => (m.group 1).bind natOfDecimals

/-- `agenda_parts`. -/
def agendaParts (agenda : Option PyStr) : Assoc Nat :=
  (agendaColumns agenda).foldl (fun out cols =>
    match partNumber (column cols 1) with
    | some n => out.set (column cols 0) n
    | none => out) []

/-- `agenda_carries_oath`. -/
def agendaCarriesOath (agenda : Option PyStr) : Bool :=
  if orEmpty agenda = [] then false
  else
    (agendaFieldIds agenda).any (fun (node, ids) =>
      isIn (py "oath") (lower node) || ids.any (startsWith (py "p9."))) ||
    (agendaParts agenda).values.any (· == 9)

end

end GhostPour.N400

namespace GhostPour.N400

open Regex

/-! ### What the response itself settles -/

/-- What a deferral says about itself. -/
inductive DeferralOrigin where
  | applicant
  | captureGap
  | unknown
deriving DecidableEq

/-- `deferral_origin`. -/
def deferralOrigin (entry : Json) : DeferralOrigin :=
  match entry with
  | .obj d =>
      if Dict.has d (py "origin") then
        match Dict.get d (py "origin") with
        | .str s =>
            if s = py "applicant" then .applicant
            else if s = py "capture_gap" then .captureGap
            else .unknown
        | _ => .unknown
      else .applicant
  | _ => .applicant

section
variable [PyRuntime]

/-- `_ids_settled_in_this_response`. -/
def idsSettled (turn : Dict) : Py (List PyStr) := do
  let facts ← (turn.get (py "facts")).iterateOrEmpty
  let deferred ← (turn.get (py "deferred")).iterateOrEmpty
  let filed := facts.filter fun f => (f.field "field_id").truthy
  let put := deferred.filter fun d =>
    (d.field "field_id").truthy && deferralOrigin d ≠ .captureGap
  return (filed ++ put).map fun entry => (entry.field "field_id").str'

/-! ### What the response makes unaskable -/

/-- `_GATE_FACT`. -/
def gateFact : Regex :=
  seqs [start, group 1 (.seq (lit "p".toList) (plus digit)), lit ".has_".toList,
    group 2 (plus word), stop]

/-- `_COUNT_FACT`. -/
def countFact : Regex :=
  seqs [start, group 1 (.seq (lit "p".toList) (plus digit)), lit ".total_".toList, plus word, stop]

/-- `_ROW_ID`. -/
def rowId : Regex :=
  seqs [start, group 1 (.seq (lit "p".toList) (plus digit)), lit ".".toList,
    .seq (.set fun x => (97 ≤ x && x ≤ 122) || x == 95)
      (.manyLazy (.set fun x => (97 ≤ x && x ≤ 122) || x == 95)),
    group 2 (plus digit), lit ".".toList]

/-- `_GATE_CLOSED`. -/
def gateClosed : List PyStr := [py "no", py "false", py "none", py "0"]

/-- What a group matched. -/
def groupText (m : Match) (n : Nat) : PyStr := (m.group n).getD []

/-- The field id and the value of a fact, as the gates read them. -/
def gateReading (f : Json) : PyStr × PyStr :=
  ((f.field "field_id").strOrEmpty, lower (strip (f.field "value").strOrEmpty))

/-- One fact of the loop over gates and counts: the gates it closes, the counts it states. -/
def gateStep (found : List PyStr × Assoc Nat) (f : Json) : Py (List PyStr × Assoc Nat) :=
  let (fid, value) := gateReading f
  let gates := match matchStart gateFact fid with
    | some m =>
        if value ∈ gateClosed then found.1 ++ [groupText m 1 ++ (ord '.' :: groupText m 2)]
        else found.1
    | none => found.1
  match matchStart countFact fid with
  | some m =>
      if value ≠ [] ∧ value.all PyRuntime.isDigit then
        (natOfDecimals value).map fun n => (gates, found.2.set (groupText m 1) n)
      else some (gates, found.2)
  | none => some (gates, found.2)

/-- Whether a value is a dict. -/
def isDict : Json → Bool
  | .obj _ => true
  | _ => false

/-- Whether a row of an agenda node is numbered above the stated count. -/
def rowAboveCount (counts : Assoc Nat) (id : PyStr) : Bool :=
  match matchStart rowId id with
  | some m =>
      match counts.get (groupText m 1), natOfDecimals (groupText m 2) with
      | some count, some row => decide (count < row)
      | _, _ => false
  | none => false

/-- `moot_nodes_in_this_response`. -/
def mootNodes (turn : Dict) (agenda : Option PyStr) : Py (List PyStr) := do
  let facts ← (turn.get (py "facts")).iterateOrEmpty
  let (gates, counts) ← (facts.filter isDict).foldlM gateStep ([], [])
  if gates = [] ∧ counts = [] then return []
  return Assoc.keys ((agendaFieldIds agenda).filter fun (_, ids) =>
    gates.any (fun gate => ids.all (startsWith gate)) || ids.all (rowAboveCount counts))

/-! ### The agenda contradiction -/

/-- `CHECKPOINT_CONTRADICTION_REASON`. -/
def checkpointContradictionReason : PyStr :=
  py "section_checkpoint claimed a part whose node is still open on the agenda"

/-- The object of a response, or `none` where the check does not apply. -/
def turnOf (text : PyStr) : Option Dict :=
  match loads text with
  | some (.obj turn) => some turn
  | _ => none

/-- The part a checkpoint claims, with the number it is. -/
def claimedPart (turn : Dict) : Option (Json × Int) :=
  match turn.get (py "section_checkpoint") with
  | .obj cp => ((Dict.get cp (py "part")).asInt).map fun n => (Dict.get cp (py "part"), n)
  | _ => none

/-- The nodes of a part that stay open after the response. -/
def openNodes (agenda : Option PyStr) (part : Int) (settled moot : List PyStr) : List PyStr :=
  sortStrs (Assoc.keys ((agendaParts agenda).filter fun (node, nodePart) =>
    decide (Int.ofNat nodePart = part) &&
      (((agendaFieldIds agenda).get node).getD []).any (· ∉ settled) && node ∉ moot))

/-- `checkpoint_contradicts_agenda`. -/
def checkpointContradictsAgenda (text : PyStr) (agenda : Option PyStr) : Py (Option Json) :=
  match turnOf text with
  | none => some none
  | some turn =>
      match claimedPart turn with
      | none => some none
      | some (part, number) => do
          let settled ← idsSettled turn
          let moot ← mootNodes turn agenda
          let nodes := openNodes agenda number settled moot
          if nodes = [] then return none
          return some (.obj [(py "part", part), (py "open_nodes", .arr (nodes.map .str)),
            (py "code", .str (py "agenda_open")),
            (py "reason", .str checkpointContradictionReason)])

/-! ### Nothing recorded -/

/-- `MENTION_TAG`. -/
def mentionTag : PyStr := py "(mentioned earlier, not yet confirmed)"

/-- `NOTHING_RECORDED_REASON`. -/
def nothingRecordedReason : PyStr :=
  py "section_checkpoint claimed a part with no confirmed fact in KNOWN FACTS"

/-- `_FIELD_LINE`. -/
def fieldLine : Regex :=
  seqs [start, many space,
    group 1 (seqs [lit "p".toList, group 2 (plus digit), lit ".".toList,
      plus (.set fun x => isAsciiAlpha x || isAsciiDigit x || x == 95 || x == 46)]),
    many space, lit ":".toList, many space, group 3 (many dot), stop]

/-- `known_fact_parts`, as the pairs of a part and a field. -/
def knownFactParts (knownFacts : Option PyStr) : List (Nat × PyStr) :=
  (splitlines (orEmpty knownFacts)).filterMap fun line =>
    match matchStart fieldLine line with
    | some m =>
        if isIn mentionTag (groupText m 3) then none
        else (natOfDecimals (groupText m 2)).map fun part => (part, groupText m 1)
    | none => none

/-- The part a field id belongs to, `p(\d+)\.`. -/
def partOfField (fid : PyStr) : Option Nat :=
  (matchStart (seqs [lit "p".toList, group 1 (plus digit), lit ".".toList]) fid).bind fun m =>
    (m.group 1).bind natOfDecimals

/-- `checkpoint_reads_back_nothing`. -/
def checkpointReadsBackNothing (text : PyStr) (knownFacts : Option PyStr) : Py (Option Json) :=
  let parts := (knownFactParts knownFacts).map Prod.fst
  if parts = [] then some none
  else match turnOf text with
  | none => some none
  | some turn =>
      match claimedPart turn with
      | none => some none
      | some (part, number) => do
          let settled ← idsSettled turn
          let recorded := parts ++ settled.filterMap partOfField
          if recorded.any (fun n => decide (Int.ofNat n = number)) then return none
          return some (.obj [(py "part", part),
            (py "recorded_parts", .arr (((recorded.dedup.insertionSort (· ≤ ·))).map fun n => .int n)),
            (py "code", .str (py "no_confirmed_fact")), (py "reason", .str nothingRecordedReason)])

/-- `checkpoint_is_refused`: the agenda contradiction first. -/
def checkpointIsRefused (text : PyStr) (agenda knownFacts : Option PyStr) : Py (Option Json) := do
  match ← checkpointContradictsAgenda text agenda with
  | some info => return some info
  | none => checkpointReadsBackNothing text knownFacts

end

end GhostPour.N400
