/-
Module: GhostPour.N400.EvidenceSupport
Layer: Model
Purpose: The evidence floor of `app/services/n400_interviewer_guard.py`: what makes a fact hers. The words it
  cites are in what she just said, or it is carried from an earlier line, or it is a name put together from
  two, or a date given in two pieces. `none` is an exception that escapes. `restore_supported_carried_facts`
  of `app/services/n400_evidence_support.py`: the facts that the evidence floor set aside, which go back where
  the judge says that her words support them. What the judge answers is input, and what it is sent is left
  out. An exception keeps what was appended by then and drops nothing.
Trusted boundary: human-reviewed spec
Main exports: citedWords, statePaired, freeTextCarried, splitDateSaid, nameWordsSaid, EvidenceInput, Evidence,
  evidenceOf, PyFloats, choiceCatalogue, isCandidate, readAnswer, restoreEach, keptRecords, restoreTurn,
  restoreSupportedCarriedFacts
-/
import GhostPour.Library.JsonCanonical
import GhostPour.N400.MarkGuards
import GhostPour.N400.SpokenDates

namespace GhostPour.N400

open Regex

/-! ### Tables -/

/-- `_US_STATES`. -/
def usStates : Assoc PyStr :=
  [("AL", "alabama"), ("AK", "alaska"), ("AZ", "arizona"), ("AR", "arkansas"), ("CA", "california"),
    ("CO", "colorado"), ("CT", "connecticut"), ("DE", "delaware"), ("FL", "florida"),
    ("GA", "georgia"), ("HI", "hawaii"), ("ID", "idaho"), ("IL", "illinois"), ("IN", "indiana"),
    ("IA", "iowa"), ("KS", "kansas"), ("KY", "kentucky"), ("LA", "louisiana"), ("ME", "maine"),
    ("MD", "maryland"), ("MA", "massachusetts"), ("MI", "michigan"), ("MN", "minnesota"),
    ("MS", "mississippi"), ("MO", "missouri"), ("MT", "montana"), ("NE", "nebraska"),
    ("NV", "nevada"), ("NH", "new hampshire"), ("NJ", "new jersey"), ("NM", "new mexico"),
    ("NY", "new york"), ("NC", "north carolina"), ("ND", "north dakota"), ("OH", "ohio"),
    ("OK", "oklahoma"), ("OR", "oregon"), ("PA", "pennsylvania"), ("RI", "rhode island"),
    ("SC", "south carolina"), ("SD", "south dakota"), ("TN", "tennessee"), ("TX", "texas"),
    ("UT", "utah"), ("VT", "vermont"), ("VA", "virginia"), ("WA", "washington"),
    ("WV", "west virginia"), ("WI", "wisconsin"), ("WY", "wyoming"),
    ("DC", "district of columbia")].map fun row => (py row.1, py row.2)

/-- `_NOT_A_CITY_WORD`. -/
def notACityWord : List PyStr :=
  ["all", "too", "also", "the", "it", "its", "in", "and", "same", "there", "here", "yeah", "yes",
    "was", "is", "that", "one", "both", "todo", "todos", "tambien", "en", "el", "la"].map py

/-- `FREE_TEXT_SUFFIXES`. -/
def freeTextSuffixes : List PyStr :=
  [".occupation", ".employer_name", ".explain", ".offense", ".outcome", ".sentence", ".reason"].map py

/-- `FREE_TEXT_FIELDS`. -/
def freeTextFields : List PyStr := [py "p1.eligibility_other"]

/-- `EVIDENCE_DROP_REASON`. -/
def evidenceDropReason : PyStr := py "provenance.utterance is not in what the applicant just said"

section
variable [PyRuntime]

/-! ### What a fact cites -/

/-- `(f.get("provenance") or {}).get("utterance") or ""` of a dict, and no words of anything else. A
provenance that is not a dict has no `get`, and words that are not a string cannot be compared. -/
def citedWords (f : Json) : Py PyStr :=
  match f with
  | .obj d =>
      let provenance := Dict.get d (py "provenance")
      if provenance.truthy then
        match provenance with
        | .obj p =>
            let utterance := Dict.get p (py "utterance")
            if utterance.truthy then
              match utterance with
              | .str s => some s
              | _ => none
            else some []
        | _ => none
      else some []
  | _ => some []

/-- `fid in ids`, for the sets of a list one after the other: a value that cannot be hashed raises at
the first. -/
def anyIdIn (fid : Json) (sets : List (List PyStr)) : Py Bool :=
  match fid with
  | .str s => some (sets.any (s ∈ ·))
  | v => if sets = [] ∨ v.hashable then some false else none

/-! ### A state with its city -/

/-- `_state_paired`. -/
def statePaired (f : Json) (value cited : PyStr) (lines : List PyStr) : Bool :=
  if !endsWith (py ".state") (f.field "field_id").strOrEmpty then false
  else match usStates.get (PyRuntime.upper (strip value)) with
  | none => false
  | some name =>
      let city := (findall letters (fold cited)).filter fun w =>
        2 < w.length && decide (w ∉ notACityWord)
      if city = [] then false
      else lines.any fun line =>
        city.all (saysWord · (fold line)) &&
          (saysWord name (fold line) || saysWord (lower (strip value)) (fold line))

/-! ### Free text in another language -/

/-- `is_free_text_field`. -/
def isFreeTextField (fid : PyStr) : Bool :=
  decide (fid ∈ freeTextFields) || freeTextSuffixes.any (endsWith · fid)

/-- `_free_text_carried`. -/
def freeTextCarried (f : Json) (cited said : PyStr) (earlier : List PyStr) (agenda : Option PyStr)
    (locale lineIds : Option PyStr) : Bool :=
  match f.field "field_id" with
  | .str fid =>
      if !isFreeTextField fid || orEmpty locale == [] ||
          startsWith (py "en") (lower (orEmpty locale)) then false
      else
        let entries := lineFieldIds lineIds
        let known := if entries ≠ [] ∧ entries.length = earlier.length then
            (earlier.zip entries).filterMap fun (line, ids) => if isIn cited line then ids else none
          else []
        if known.any (fid ∈ ·) then true
        -- her line answered some other field
        else if known ≠ [] then false
        else match (linesBefore said earlier).getLast? with
        | none => false
        | some prior => isIn cited prior && (agendaFieldIds agenda).values.any (fid ∈ ·)
  | _ => false

/-! ### A date in two pieces -/

/-- `_CITE_PIECES`. -/
def citePieces : Regex := plus (noneOf ".!?;")

/-- Whether the lines of the citation belong to the date: the fields they answered say so, or,
without those, the agenda still holds the field. -/
def dateLinesTagged (fid : Json) (said : PyStr) (earlier : List PyStr) (agenda lineIds : Option PyStr) :
    Py Bool :=
  let entries := lineFieldIds lineIds
  let tagged :=
    if entries ≠ [] ∧ entries.length = earlier.length ∧ earlier.getLast? = some said then
      (entries.reverse.take 2).filterMap id
    else []
  if tagged ≠ [] then anyIdIn fid tagged else anyIdIn fid (agendaFieldIds agenda).values

/-- `_split_date_said`. -/
def splitDateSaid (f : Json) (utt said : PyStr) (earlier : List PyStr) (agenda lineIds : Option PyStr) :
    Py Bool :=
  let value := (f.field "value").strOrEmpty
  if !isDict f || (fullmatch monthDate value).isNone then some false
  else match (linesBefore said earlier).getLast? with
  | none => some false
  | some prev =>
      let pieces := ((findall citePieces utt).map normText).filter (· != [])
      if pieces = [] ∨ !pieces.all (fun x => isIn x prev || isIn x said) then some false
      else (dateLinesTagged (f.field "field_id") said earlier agenda lineIds).map fun tagged =>
        tagged && dateSaid value (prev ++ py " " ++ said)

/-! ### Names -/

/-- `(?:first|middle|last)_name`. -/
def nameOf (kinds : List String) : Regex :=
  .seq (alts (kinds.map fun w => lit w.toList)) (lit "_name".toList)

/-- `_PERSON_NAME_FIELD`. -/
def personNameField : Regex :=
  let parts := nameOf ["first", "middle", "last"]
  seqs [.alt start (lit ".".toList),
    alts [seqs [lit "child".toList, plus digit, lit ".child_name".toList],
      .seq (opt (lit "spouse_".toList)) parts,
      seqs [lit "other_name".toList, plus digit, lit "_".toList, parts],
      .seq (lit "spouse_".toList) parts],
    stop]

/-- `_SPELLED_NAME_FIELD`. -/
def spelledNameField : Regex :=
  alts [.seq (nameOf ["first", "middle", "last", "family", "given"]) stop,
    .seq (lit "child_name".toList) stop, .seq (lit "head_of_household_name".toList) stop]

/-- `_SPELL_SEP`. -/
def spellSep : Regex := plus (.set fun x => isSpace x || (py ",.-").contains x || x == 0x2011)

/-- One token of `_spelled_runs`: the runs so far and the letters of the current one. -/
def spellStep (state : List PyStr × PyStr) (tok : PyStr) : List PyStr × PyStr :=
  if tok.length = 1 ∧ tok.all isAlpha then (state.1, state.2 ++ tok)
  else (if state.2 = [] then state.1 else state.1 ++ [state.2], [])

/-- `_spelled_runs`: the words that runs of single letters spell. -/
def spelledRuns (line : PyStr) : List PyStr :=
  let ended := (split spellSep (fold line)).foldl spellStep ([], [])
  if ended.2 = [] then ended.1 else ended.1 ++ [ended.2]

/-- `_name_words_said`. -/
def nameWordsSaid (f : Json) (citedLine : Option PyStr) (said : PyStr) : Bool :=
  let fid := (f.field "field_id").strOrEmpty
  let worded := found personNameField fid
  let spelledOk := found spelledNameField fid
  if !isDict f || !(worded || spelledOk) then false
  else
    let value := fold (f.field "value").strOrEmpty
    let parts := findall (plus word) value
    if parts = [] then false
    else
      let source := findall (plus word) (fold (orEmpty citedLine ++ py " " ++ said))
      if !spelledOk then parts.all (· ∈ source)
      else
        let runs := spelledRuns (orEmpty citedLine) ++ spelledRuns said
        let joined := value.filter fun c => !(isSpace c || (py "-'").contains c || c == 0x2019)
        decide (joined ∈ runs) ||
          parts.all fun w => (worded && decide (w ∈ source)) || decide (w ∈ runs)

/-! ### The floor -/

/-- What the floor reads besides the facts. -/
structure EvidenceInput where
  userContent : PyStr
  conversation : Option PyStr
  agenda : Option PyStr
  locale : Option PyStr
  lineIds : Option PyStr

/-- What she just said, normalised. -/
def EvidenceInput.said (input : EvidenceInput) : PyStr := normText input.userContent

/-- Her lines, normalised. -/
def EvidenceInput.earlier (input : EvidenceInput) : List PyStr := applicantSaid input.conversation

/-- The outcome for one fact: its words are hers, or they are not, and then the earlier line that
holds them where the value still waits for support. -/
inductive Evidence where
  | hers
  | unsupported (utterance : PyStr) (pendingLine : Option PyStr)

/-- Whether a fact is carried from an earlier line of hers. -/
def carriedForward (input : EvidenceInput) (f : Json) (cited value : PyStr)
    (citedLine : Option PyStr) : Bool :=
  cited != [] && value != [] && citedLine.isSome &&
    (isIn value cited || dateSaid value cited ||
      statePaired f value cited (input.earlier ++ [input.said]) ||
      freeTextCarried f cited input.said input.earlier input.agenda input.locale input.lineIds)

/-- The test `drop_facts_without_current_evidence` makes of one fact. -/
def evidenceOf (input : EvidenceInput) (f : Json) : Py Evidence := do
  let utt ← citedWords f
  let cited := normText utt
  let value := if isDict f then normText (f.field "value").str' else []
  let citedLine := if cited = [] then none else input.earlier.find? (isIn cited)
  let waiting := if value ≠ [] ∧ !isIn value cited then citedLine else none
  if utt = [] then return .unsupported utt waiting
  if isIn cited input.said || carriedForward input f cited value citedLine ||
      nameWordsSaid f citedLine input.said then return .hers
  if ← splitDateSaid f utt input.said input.earlier input.agenda input.lineIds then return .hers
  return .unsupported utt waiting

end

end GhostPour.N400

namespace GhostPour.N400

/-! ### Floats -/

/-- What Python does with floats, each the text `json.dumps` gives it. -/
class PyFloats [PyRuntime] where
  /-- `float(s)` of a string. -/
  ofStr : PyStr → Py PyStr
  /-- `float(n)` of an integer, which may overflow. -/
  ofInt : Int → Py PyStr
  /-- `x >= y`. -/
  ge : PyStr → PyStr → Bool
  /-- `round(x, 3)`. -/
  round3 : PyStr → PyStr
  /-- A float that compares with another one rounds to one that `dumps` can write. -/
  round3_canonical : ∀ x y, ge x y = true → (Json.float (round3 x)).Canonical

section
variable [PyRuntime] [PyFloats]

/-- `float(v)`. -/
def floatOf : Json → Py PyStr
  | .bool b => some (if b then py "1.0" else py "0.0")
  | .int n => PyFloats.ofInt n
  | .float text => some text
  | .str s => PyFloats.ofStr s
  | _ => none

end

section
variable [PyRuntime]

/-! ### What may go back -/

/-- `MAX_FACTS_PER_TURN`. -/
def maxFactsPerTurn : Nat := 8

/-- `CONFIDENCE_FLOOR`. -/
def confidenceFloor : PyStr := py "0.5"

/-- `RESTORED_REASON`. -/
def restoredReason : PyStr := py "her earlier words support this option (Jev)"

/-- `choice_catalogue`: the options of a field are sorted. -/
def choiceCatalogue (choiceFields : Json) : Assoc (List PyStr) :=
  (catalogueFieldOptions choiceFields).map fun entry => (entry.1, sortStrs entry.2)

/-- `next((n for n, ids in fields.items() if fid in ids), None)`. -/
def nodeOfField (fields : Assoc (List PyStr)) (fid : Json) : Py (Option PyStr) :=
  if fields = [] then some none
  else
    match fid with
    | .str s => some ((fields.find? fun entry => entry.2.contains s).map Prod.fst)
    | _ => if fid.hashable then some none else none

/-- The options of a field: of the catalogue where there is one, else of its node. -/
def optionsOf (catalogue options : Assoc (List PyStr)) (fid : Json) (node : Option PyStr) :
    Py (List PyStr) :=
  if catalogue = [] then some (((node.bind options.get).map sortStrs).getD [])
  else
    match fid with
    | .str s => some ((catalogue.get s).getD [])
    | _ => if fid.hashable then some [] else none

/-- Whether a pending fact is put to the judge: its value is an option of its field, and the response
does not defer the field. -/
def isCandidate (agenda : Option PyStr) (choiceFields : Json) (deferred : List Json) (f : Json) :
    Py Bool :=
  match f with
  | .obj members => do
      let fid := Dict.get members (py "field_id")
      let value := lower (strip (Dict.get members (py "value")).strOrEmpty)
      let node ← nodeOfField (agendaFieldIds agenda) fid
      let options ← optionsOf (choiceCatalogue choiceFields) (agendaOptions agenda) fid node
      if options = [] ∨ value ∉ options ∨ deferred.any (Json.sameKey fid) then return false
      let provenance := Dict.get members (py "provenance")
      -- its words are read for the judge
      if provenance.truthy && !isDict provenance then none else return true
  | _ => none

/-- The candidates among the first pending facts, in order. -/
def candidatesOf (agenda : Option PyStr) (choiceFields : Json) (turn : Dict) (pending : Json) :
    Py (List Json) := do
  let deferred ← (turn.get (py "deferred")).iterateOrEmpty.bind fieldIdSet
  match pending with
  | .arr facts =>
      let verdicts ← (facts.take maxFactsPerTurn).mapM (isCandidate agenda choiceFields deferred)
      return (((facts.take maxFactsPerTurn).zip verdicts).filter Prod.snd).map Prod.fst
  | _ => none

/-! ### What the judge says -/

/-- `(body or {}).get("answers") or {}`. -/
def answersOf (body : Option Json) : Py Json :=
  match body with
  | some (.obj members) =>
      let answers := Dict.get members (py "answers")
      some (if answers.truthy then answers else .obj [])
  | some v => if v.truthy then none else some (.obj [])
  | none => some (.obj [])

variable [PyFloats]

/-- The answer for a candidate: the rounded confidence of a fact that is supported, or nothing. -/
def readAnswer (answers : Json) (i : Nat) : Py (Option PyStr) :=
  match answers with
  | .obj members =>
      match Dict.get members (py "f" ++ strOfNat i) with
      | .obj answer =>
          match Dict.get answer (py "choice") with
          | .str choice =>
              if choice = py "supports" then
                let confidence := Dict.get answer (py "confidence")
                (floatOf (if confidence.truthy then confidence else .float (py "0.0"))).map fun conf =>
                  if PyFloats.ge conf confidenceFloor then some (PyFloats.round3 conf) else none
              else some none
          | _ => some none
      | a => if a.truthy then none else some none
  | _ => none

/-! ### Putting back -/

omit [PyRuntime] [PyFloats] in
/-- The fact without the line it was cited from. -/
def withoutCitedLine (f : Json) : Json :=
  match f with
  | .obj members => .obj (members.filter fun m => m.1 ≠ py "_cited_line")
  | v => v

/-- `turn.setdefault("facts", []).append(fact)`. -/
def appendFact (turn : Dict) (fact : Json) : Py Dict :=
  if turn.has (py "facts") then
    match turn.get (py "facts") with
    | .arr facts => some (turn.set (py "facts") (.arr (facts ++ [fact])))
    | _ => none
  else some (turn.set (py "facts") (.arr [fact]))

/-- The entry of a restored fact. -/
def restoredEntry (f : Json) (confidence : PyStr) : Json :=
  .obj [(py "field_id", f.field "field_id"), (py "value", f.field "value"),
    (py "confidence", .float confidence), (py "reason", .str restoredReason)]

/-- The facts that go back, from an answer on: the turn and the entries so far, and whether every
answer could be read and every fact appended. -/
def restoreEach (answers : Json) : Nat → List Json → Dict × List Json → (Dict × List Json) × Bool
  | _, [], st => (st, true)
  | i, f :: candidates, (turn, restored) =>
      match readAnswer answers i with
      | none => ((turn, restored), false)
      | some none => restoreEach answers (i + 1) candidates (turn, restored)
      | some (some confidence) =>
          match appendFact turn (withoutCitedLine f) with
          | none => ((turn, restored), false)
          | some turn' =>
              restoreEach answers (i + 1) candidates (turn', restored ++ [restoredEntry f confidence])

/-- Whether a drop record stays: it is not that of a field that is back. -/
def recordStays (back : List Json) (d : Json) : Py Bool :=
  match d with
  | .obj members =>
      if (Dict.get members (py "pending_support")).truthy then
        (keyIn (Dict.get members (py "field_id")) back).map not
      else some true
  | _ => none

/-- The drop records that stay. -/
def keptRecords (back : List Json) (records : List Json) : Py (List Json) :=
  (records.mapM (recordStays back)).map fun verdicts =>
    ((records.zip verdicts).filter Prod.snd).map Prod.fst

/-- Note what is back: its drop records go, and the entries are listed. -/
def noteRestored (turn : Dict) (restored : List Json) : Py Dict := do
  let records ← (turn.get (py "facts_dropped")).iterateOrEmpty
  let kept ← keptRecords (restored.map (Json.field · "field_id")) records
  let turn := if kept = [] then turn.del (py "facts_dropped")
    else turn.set (py "facts_dropped") (.arr kept)
  return turn.set (py "facts_restored_by_support") (.arr restored)

/-- The mode and the key of the judge. -/
structure JudgeSettings where
  mode : PyStr
  apiKey : PyStr

/-- What is left of the turn; the pending facts have been taken out of it. -/
def restoreTurn (settings : JudgeSettings) (agenda : Option PyStr) (choiceFields : Json)
    (body : Option Json) (turn : Dict) (pending : Json) : Dict :=
  if settings.mode ≠ py "primary" ∨ settings.apiKey = [] ∨ pending.truthy = false then turn
  else
    match candidatesOf agenda choiceFields turn pending, answersOf body with
    | some candidates, some answers =>
        let ((turn', restored), complete) := restoreEach answers 0 candidates (turn, [])
        if complete = false ∨ restored = [] then turn'
        else (noteRestored turn' restored).getD turn'
    | _, _ => turn

/-- `restore_supported_carried_facts`. -/
def restoreSupportedCarriedFacts (settings : JudgeSettings) (agenda : Option PyStr)
    (choiceFields : Json) (body : Option Json) (text : PyStr) : PyStr :=
  match turnOf text with
  | none => text
  | some turn =>
      if turn.has (py "facts_pending_support") then
        dumps (.obj (restoreTurn settings agenda choiceFields body
          (turn.del (py "facts_pending_support")) (turn.get (py "facts_pending_support"))))
      else text

end

end GhostPour.N400
