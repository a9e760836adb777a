/-
Module: GhostPour.N400.FactGuards
Layer: Model
Purpose: The guards of `app/services/n400_interviewer_guard.py` on the facts a response files: an
  occupation is the work, a probation she never had and a stated trip count are filed from her words,
  and a fact without current evidence, or one that cites a No that pushed back, is taken away.
Trusted boundary: human-reviewed spec
Main exports: fixOccupations, fileProbationNeverHad, closeTripsOnStatedCount,
  dropFactsWithoutCurrentEvidence, dropNoThatPushedBack
-/
import GhostPour.N400.EvidenceSupport
import GhostPour.N400.Guard

namespace GhostPour.N400

open Regex

/-- A fact filed from her own words. -/
def filedFact (fid value cited : PyStr) : Json :=
  .obj [(py "field_id", .str fid), (py "value", .str value), (py "value_type", .str (py "string")),
    (py "provenance", .obj [(py "source", .str (py "user_stated")), (py "confidence", .float (py "0.9")),
      (py "utterance", .str cited)])]

section
variable [PyRuntime]

/-- Whether a fact is for a field: `isinstance(f, dict) and f.get("field_id") == fid`. -/
def isFor (fid : PyStr) (f : Json) : Bool := isDict f && (f.field "field_id").same (.str fid)

/-! ### Occupations -/

/-- `_SELF_EMPLOYED`. -/
def selfEmployed : Regex :=
  seqs [start, many space,
    alts [seqs [litI "self".toList, oneOf "- ", litI "employed".toList],
      litI "por cuenta propia".toList,
      seqs [litI "aut".toList, oneOfI "oó", litI "nom".toList, oneOfI "oa"],
      litI "independiente".toList],
    many space, opt (oneOf ",;:/-"), many space]

/-- `_IDLE_OCCUPATION`. -/
def idleOccupation : Regex :=
  seqs [bound,
    alts [litI "retired".toList, litI "unemployed".toList,
      .seq (litI "jubilad".toList) (oneOfI "oa"), .seq (litI "retirad".toList) (oneOfI "oa"),
      .seq (litI "desemplead".toList) (oneOfI "oa"), litI "homemaker".toList,
      litI "ama de casa".toList, litI "student".toList, litI "estudiante".toList],
    bound]

/-- `_OCCUPATION_FIELD`. -/
def occupationField : Regex :=
  seqs [start, lit "p7.employer".toList, plus digit, lit ".occupation".toList, stop]

/-- The occupations that are on file. -/
def knownOccupations (knownFacts : Option PyStr) : Assoc PyStr :=
  (splitlines (orEmpty knownFacts)).foldl (fun known line =>
    let key := strip (partition ':' line).1
    if (matchStart occupationField key).isSome then known.set key (strip (partition ':' line).2.2)
    else known) []

/-- What becomes of an occupation. -/
inductive OccupationFix where
  | kept
  | dropped (fid reason : PyStr)
  | rewritten (fid value : PyStr)

/-- Whether a value has a job word in it beside the idle ones. -/
def namesWork (value : PyStr) : Bool :=
  sub (plus (.set fun x => isSpace x || (py ",;:/.-").contains x)) [] (sub idleOccupation [] value) != []

/-- An occupation without the self-employed in front, with a capital. -/
def capitalised (rest : PyStr) : PyStr := PyRuntime.upper (rest.take 1) ++ rest.drop 1

/-- The test of `fix_occupations`. -/
def occupationFix (known : Assoc PyStr) (f : Json) : OccupationFix :=
  match f.field "field_id", f.field "value" with
  | .str fid, .str value =>
      let onFile := (known.get fid).getD []
      if (matchStart occupationField fid).isNone then .kept
      else if onFile ≠ [] ∧ found idleOccupation onFile ∧ !startsWith (py "deferred") (lower onFile) ∧
          namesWork value then
        .dropped fid (py "a job word never overwrites a current idle row on file")
      else match matchStart selfEmployed value with
      | none => .kept
      | some m =>
          let rest := strip (value.drop m.stop)
          if rest = [] then
            .dropped fid (py "self-employed is who employs her, not the work")
          else .rewritten fid (capitalised rest)
  | _, _ => .kept

/-- The fact that stays, if one does. -/
def OccupationFix.fact (fix : OccupationFix) (f : Json) : Option Json :=
  match fix, f with
  | .kept, f => some f
  | .dropped _ _, _ => none
  | .rewritten _ value, .obj d => some (.obj (Dict.set d (py "value") (.str value)))
  | .rewritten _ _, f => some f

/-- The entry of a dropped occupation in `facts_dropped`. -/
def OccupationFix.entry : OccupationFix → Option Json
  | .dropped fid reason => some (.obj [(py "field_id", .str fid), (py "reason", .str reason)])
  | _ => none

/-- Whether the fact stays as it is. -/
def OccupationFix.isKept : OccupationFix → Bool
  | .kept => true
  | _ => false

/-- `fix_occupations`. -/
def fixOccupations (knownFacts : Option PyStr) : Guard (List OccupationFix) := fun turn =>
  match turn.get (py "facts") with
  | .arr facts => do
      let fixes := facts.map (occupationFix (knownOccupations knownFacts))
      if fixes.all OccupationFix.isKept then return none
      let kept := turn.set (py "facts") (.arr ((facts.zip fixes).filterMap fun (f, fix) => fix.fact f))
      let dropped := fixes.filterMap OccupationFix.entry
      let marked ← if dropped.isEmpty then pure kept else appendTo kept "facts_dropped" dropped
      return some (marked, fixes.filter fun fix => !fix.isKept)
  | _ => return none

/-! ### Facts filed from her words -/

/-- `_NEVER_HAD`. -/
def neverHad : Regex :=
  seqs [bound,
    alts [litI "never".toList,
      .seq (litI "none of ".toList) (alts [litI "that".toList, litI "those".toList, litI "it".toList]),
      litI "no probation".toList, litI "nunca".toList,
      .seq (litI "ningun".toList) (opt (litI "a".toList)), litI "nada de eso".toList],
    bound]

/-- `_SPEAKS_OF_COMPLETING`. -/
def speaksOfCompleting : Regex :=
  alts [litI "finish".toList, litI "complet".toList, litI "termin".toList, litI "cumpl".toList,
    litI "still on".toList, litI "todav".toList]

/-- The field of a probation that was completed. -/
def probationField : PyStr := py "p9.probation_completed"

/-- Whether the first line of the agenda is the probation question. -/
def asksProbation (agenda : Option PyStr) : Bool :=
  let parts := (splitAt '|' ((splitlines (orEmpty agenda)).headD [])).map strip
  3 ≤ parts.length && parts.getD 2 [] == probationField

/-- The words that say she never had one. -/
def neverHadWords (agenda : Option PyStr) (userContent : PyStr) : Option PyStr :=
  if asksProbation agenda && !found speaksOfCompleting userContent then
    (search neverHad userContent).map fun m => (userContent.take m.stop).drop m.start
  else none

/-- File a fact that no fact of the response is for. -/
def fileFact (fid value cited : PyStr) (turn : Dict) : Option Dict :=
  match turn.get (py "facts") with
  | .arr facts =>
      if facts.any (isFor fid) then none
      else some (turn.set (py "facts") (.arr (facts ++ [filedFact fid value cited])))
  | _ => none

/-- `file_probation_never_had`. -/
def fileProbationNeverHad (agenda userContent : Option PyStr) : Guard PyStr := fun turn =>
  some do
    let cited ← neverHadWords agenda (orEmpty userContent)
    let filed ← fileFact probationField [] cited turn
    return (filed, probationField)

/-- `_TRIP_COUNT_WORDS`. -/
def tripCountWords : Assoc Nat := SpanishNumerals.numberTable
  [("one time", 1), ("un solo viaje", 1), ("one trip", 1), ("only one trip", 1),
    ("twice", 2), ("two times", 2), ("dos veces", 2), ("two trips", 2), ("dos viajes", 2),
    ("three times", 3), ("tres veces", 3), ("three trips", 3), ("tres viajes", 3),
    ("four times", 4), ("cuatro veces", 4), ("four trips", 4), ("cuatro viajes", 4)]

/-- `_TRIP_ROW`. -/
def tripRow : Regex := seqs [start, lit "p8.trip".toList, group 1 (plus digit), lit ".".toList]

/-- Her words as the count is looked for in them. -/
def countText (userContent : PyStr) : PyStr := lower (nfkc userContent)

/-- The longest of the count words, the first of those. -/
def longestWord : List (PyStr × Nat) → Option (PyStr × Nat)
  | [] => none
  | hit :: hits => some (hits.foldl (fun best h => if best.1.length < h.1.length then h else best) hit)

/-- The count her words state, with the words; two different counts are none. -/
def statedTripCount (userContent : PyStr) : Option (PyStr × Nat) :=
  let hits := tripCountWords.filter fun row => saysWord row.1 (countText userContent)
  if (hits.map Prod.snd).dedup.length = 1 then longestWord hits else none

/-- The numbers of the trips that the facts file rows of. -/
def tripRows (facts : List Json) : List Nat :=
  (facts.filter isDict).filterMap fun f =>
    (matchStart tripRow (f.field "field_id").strOrEmpty).bind fun m => natOfDecimals (groupText m 1)

/-- `p8.has_trip{n}`. -/
def tripGate (n : Nat) : PyStr := py "p8.has_trip" ++ strOfNat n

/-- The words that are cited for a count: as many characters from where the folded text has them. -/
def countCitation (userContent word : PyStr) : PyStr :=
  (userContent.drop ((find? word (countText userContent)).getD 0)).take word.length

/-- `close_trips_on_stated_count`. -/
def closeTripsOnStatedCount (userContent : Option PyStr) : Guard (PyStr × Nat) := fun turn =>
  some do
    let (word, count) ← statedTripCount (orEmpty userContent)
    match turn.get (py "facts") with
    | .arr facts =>
        if count ∉ tripRows facts then none
        else
          let filed ← fileFact (tripGate (count + 1)) (py "no")
            (countCitation (orEmpty userContent) word) turn
          return (filed, (tripGate (count + 1), count))
    | _ => none

/-! ### The evidence floor -/

/-- The entry of a fact without evidence. -/
def unsupportedEntry (f : Json) (utterance : PyStr) (pendingLine : Option PyStr) : Json :=
  .obj ([(py "field_id", f.field "field_id"), (py "utterance", .str utterance),
      (py "reason", .str evidenceDropReason)] ++
    if pendingLine.isSome then [(py "pending_support", .bool true)] else [])

/-- The entry and the pending fact, if the fact goes. -/
def unsupportedOf (input : EvidenceInput) (f : Json) : Py (Option (Json × Option Json)) :=
  (evidenceOf input f).map fun evidence =>
    match evidence with
    | .hers => none
    | .unsupported utterance pendingLine =>
        some (unsupportedEntry f utterance pendingLine,
          match pendingLine, f with
          | some line, .obj d => some (.obj (Dict.set d (py "_cited_line") (.str line)))
          | _, _ => none)

/-- `drop_facts_without_current_evidence`; the list of what was dropped is set, not added to. -/
def dropFactsWithoutCurrentEvidence (input : EvidenceInput) : Guard (List Json) := fun turn =>
  match turn.get (py "facts") with
  | .arr facts => do
      let verdicts ← facts.mapM (unsupportedOf input)
      let dropped := (verdicts.filterMap id).map Prod.fst
      let pending := (verdicts.filterMap id).filterMap Prod.snd
      if dropped.isEmpty then return none
      let kept := (turn.set (py "facts") (.arr (keptOf facts verdicts))).set (py "facts_dropped")
        (.arr dropped)
      return some (if pending.isEmpty then kept
        else kept.set (py "facts_pending_support") (.arr pending), dropped)
  | _ => return none

/-! ### A No that pushed back -/

/-- `PUSHBACK_NO_REASON`. -/
def pushbackNoReason : PyStr :=
  py "her No opened a pushback (I told you / I said), so it answers no question"

/-- `_PUSHBACK_NO`. -/
def pushbackNo : Regex :=
  let step := Regex.seq (plus word) (plus space)
  seqs [start, many space, lit "no".toList, bound,
    many (.set fun x => isSpace x || (py ",.!;:").contains x),
    .alt .eps (.seq step (.alt .eps step)),
    alts (["i told you", "i said", "i already", "like i said", "as i said", "i just said", "te dije",
      "le dije", "ya le dije", "ya te dije", "ya dije", "como le dije", "como dije"].map
        fun w => lit w.toList),
    bound]

/-- Her words as the pushback is looked for in them. -/
def pushbackText (userContent : PyStr) : PyStr :=
  squeeze ((fold userContent).map fun c =>
    if (97 ≤ c ∧ c ≤ 122) ∨ isAsciiDigit c ∨ c ∈ py " ,.!;:" then c else 32)

/-- The test of `drop_no_that_pushed_back`. -/
def bareNo (f : Json) : Py (Option Json) :=
  (citedWords f).map fun utt =>
    if (fold utt).filter (fun c => 97 ≤ c && c ≤ 122) = py "no" then
      some (.obj [(py "field_id", f.field "field_id"), (py "utterance", .str utt),
        (py "reason", .str pushbackNoReason)])
    else none

/-- `drop_no_that_pushed_back`. -/
def dropNoThatPushedBack (userContent : Option PyStr) : Guard (List Json) := fun turn =>
  if (matchStart pushbackNo (pushbackText (orEmpty userContent))).isNone then some none
  else dropFacts bareNo id turn

end

end GhostPour.N400
