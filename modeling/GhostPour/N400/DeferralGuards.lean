/-
Module: GhostPour.N400.DeferralGuards
Layer: Model
Purpose: The guards of `app/services/n400_interviewer_guard.py` on deferrals: a filed value is not
  deferred where her words do not touch it, one field is a fact or a deferral, and a date whose day,
  month or year is not hers becomes a deferral with the part that is.
Trusted boundary: human-reviewed spec
Main exports: dropDeferralsOfFiledValues, markUnknownDeferralOrigins, dropFactsThatAreAlsoDeferred,
  deferDatesWithUnspokenDay, deferDatesOffTheirKnownPartial
-/
import GhostPour.N400.Guard
import GhostPour.N400.SpokenDates

namespace GhostPour.N400

open Regex

section
variable [PyRuntime]

/-! ### Deferrals of filed values -/

/-- `FILED_DEFERRAL_REASON`. -/
def filedDeferralReason : PyStr :=
  py "deferred a field KNOWN FACTS holds filed, on an answer that does not touch it"

/-- `_filed_values`. -/
def filedValues (knownFacts : Option PyStr) : Assoc PyStr :=
  (splitlines (orEmpty knownFacts)).foldl (fun out line =>
    match matchStart fieldLine line with
    | some m =>
        let value := strip (groupText m 3)
        if value = [] ∨ startsWith (py "deferred") (lower value) ∨ isIn mentionTag value then out
        else out.set (groupText m 1) value
    | none => out) []

/-- The fields of the standing node, the first of the agenda. -/
def standingFields (agenda : Option PyStr) : List PyStr :=
  match agendaLines agenda with
  | (_, ids, _) :: _ => ids
  | [] => []

/-- A filed value whose deferral is dropped: neither the standing node nor her words touch it. -/
def strayDeferral (filed : Assoc PyStr) (standing : List PyStr) (said : PyStr) (d : Json) :
    Py (Option (PyStr × PyStr)) :=
  match d.field "field_id" with
  | .str fid =>
      some ((filed.get fid).bind fun value =>
        let named := normText value
        if fid ∈ standing ∨ (named ≠ [] ∧ (isIn named said ∨ dateSaid named said)) then none
        else some (fid, value))
  | v => if v.hashable then some none else none

/-- `drop_deferrals_of_filed_values`. -/
def dropDeferralsOfFiledValues (knownFacts agenda userContent : Option PyStr) :
    Guard (List (PyStr × PyStr)) := fun turn =>
  let filed := filedValues knownFacts
  if filed = [] then some none
  else match turn.get (py "deferred") with
  | .arr deferred => do
      let verdicts ← deferred.mapM
        (strayDeferral filed (standingFields agenda) (normText (orEmpty userContent)))
      let dropped := verdicts.filterMap id
      if dropped.isEmpty then return none
      let entries := dropped.map fun (fid, value) => Json.obj [(py "field_id", .str fid),
        (py "filed_value", .str value), (py "reason", .str filedDeferralReason)]
      return some (← takeAway turn "deferred" (keptOf deferred verdicts) "deferrals_dropped" entries,
        dropped)
  | _ => return none

/-! ### Origins -/

/-- `mark_unknown_deferral_origins`. -/
def markUnknownDeferralOrigins : Guard (List Json) := fun turn => do
  let deferred ← (turn.get (py "deferred")).iterateOrEmpty
  let unknown := (deferred.filter fun d => isDict d && decide (deferralOrigin d = .unknown)).map
    fun d => Json.obj [(py "field_id", d.field "field_id"), (py "origin", d.field "origin")]
  if unknown.isEmpty then return none
  return some (turn.set (py "deferred_origin_unknown") (.arr unknown), unknown)

/-! ### A fact or a deferral -/

/-- `DEFERRAL_STANDS_REASON`. -/
def deferralStandsReason : PyStr :=
  py "the same field was also deferred in this response by the applicant; the deferral stands and " ++
    py "the fact is dropped"

/-- `CAPTURE_GAP_RESOLVED_REASON`. -/
def captureGapResolvedReason : PyStr :=
  py "the same field was captured by a fact in this same response; the capture-gap deferral is " ++
    py "resolved and the fact stands"

/-- The field ids of the deferrals that are, or are not, capture gaps. -/
def deferredIds (captureGap : Bool) (deferred : List Json) : Py (List Json) :=
  fieldIdSet (deferred.filter fun d => decide (deferralOrigin d = .captureGap) == captureGap)

/-- A fact whose deferral stands; only a dict has a value to report. -/
def deferredFact (stands : List Json) (f : Json) : Py (Option Json) := do
  let fid := f.field "field_id"
  if ← keyIn fid stands then
    if isDict f then
      return some (.obj [(py "field_id", fid), (py "value", f.field "value"),
        (py "reason", .str deferralStandsReason)])
    else none
  else return none

/-- A capture gap that a fact of the response resolves. -/
def resolvedGap (captured factIds : List Json) (d : Json) : Py (Option Json) := do
  let fid := d.field "field_id"
  if ← keyIn fid captured then
    if ← keyIn fid factIds then
      return some (.obj [(py "field_id", fid), (py "origin", .str (py "capture_gap")),
        (py "reason", .str captureGapResolvedReason)])
    else return none
  else return none

/-- `drop_facts_that_are_also_deferred`. -/
def dropFactsThatAreAlsoDeferred : Guard (List Json) := fun turn =>
  match turn.get (py "deferred"), turn.get (py "facts") with
  | .arr deferred, .arr facts => do
      if deferred.isEmpty then return none
      let stands ← deferredIds false deferred
      let gaps ← deferredIds true deferred
      let captured := gaps.filter fun fid => !stands.any (Json.sameKey fid)
      let verdicts ← facts.mapM (deferredFact stands)
      let keptFacts := keptOf facts verdicts
      let dropped := verdicts.filterMap id
      let factIds ← fieldIdSet keptFacts
      let gapVerdicts ← deferred.mapM (resolvedGap captured factIds)
      let resolved := gapVerdicts.filterMap id
      if dropped.isEmpty && resolved.isEmpty then return none
      let marked ← takeAway turn "facts" keptFacts "facts_dropped" dropped
      let settled ← takeAway marked "deferred" (keptOf deferred gapVerdicts) "deferred_dropped"
        resolved
      return some (settled, dropped ++ resolved)
  | _, _ => return none

/-! ### Dates that become deferrals -/

/-- A date that is moved: the field, the value it was filed with, and the part that is kept. -/
structure MovedDate where
  fieldId : Json
  value : Json
  partialValue : Json

/-- Its entry among the deferrals. -/
def MovedDate.deferral (reason : PyStr) (moved : MovedDate) : Json :=
  .obj [(py "field_id", moved.fieldId), (py "partial_value", moved.partialValue),
    (py "reason", .str reason)]

/-- Its entry in `facts_dropped`. -/
def MovedDate.entry (reason : PyStr) (moved : MovedDate) : Json :=
  .obj [(py "field_id", moved.fieldId), (py "value", moved.value),
    (py "partial_value", moved.partialValue), (py "reason", .str reason)]

/-- `turn.setdefault("deferred", []).append(_)` for each entry: only a list can be appended to. -/
def appendDeferred (turn : Dict) (entries : List Json) : Py Dict :=
  if entries.isEmpty then some turn
  else if turn.has (py "deferred") then
    match turn.get (py "deferred") with
    | .arr items => some (turn.set (py "deferred") (.arr (items ++ entries)))
    | _ => none
  else some (turn.set (py "deferred") (.arr entries))

/-- Whether a moved date still has to be deferred; an unhashable field id raises. -/
def notDeferredYet (already : List Json) (moved : MovedDate) : Py (Option MovedDate) :=
  (keyIn moved.fieldId already).map fun deferred => if deferred then none else some moved

/-- A guard that turns the dates a test condemns into deferrals. -/
def deferDates (judge : Json → Option MovedDate) (reason : PyStr) : Guard (List Json) := fun turn =>
  match turn.get (py "facts") with
  | .arr facts => do
      let already ← fieldIdSet (← (turn.get (py "deferred")).iterateOrEmpty)
      let verdicts := facts.map judge
      let moved := verdicts.filterMap id
      let deferrals ← moved.mapM (notDeferredYet already)
      let deferred ← appendDeferred turn ((deferrals.filterMap id).map (MovedDate.deferral reason))
      if moved.isEmpty then return none
      let kept := deferred.set (py "facts") (.arr (keptOf facts verdicts))
      let entries := moved.map (MovedDate.entry reason)
      return some (← appendTo kept "facts_dropped" entries, entries)
  | _ => return none

/-- `INVENTED_DAY_REASON`. -/
def inventedDayReason : PyStr :=
  py "the day is not in what the applicant just said; deferring to the month and year"

/-- `_ISO_DAY`. -/
def isoDay : Regex :=
  seqs [start, group 1 (times 4 digit), lit "-".toList, group 2 (times 2 digit), lit "-".toList,
    group 3 (times 2 digit), stop]

/-- JSON of an optional text. -/
def optionalText (s : Option PyStr) : Json := (s.map Json.str).getD .null

/-- The test of `defer_dates_with_unspoken_day`: a full date whose day is not hers. -/
def unspokenDay (said : PyStr) (knownFacts conversation : Option PyStr) (f : Json) :
    Option MovedDate :=
  if !isDict f then none
  else match matchStart isoDay (f.field "value").strOrEmpty with
  | none => none
  | some m =>
      let year := groupText m 1
      let month := groupNat m 2
      let day := groupNat m 3
      if dayWasSpoken day said || (dateCarried year month day said conversation).isSome ||
          (dateConfirmed year month day said conversation knownFacts).isSome then none
      else some ⟨f.field "field_id", f.field "value", optionalText
        (spokenPartial year month said (knownLine knownFacts (f.field "field_id")))⟩

/-- `defer_dates_with_unspoken_day`. -/
def deferDatesWithUnspokenDay (userContent knownFacts conversation : Option PyStr) :
    Guard (List Json) := fun turn =>
  if orEmpty userContent = [] then some none
  else deferDates (unspokenDay (orEmpty userContent) knownFacts conversation) inventedDayReason turn

/-- `OFF_PARTIAL_REASON`. -/
def offPartialReason : PyStr :=
  py "the month or year differs from the partial on file and is not in what she just said"

/-- Whether a date has the year and the month of a partial, or ones she just said. -/
def monthAndYearHers (value known said : PyStr) : Bool :=
  let month := (natOfDecimals ((value.drop 5).take 2)).getD 0
  (value.take 4 == known.take 4 || yearSaid (value.take 4) said) &&
    (known.length == 4 || (value.drop 5).take 2 == (known.drop 5).take 2 ||
      (monthNames month).any (saysWord · said))

/-- The test of `defer_dates_off_their_known_partial`: a date off the partial on file. -/
def offPartial (knownFacts : Option PyStr) (said : PyStr) (f : Json) : Option MovedDate :=
  let value := if isDict f then (f.field "value").strOrEmpty else []
  if (fullmatch monthDate value).isNone then none
  else match knownPartial knownFacts (f.field "field_id") with
  | none => none
  | some known =>
      if startsWith known value || monthAndYearHers value known said then none
      else some ⟨f.field "field_id", .str value, .str known⟩

/-- `defer_dates_off_their_known_partial`. -/
def deferDatesOffTheirKnownPartial (knownFacts userContent : Option PyStr) : Guard (List Json) :=
  fun turn =>
    if orEmpty knownFacts = [] then some none
    else deferDates (offPartial knownFacts (fold (orEmpty userContent))) offPartialReason turn

end

end GhostPour.N400
