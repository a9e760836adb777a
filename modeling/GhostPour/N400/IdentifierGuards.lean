/-
Module: GhostPour.N400.IdentifierGuards
Layer: Model
Purpose: What `app/services/n400_interviewer_guard.py` does about identifiers. A run of digits in spoken text
  that nearly misses an identifier filed in the same response is spoken as filed, in every locale of the
  reply; an identifier with the wrong number of digits or with digits she did not say is not filed, and
  the reply then asks for it again.
Trusted boundary: human-reviewed spec
Main exports: identifierFields, digitRun, identifierDigits, correctIdentifierReadback,
  correctIdentifierReadbacks, dropIdentifiersWithWrongDigitCount, dropIdentifiersNotAsSaid,
  reaskDroppedIdentifier
-/
import GhostPour.Library.PyValue
import GhostPour.Library.Regex
import GhostPour.N400.EvidenceSupport
import GhostPour.N400.Guard

namespace GhostPour.N400

open Regex

/-- `IDENTIFIER_FIELDS`. -/
def identifierFields : List PyStr :=
  [py "p2.ssn", py "p1.a_number", py "p2.uscis_account_number", py "p5.spouse_a_number",
    py "p11.daytime_phone", py "p11.mobile_phone"]

/-- `_MIN_IDENTIFIER_DIGITS`. -/
def minIdentifierDigits : Nat := 7

/-- `_MAX_MISSPOKEN_DIGITS`. -/
def maxMisspokenDigits : Nat := 2

section
variable [PyRuntime]

/-- `_DIGIT_RUN`. -/
def digitRun : Regex :=
  .seq digit (plus (.seq (upTo 2 (.set fun x => isSpace x || (py "-.,()").contains x)) digit))

/-- One fact of `_identifier_digits`. -/
def identifierOf (f : Json) : Option (PyStr × PyStr) :=
  match f.field "field_id" with
  | .str id =>
      let digits := onlyDigits (f.field "value").strOrEmpty
      if id ∈ identifierFields ∧ minIdentifierDigits ≤ digits.length then some (id, digits) else none
  | _ => none

/-- `_identifier_digits`. -/
def identifierDigits (facts : Json) : Py (Assoc PyStr) :=
  facts.iterateOrEmpty.map fun facts =>
    facts.foldl (fun out f => match identifierOf f with
      | some (id, digits) => out.set id digits
      | none => out) []

/-- How many digits differ. -/
def digitDistance (a b : PyStr) : Nat := (List.zipWith (fun x y => decide (x ≠ y)) a b).count true

/-- The filed value that a run of digits nearly misses, the first of the nearest. -/
def nearestFiled (filed : Assoc PyStr) (digits : PyStr) : Option (PyStr × Nat × PyStr) :=
  filed.foldl (fun best (id, value) =>
    if value.length = digits.length ∧ digitDistance value digits ≤ maxMisspokenDigits ∧
        best.all (fun b => decide (digitDistance value digits < b.2.1)) then
      some (id, digitDistance value digits, value)
    else best) none

/-- Put the digits of a value into the layout of a run. -/
def fillDigits : PyStr → PyStr → PyStr
  | _, [] => []
  | [], run => run
  | d :: value, c :: run =>
      if PyRuntime.isDigit c then d :: fillDigits value run else c :: fillDigits (d :: value) run

/-- The correction of one run, if it needs one: the field, the digits that differ, the text. -/
def correctRun (filed : Assoc PyStr) (run : PyStr) : Option (PyStr × Nat × PyStr) :=
  if (onlyDigits run).length < minIdentifierDigits ∨ onlyDigits run ∈ filed.values then none
  else (nearestFiled filed (onlyDigits run)).map fun (id, distance, value) =>
    (id, distance, fillDigits value run)

/-- `_DIGIT_RUN.sub(fix, spoken)`. -/
def correctRuns (filed : Assoc PyStr) (spoken : PyStr) : PyStr :=
  subWith digitRun (fun m => ((correctRun filed m.text).map fun c => c.2.2).getD m.text) spoken

/-- The runs that `fix` changes. -/
def correctionsOf (filed : Assoc PyStr) (spoken : PyStr) : List (PyStr × Nat) :=
  (finditer digitRun spoken).filterMap fun m =>
    (correctRun filed m.text).map fun c => (c.1, c.2.1)

/-- `correct_identifier_readback`: the text and the changes. -/
def correctIdentifierReadback (spoken : PyStr) (facts : Json) :
    Py (PyStr × List (PyStr × Nat)) :=
  (identifierDigits facts).map fun filed =>
    if filed = [] then (spoken, []) else (correctRuns filed spoken, correctionsOf filed spoken)

end

end GhostPour.N400

namespace GhostPour.N400

open Regex

/-! ### Tables -/

/-- `IDENTIFIER_DIGIT_COUNTS`. -/
def identifierDigitCounts : Assoc (List Nat) :=
  [(py "p2.ssn", [9]), (py "p2.uscis_account_number", [12]), (py "p1.a_number", [7, 8, 9]),
    (py "p5.spouse_a_number", [7, 8, 9])]

/-- `WRONG_DIGIT_COUNT_REASON`. -/
def wrongDigitCountReason : PyStr := py "identifier has the wrong number of digits for its box"

/-- `NOT_AS_SAID_REASON`. -/
def notAsSaidReason : PyStr := py "identifier digits are not exactly the digits she said"

/-- One language of `_REASK`. -/
structure Reask where
  rules : Assoc PyStr
  names : Assoc PyStr
  count : PyStr → PyStr → PyStr
  same : PyStr → PyStr

/-- The texts of the four identifiers: the SSN, the two A-Numbers, the account number. -/
def identifierTexts (ssn aNumber account : String) : Assoc PyStr :=
  [(py "p2.ssn", py ssn), (py "p1.a_number", py aNumber), (py "p5.spouse_a_number", py aNumber),
    (py "p2.uscis_account_number", py account)]

/-- `_REASK["en"]`. -/
def reaskEn : Reask where
  rules := identifierTexts "Social Security numbers have 9 digits" "A-Numbers have 7 to 9 digits"
    "USCIS online account numbers have 12 digits"
  names := identifierTexts "Social Security number" "A-Number" "USCIS online account number"
  count rule n := rule ++ py ", I heard " ++ n ++ py ", could you say it again?"
  same name := py "I want to be sure I have it exactly right. Could you say the " ++ name ++
    py " again?"

/-- `_REASK["es"]`. -/
def reaskEs : Reask where
  rules := identifierTexts "Los números de Seguro Social tienen 9 dígitos"
    "Los números A tienen de 7 a 9 dígitos"
    "Los números de cuenta en línea de USCIS tienen 12 dígitos"
  names := identifierTexts "número de Seguro Social" "número A"
    "número de cuenta en línea de USCIS"
  count rule n := rule ++ py " y escuché " ++ n ++ py ", ¿me lo puede repetir?"
  same name := py "Quiero estar seguro de tenerlo exacto. ¿Me puede repetir el " ++ name ++ py "?"

/-- `_REASK["pt"]`. -/
def reaskPt : Reask where
  rules := identifierTexts "Os números do Seguro Social têm 9 dígitos"
    "Os números A têm de 7 a 9 dígitos" "Os números de conta online do USCIS têm 12 dígitos"
  names := identifierTexts "número do Seguro Social" "número A" "número de conta online do USCIS"
  count rule n := rule ++ py " e eu ouvi " ++ n ++ py ", pode repetir?"
  same name := py "Quero ter certeza de que está exato. Pode repetir o " ++ name ++ py "?"

/-- An identifier that was filed with the wrong number of digits. -/
structure WrongCount where
  fieldId : PyStr
  digits : Nat
  expected : List Nat

/-- Its entry in `facts_dropped`. -/
def WrongCount.entry (dropped : WrongCount) : Json :=
  .obj [(py "field_id", .str dropped.fieldId), (py "digits", .int dropped.digits),
    (py "expected", .arr (dropped.expected.map fun (n : Nat) => .int n)),
    (py "reason", .str wrongDigitCountReason)]

/-- An identifier that was not filed as she said it: the digits filed and the digits heard. -/
structure NotAsSaid where
  fieldId : PyStr
  digits : Nat
  heard : Nat

/-- Its entry in `facts_dropped`. -/
def NotAsSaid.entry (dropped : NotAsSaid) : Json :=
  .obj [(py "field_id", .str dropped.fieldId), (py "digits", .int dropped.digits),
    (py "heard", .int dropped.heard), (py "reason", .str notAsSaidReason)]

section
variable [PyRuntime]

/-! ### The reply -/

/-- One locale of the reply, with the runs that were changed. -/
def correctMember (facts : Json) (member : PyStr × Json) :
    Py ((PyStr × Json) × List (PyStr × Nat)) :=
  match member.2 with
  | .str spoken => (correctIdentifierReadback spoken facts).map fun fixed =>
      if fixed.2 = [] then (member, []) else ((member.1, .str fixed.1), fixed.2)
  | _ => (identifierDigits facts).map fun _ => (member, [])

/-- `correct_identifier_readbacks`. -/
def correctIdentifierReadbacks : Guard (List (PyStr × Nat)) := fun turn =>
  match turn.get (py "reply") with
  | .obj reply => do
      let fixed ← reply.mapM (correctMember (turn.get (py "facts")))
      let changes := fixed.flatMap Prod.snd
      if changes.isEmpty then return none
      return some (turn.set (py "reply") (.obj (fixed.map Prod.fst)), changes)
  | .str spoken => do
      let (fixed, changes) ← correctIdentifierReadback spoken (turn.get (py "facts"))
      if changes.isEmpty then return none
      return some (turn.set (py "reply") (.str fixed), changes)
  | _ => return none

/-! ### Identifiers that are not filed -/

/-- `value != ""`. -/
def notEmptyText (value : Json) : Bool :=
  match value with
  | .str [] => false
  | _ => true

/-- `IDENTIFIER_DIGIT_COUNTS.get(f.get("field_id"))` of a dict. -/
def wantedDigits (f : Json) : Py (Option (PyStr × List Nat)) :=
  if isDict f then
    match f.field "field_id" with
    | .str fid => some ((identifierDigitCounts.get fid).map fun counts => (fid, counts))
    | v => if v.hashable then some none else none
  else some none

/-- The digits of the value of a fact. -/
def filedDigits (f : Json) : PyStr := onlyDigits (f.field "value").strOrEmpty

/-- The test of `drop_identifiers_with_wrong_digit_count`. -/
def wrongCountOf (f : Json) : Py (Option WrongCount) :=
  (wantedDigits f).map fun wanted =>
    match wanted with
    | some (fid, counts) =>
        if notEmptyText (f.field "value") ∧ (filedDigits f).length ∉ counts then
          some ⟨fid, (filedDigits f).length, counts⟩
        else none
    | none => none

/-- `drop_identifiers_with_wrong_digit_count`. -/
def dropIdentifiersWithWrongDigitCount : Guard (List WrongCount) :=
  dropFacts wrongCountOf WrongCount.entry

/-- `_said_digit_runs`. -/
def saidDigitRuns (cited : PyStr) (locale : Option PyStr) : List PyStr :=
  let runs := ((findall digitRun cited).map onlyDigits).filter fun run =>
    minIdentifierDigits ≤ run.length
  if runs = [] ∧ startsWith (py "es") (lower (orEmpty locale)) then
    let joined := ((SpanishNumerals.readGroups cited).map Prod.snd).flatten
    if minIdentifierDigits ≤ joined.length then [joined] else []
  else runs

/-- The test of `drop_identifiers_not_as_said`. -/
def notAsSaidOf (locale : Option PyStr) (f : Json) : Py (Option NotAsSaid) := do
  match ← wantedDigits f with
  | some (fid, _) =>
      if notEmptyText (f.field "value") then
        let cited ← citedWords f
        match saidDigitRuns cited locale with
        | [] => return none
        | heard :: runs =>
            if filedDigits f ∈ heard :: runs then return none
            return some ⟨fid, (filedDigits f).length, heard.length⟩
      else return none
  | none => return none

/-- `drop_identifiers_not_as_said`. -/
def dropIdentifiersNotAsSaid (locale : Option PyStr) : Guard (List NotAsSaid) :=
  dropFacts (notAsSaidOf locale) NotAsSaid.entry

/-! ### Asking again -/

/-- `_REASK.get((locale or "en").split("-")[0].lower(), _REASK["en"])`. -/
def reaskOf (locale : PyStr) : Reask :=
  let language := lower ((splitAt '-' (if locale = [] then py "en" else locale)).headD [])
  if language = py "es" then reaskEs else if language = py "pt" then reaskPt else reaskEn

/-- `reask_text`. -/
def reaskText (fid : PyStr) (heard : Nat) (locale : PyStr) : PyStr :=
  let t := reaskOf locale
  if heard ∉ (identifierDigitCounts.get fid).getD [] then
    t.count ((t.rules.get fid).getD []) (strOfNat heard)
  else t.same ((t.names.get fid).getD [])

/-- The reply in every locale it had, or in English. -/
def reaskReply (fid : PyStr) (heard : Nat) (reply : Json) : Dict :=
  match reply with
  | .obj (member :: members) =>
      (member :: members).map fun m => (m.1, .str (reaskText fid heard m.1))
  | _ => [(py "en", .str (reaskText fid heard (py "en")))]

/-- What `reask_dropped_identifier` writes on the object. -/
def reaskTurn (fid : PyStr) (heard : Nat) (agenda : Option PyStr) (turn : Dict) : Dict :=
  let spoken := turn.set (py "reply") (.obj (reaskReply fid heard (turn.get (py "reply"))))
  let asked := match (agendaFieldIds agenda).find? fun node => decide (fid ∈ node.2) with
    | some (node, _) => spoken.set (py "asking")
        (.obj [(py "node_id", .str node), (py "field_ids", .arr [.str fid])])
    | none => spoken
  (((asked.set (py "section_checkpoint") .null).set (py "interview_over") (.bool false)).set
    (py "complete") (.bool false)).set (py "identifier_reask")
    (.obj [(py "field_id", .str fid), (py "heard", .int heard)])

/-- `reask_dropped_identifier`, on the first identifier dropped and the digits heard. -/
def reaskDroppedIdentifier (dropped : List (PyStr × Nat)) (agenda : Option PyStr) : Guard Unit :=
  fun turn =>
    match dropped with
    | [] => some none
    | (fid, heard) :: _ => some (some (reaskTurn fid heard agenda turn, ()))

end

end GhostPour.N400
