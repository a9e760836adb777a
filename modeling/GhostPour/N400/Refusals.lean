/-
Module: GhostPour.N400.Refusals
Layer: Model
Purpose: What `app/services/n400_interviewer_guard.py` refuses in a response: a reply that offers to
  change the clause on work of national importance, a row filed so that it certainly ends before it
  starts, and a reply that tells her the application is complete while the agenda has open nodes. What
  is left of a refused response is the mark that says so and, where no retry helped, no checkpoint.
Trusted boundary: human-reviewed spec
Main exports: OathRule, localeRules, sentences, offersImpossibleOathModification, dateSpan, certainlyInverted,
  dateInversions, dropInvertedDates, closingPatterns, closesInWordsWhileAgendaOpen, markTurn,
  dropContradictedCheckpoint, markCheckpointRefused, markImpossibleModification, markClosingWhileOpen,
  markDateInversion
-/
import GhostPour.Library.Json
import GhostPour.Library.Regex
import GhostPour.N400.Checkpoint

namespace GhostPour.N400

open Regex

/-! ### The rules -/

/-- `_WNI_EN`. -/
def wniEn : Regex :=
  alts [litI "work of national importance".toList,
    litI "national importance under civilian direction".toList]

/-- `_WNI_ES`. -/
def wniEs : Regex :=
  alts [litI "trabajo de importancia nacional".toList,
    litI "importancia nacional bajo direcci".toList]

/-- `_WNI_PT`. -/
def wniPt : Regex :=
  alts [seqs [litI "trabalho de import".toList, oneOfI "aâ", litI "ncia nacional".toList],
    seqs [litI "import".toList, oneOfI "aâ", litI "ncia nacional sob dire".toList]]

section
variable [PyRuntime]

/-- `_OFFER_EN`. -/
def offerEn : Regex :=
  alts [seqs [litI "modif".toList, plus word], seqs [litI "exempt".toList, plus word],
    litI "opt out".toList, litI "opting out".toList, seqs [litI "waiv".toList, plus word],
    seqs [litI "leave ".toList, alts [litI "it".toList, litI "that".toList], litI " out".toList],
    litI "get out of".toList, litI "skip that part".toList]

/-- `_OFFER_ES`. -/
def offerEs : Regex :=
  alts [seqs [litI "modificaci".toList, plus word], litI "modificar".toList,
    seqs [litI "exenci".toList, plus word], seqs [litI "exent".toList, plus word],
    litI "eximir".toList, litI "omitir".toList, litI "saltar".toList]

/-- `_OFFER_PT`. -/
def offerPt : Regex :=
  alts [seqs [litI "modifica".toList, plus word], litI "modificar".toList,
    seqs [litI "isen".toList, plus word], litI "omitir".toList, litI "pular".toList,
    litI "deixar de fora".toList]

/-- `_NEG_EN`. -/
def negEn : Regex :=
  alts [litI "no".toList, litI "not".toList, litI "never".toList, litI "cannot".toList,
    litI "can't".toList, litI "isn't".toList, litI "is not".toList, litI "there is no".toList,
    litI "there's no".toList, litI "without".toList]

/-- `_NEG_ES`. -/
def negEs : Regex :=
  alts [litI "no".toList, litI "nunca".toList, seqs [litI "ning".toList, plus word],
    litI "sin".toList, litI "tampoco".toList]

/-- `_NEG_PT`. -/
def negPt : Regex :=
  alts [seqs [litI "n".toList, oneOfI "aã", litI "o".toList], litI "nunca".toList,
    seqs [litI "nenhum".toList, many word], litI "sem".toList]

/-- A locale's rule: the clause, an offer to change it, a negation. -/
structure OathRule where
  locale : PyStr
  wni : Regex
  offer : Regex
  neg : Regex

/-- `_LOCALE_RULES`. -/
def localeRules : List OathRule :=
  [⟨py "en", wniEn, offerEn, negEn⟩, ⟨py "es", wniEs, offerEs, negEs⟩,
    ⟨py "pt", wniPt, offerPt, negPt⟩]

/-- `_NEGATION_GOVERNS_WITHIN`. -/
def negationGovernsWithin : Nat := 24

/-- `_SENTENCE`. -/
def sentenceRegex : Regex := .seq (plus (noneOf ".!?¡¿")) (many (oneOf ".!?"))

/-- `_SENTENCE.findall(spoken)`. -/
def sentences (spoken : PyStr) : List PyStr := findall sentenceRegex spoken

/-- The text in which a negation governs a match. -/
def negationWindow (sentence : PyStr) (start : Nat) : PyStr :=
  (sentence.take start).drop (start - negationGovernsWithin)

/-- Whether a negation governs the offer that starts at a position. -/
def OathRule.governed (rule : OathRule) (sentence : PyStr) (start : Nat) : Bool :=
  found (.seq bound (.seq rule.neg bound)) (negationWindow sentence start)

/-- The offers of a sentence that no negation governs, where the clause is named. -/
def OathRule.offers (rule : OathRule) (sentence : PyStr) : List Match :=
  if found rule.wni sentence then
    (finditer rule.offer sentence).filter fun m => !rule.governed sentence m.start
  else []

/-- `IMPOSSIBLE_MODIFICATION_REASON`. -/
def impossibleModificationReason : PyStr :=
  py "offered a modification of the work-of-national-importance clause, which permits none"

/-- What the check returns on an offer. -/
def offerInfo (rule : OathRule) (sentence : PyStr) (m : Match) : Json :=
  .obj [(py "locale", .str rule.locale), (py "offer", .str m.text),
    (py "sentence", .str ((strip sentence).take 200)), (py "reason", .str impossibleModificationReason)]

/-- The first offer of one sentence. -/
def offerIn (sentence : PyStr) : Option Json :=
  localeRules.findSome? fun rule => (rule.offers sentence).head?.map (offerInfo rule sentence)

/-- `_reply_strings`. -/
def replyStrings (turn : Dict) : List PyStr :=
  match turn.get (py "reply") with
  | .str reply => [reply]
  | .obj reply => reply.filterMap fun m => match m.2 with
      | .str text => some text
      | _ => none
  | _ => []

/-- `offers_impossible_oath_modification`. -/
def offersImpossibleOathModification (text : PyStr) : Option Json :=
  match loads text with
  | some (.obj turn) =>
      (replyStrings turn).findSome? fun spoken => (sentences spoken).findSome? offerIn
  | _ => none

end

end GhostPour.N400

namespace GhostPour.N400

open Regex

section
variable [PyRuntime]

/-- `_DATED_ROW_FIELD`. -/
def datedRowField : Regex :=
  seqs [start,
    group 1 (seqs [lit "p".toList, plus digit, lit ".".toList,
      plus (.set fun x => isAsciiAlpha x || isAsciiDigit x || x == 95)]),
    lit ".".toList, group 2 (.alt (lit "from".toList) (lit "to".toList)), stop]

/-- `_ISO_PREFIX`. -/
def isoPrefix : Regex :=
  seqs [start, many space, group 1 (times 4 digit),
    opt (.seq (lit "-".toList) (group 2 (times 2 digit))),
    opt (.seq (lit "-".toList) (group 3 (times 2 digit))),
    .test fun _ after => after.head?.all fun x => !(isDecimal x || x == 45)]

/-- `calendar.monthrange(year, month)[1]`; year 0 is a leap year. -/
def lastDayOfMonth (year month : Nat) : Nat :=
  if month = 2 then if year % 4 = 0 ∧ (year % 100 ≠ 0 ∨ year % 400 = 0) then 29 else 28
  else if month = 4 ∨ month = 6 ∨ month = 9 ∨ month = 11 then 30
  else 31

/-- `_date_span`: the earliest and the latest date a value can mean. -/
def dateSpan (value : Json) : Option (PyStr × PyStr) :=
  match value with
  | .str s =>
      (matchStart isoPrefix s).bind fun m =>
        let y := groupText m 1
        match m.group 3, m.group 2 with
        | some d, mo =>
            -- a day without a month in front would print the month as None
            let day := y ++ py "-" ++ mo.getD (py "None") ++ py "-" ++ d
            some (day, day)
        | none, some mo =>
            (natOfDecimals mo).bind fun month =>
              if 1 ≤ month ∧ month ≤ 12 then
                some (y ++ py "-" ++ mo ++ py "-01",
                  y ++ py "-" ++ mo ++ py "-" ++
                    strOfNat (lastDayOfMonth ((natOfDecimals y).getD 0) month))
              else none
        | none, none => some (y ++ py "-01-01", y ++ py "-12-31")
  | _ => none

/-- `_known_dated_values`. -/
def knownDatedValues (knownFacts : Option PyStr) : Assoc PyStr :=
  (splitlines (orEmpty knownFacts)).foldl (fun out line =>
    match matchStart fieldLine line with
    | some m =>
        if (matchStart datedRowField (groupText m 1)).isSome then
          out.set (groupText m 1) (strip (groupText m 3))
        else out
    | none => out) []

/-- `_certainly_inverted`. -/
def certainlyInverted (start finish : Json) : Bool :=
  match dateSpan start, dateSpan finish with
  | some s, some e => decide (e.2 < s.1)
  | _, _ => false

/-- `DATE_INVERSION_REASON`. -/
def dateInversionReason : PyStr :=
  py "the date would make this address or job end before it starts, against the other date on " ++
    py "file or in this same answer"

/-- A date that would file its row inverted, and the date it conflicts with. -/
structure Inversion where
  fieldId : PyStr
  value : Json
  otherFieldId : PyStr
  otherValue : Json
  otherSource : PyStr

/-- The entry `date_inversions` returns for it. -/
def Inversion.entry (inversion : Inversion) : Json :=
  .obj [(py "field_id", .str inversion.fieldId), (py "value", inversion.value),
    (py "other_field_id", .str inversion.otherFieldId), (py "other_value", inversion.otherValue),
    (py "other_source", .str inversion.otherSource), (py "reason", .str dateInversionReason)]

/-- Note the date a fact mints for a row. -/
def noteDate (out : Assoc Json) (f : Json) : Assoc Json :=
  match f.field "field_id" with
  | .str fid =>
      if (matchStart datedRowField fid).isSome then out.set fid (f.field "value") else out
  | _ => out

/-- The dates of rows that a response mints. -/
def mintedDates (facts : List Json) : Assoc Json := facts.foldl noteDate []

/-- The other side of a row: in this answer, else on file. -/
def otherSide (minted : Assoc Json) (known : Assoc PyStr) (other : PyStr) :
    Option (Json × PyStr) :=
  match minted.get other with
  | some value => some (value, py "this_answer")
  | none => (known.get other).map fun value => (.str value, py "on_file")

/-- The inversion of one minted date. -/
def inversionOf (minted : Assoc Json) (known : Assoc PyStr) (fid : PyStr) (value : Json) :
    Option Inversion :=
  (matchStart datedRowField fid).bind fun m =>
    let fromSide : Bool := groupText m 2 == py "from"
    let other := groupText m 1 ++ (if fromSide then py ".to" else py ".from")
    (otherSide minted known other).bind fun (otherValue, source) =>
      if (if fromSide then certainlyInverted value otherValue
          else certainlyInverted otherValue value) then
        some ⟨fid, value, other, otherValue, source⟩
      else none

/-- `date_inversions`. -/
def dateInversions (text : PyStr) (knownFacts : Option PyStr) : List Inversion :=
  match turnOf text with
  | some turn =>
      match turn.get (py "facts") with
      | .arr facts =>
          let minted := mintedDates facts
          minted.filterMap fun (fid, value) =>
            inversionOf minted (knownDatedValues knownFacts) fid value
      | _ => []
  | none => []

/-- `f.get("field_id") in ids` for a set of field ids: an unhashable value raises. -/
def fieldIdIn (ids : List PyStr) (f : Json) : Py Bool :=
  match f with
  | .obj d =>
      match Dict.get d (py "field_id") with
      | .str fid => some (decide (fid ∈ ids))
      | v => if v.hashable then some false else none
  | _ => some false

/-- `drop_inverted_dates`. -/
def dropInvertedDates (text : PyStr) (inversions : List Inversion) : Py PyStr :=
  match turnOf text with
  | some turn =>
      match turn.get (py "facts") with
      | .arr facts => do
          let drops ← facts.mapM (fieldIdIn (inversions.map (·.fieldId)))
          let kept := ((facts.zip drops).filter fun f => !f.2).map Prod.fst
          return dumps (.obj (turn.set (py "facts") (.arr kept)))
      | _ => some text
  | none => some text

end

end GhostPour.N400

namespace GhostPour.N400

open Regex

/-- A literal text in any case, from a string. -/
def phrase (text : String) : Regex := litI text.toList

/-- An optional phrase. -/
def maybe (text : String) : Regex := opt (phrase text)

section
variable [PyRuntime]

/-- `_CLOSING_EN`. -/
def closingEn : Regex :=
  seqs [bound,
    alts [
      .seq (phrase "sign and ") (alts [phrase "file", phrase "submit"]),
      phrase "file it yourself",
      phrase "your application is complete",
      seqs [phrase "the ", maybe "whole ", phrase "application is ", maybe "now ",
        phrase "complete"],
      seqs [phrase "that ", alts [phrase "completes", phrase "finishes"], phrase " ",
        alts [phrase "the", phrase "your"], phrase " ", maybe "whole ", phrase "application"],
      seqs [phrase "we", alts [phrase "'re", phrase " are"], phrase " ", maybe "all ",
        alts [phrase "done", phrase "finished"]],
      seqs [phrase "you can ", maybe "now ",
        alts [phrase "sign", phrase "file", phrase "submit"], phrase " ",
        alts [phrase "it", phrase "the application"]]],
    bound]

/-- `_CLOSING_ES`. -/
def closingEs : Regex :=
  alts [
    phrase "queda completa toda la solicitud",
    seqs [phrase "la solicitud ", maybe "ya ",
      alts [phrase "queda", .seq (phrase "est") (oneOfI "áa")], phrase " completa"],
    seqs [phrase "toda la solicitud est", oneOfI "áa", phrase " completa"],
    phrase "la firma y la presenta",
    phrase "firmarla y presentarla",
    seqs [phrase "ya ", maybe "hemos ", phrase "terminamos"],
    seqs [phrase "ya ", maybe "hemos ", phrase "terminado"],
    seqs [phrase "ya puede ", alts [phrase "firmar", phrase "presentar"]]]

/-- `_CLOSING_PT`. -/
def closingPt : Regex :=
  alts [
    seqs [phrase "o pedido ", opt (seqs [phrase "j", oneOfI "áa", phrase " "]), phrase "est",
      oneOfI "áa", phrase " completo"],
    seqs [phrase "toda a solicita", oneOfI "çc", oneOfI "ãa", phrase "o est", oneOfI "áa",
      phrase " completa"],
    seqs [phrase "assinar e ", alts [phrase "enviar", phrase "apresentar"]],
    seqs [phrase "j", oneOfI "áa", phrase " terminamos"],
    seqs [phrase "voc", oneOfI "êe", phrase " j", oneOfI "áa", phrase " pode ",
      alts [phrase "assinar", phrase "enviar"]]]

/-- `_CLOSING`. -/
def closingPatterns : List (PyStr × Regex) :=
  [(py "en", closingEn), (py "es", closingEs), (py "pt", closingPt)]

/-- `CLOSING_WHILE_OPEN_REASON`. -/
def closingWhileOpenReason : PyStr :=
  py "the reply told her the application was complete, or to sign and file it, on a turn where " ++
    py "the agenda still had open nodes"

/-- What the check returns on a phrase. -/
def closingInfo (agenda : Option PyStr) (locale : PyStr) (m : Match) : Json :=
  .obj [(py "locale", .str locale), (py "phrase", .str m.text),
    (py "open_nodes", .arr ((sortStrs (agendaFieldIds agenda).keys).map .str)),
    (py "reason", .str closingWhileOpenReason)]

/-- `closes_in_words_while_agenda_open`. -/
def closesInWordsWhileAgendaOpen (text : PyStr) (agenda : Option PyStr) : Option Json :=
  if agendaFieldIds agenda = [] then none
  else match loads text with
  | some (.obj turn) =>
      (replyStrings turn).findSome? fun spoken =>
        closingPatterns.findSome? fun (locale, pattern) =>
          (search pattern spoken).map (closingInfo agenda locale)
  | _ => none

end

end GhostPour.N400

namespace GhostPour.N400

section
variable [PyRuntime]

/-- Set one key of a response that is an object; any other text stays as it is. -/
def markTurn (key : String) (mark : Json) (text : PyStr) : PyStr :=
  match turnOf text with
  | some turn => dumps (.obj (turn.set (py key) mark))
  | none => text

/-- The mark of a refusal: some of what its check returned, and how the retry went. -/
def refusalMark (info : Json) (keys : List String) (resolved : Bool) : Json :=
  .obj (keys.map (fun key => (py key, info.field key)) ++
    [(py "retried", .bool true), (py "resolved", .bool resolved)])

/-- `mark_checkpoint_refused`. -/
def markCheckpointRefused (info : Json) (resolved : Bool) (text : PyStr) : PyStr :=
  markTurn "checkpoint_refused" (refusalMark info ["part", "code", "reason"] resolved) text

/-- `mark_impossible_modification`. -/
def markImpossibleModification (info : Json) (resolved : Bool) (text : PyStr) : PyStr :=
  markTurn "impossible_oath_modification"
    (refusalMark info ["locale", "offer", "sentence", "reason"] resolved) text

/-- `mark_closing_while_open`. -/
def markClosingWhileOpen (info : Json) (resolved : Bool) (text : PyStr) : PyStr :=
  markTurn "closed_in_words_while_open"
    (refusalMark info ["locale", "phrase", "open_nodes", "reason"] resolved) text

/-- `mark_date_inversion`. -/
def markDateInversion (inversions : List Inversion) (resolved : Bool) (text : PyStr) : PyStr :=
  markTurn "date_inversion_refused"
    (.obj [(py "inversions", .arr (inversions.map Inversion.entry)), (py "retried", .bool true),
      (py "resolved", .bool resolved)]) text

/-- `drop_contradicted_checkpoint`. -/
def dropContradictedCheckpoint (text : PyStr) (agenda : Option PyStr) :
    Py (PyStr × Option Json) := do
  match ← checkpointContradictsAgenda text agenda with
  | none => return (text, none)
  | some info =>
      match turnOf text with
      | none => none
      | some turn =>
          return (dumps (.obj ((turn.set (py "section_checkpoint") .null).set
            (py "checkpoint_dropped") info)), some info)

end

end GhostPour.N400
