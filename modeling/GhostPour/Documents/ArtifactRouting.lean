/-
Module: GhostPour.Documents.ArtifactRouting
Layer: Model
Purpose: Which lane builds a file (`app/services/artifact_routing.py`): the gates that send an ask to the
  provider or to a template, the lexical scores of the contracts, the choice between them and the classifier's
  reading, and the question that is asked where the two are close. The template hints and refusals are those
  of `match_template` and `ambiguous_plan_ask` in `app/services/doc_templates.py`.
Trusted boundary: a score times 1.8 is compared as a fraction, not as a float
Main exports: Lane, Reason, Route, Ask, scoreContracts, requiresProvider, matchTemplate, ambiguousPlanAsk, route,
  questionFor
-/
import GhostPour.Documents.ArtifactTypes
import GhostPour.Library.Regex

namespace GhostPour.Documents.Artifacts

open Regex

/-! ### Routes -/

/-- `Route.lane`. -/
inductive Lane where
  | provider
  | contract
  | plan
  | template
  | mixed
  | nothing
deriving DecidableEq, Repr

/-- `Route.reason`. -/
inductive Reason where
  | noArtifactMatch
  | notAFileRequest
  | generatedVolume
  | computationOverAttachment
  | formatNotRenderable
  | existingTemplate
  | ambiguousPlanOrArtifact
  | ambiguousPlanVersion
  | ambiguousArtifact
  | contractMatch
  | tabularNoContract
deriving DecidableEq, Repr

/-- `Route`. -/
structure Route where
  lane : Lane
  reason : Reason
  contract : Option PyStr := none
  candidates : List PyStr := []
  offerNoun : PyStr := []
  scores : List (PyStr × Nat) := []
deriving DecidableEq, Repr

/-- `needs_question`. -/
def Route.needsQuestion (r : Route) : Bool := 1 < r.candidates.length

/-- The arguments of `route`. -/
structure Ask where
  text : PyStr
  fmt : Option PyStr := none
  hasAttachment : Bool := false
  modelArtifact : Option PyStr := none
  modelConfidence : PyStr := py "high"
  isFileRequest : Option Bool := none
deriving DecidableEq, Repr

/-- The keys of `CONTRACTS`. -/
def contractNames : List PyStr := contracts.map (·.name)

/-- `CONTRACTS[name].offer_noun`. -/
def offerNounOf (name : PyStr) : PyStr := ((contracts.find? (·.name = name)).map (·.offerNoun)).getD []

/-- `RENDERABLE_FORMATS`. -/
def renderableFormats : List PyStr := [py "xlsx"]

/-! ### What the patterns look for -/

/-- Alternatives in any case. -/
def anyI (texts : List String) : Regex := alts (texts.map fun t => litI t.toList)

section
variable [PyRuntime]

/-- `\b(?:…)\b`. -/
def wholly (r : Regex) : Regex := seqs [bound, r, bound]

/-- `_TRANSFORM`. -/
def transform : Regex :=
  wholly (alts [anyI ["pivot"], seqs [litI "re".toList, opt (oneOf "- "), litI "pivot".toList],
    anyI ["chart", "graph", "plot", "reconcile"], seqs [litI "de".toList, opt (oneOf "- "), litI "dupe".toList],
    anyI ["deduplicate"], seqs [litI "clean ".toList, anyI ["up", "this"]],
    seqs [litI "normali".toList, oneOfI "sz", litI "e".toList],
    seqs [litI "cross".toList, opt (oneOf "- "), litI "reference".toList], anyI ["vlookup"],
    seqs [litI "merge ".toList, anyI ["these", "this", "the"]],
    seqs [litI "join ".toList, anyI ["these", "this", "the"]], anyI ["recalculate"],
    seqs [litI "re".toList, opt (oneOf "- "), litI "calculate".toList],
    seqs [litI "sum ".toList, anyI ["up", "the"]], seqs [litI "total ".toList, anyI ["up", "the"]],
    anyI ["average"], seqs [litI "convert ".toList, anyI ["this", "these", "it"]],
    anyI ["reformat", "transpose"],
    seqs [litI "turn ".toList, anyI ["this", "these", "the"], bound, upTo 40 (noneOf "."), bound,
      litI "into".toList],
    seqs [litI "summari".toList, oneOfI "sz", litI "e ".toList, anyI ["this", "the"]],
    seqs [litI "break ".toList, anyI ["this", "the"], bound, upTo 20 (noneOf "."), bound, litI "down".toList],
    seqs [litI "extract ".toList, upTo 20 dot, litI "from ".toList, anyI ["this", "the"]]])

/-- `_VOLUME`. -/
def volume : Regex :=
  wholly (alts [seqs [litI "every ".toList, anyI ["combination", "permutation", "pairing"]],
    anyI ["all combinations", "cartesian"],
    seqs [litI "exhaustive".toList, opt (litI "ly".toList), litI " ".toList, anyI ["list", "enumerate"]],
    seqs [times 3 digit, .many digit, plus space,
      anyI ["rows", "cases", "scenarios", "records", "items", "combinations"]]])

/-- `_TABULAR`. -/
def tabular : Regex :=
  wholly (alts [anyI ["spreadsheet", "excel", "xlsx", "workbook", "worksheet", "table", "matrix", "grid",
    "list of", "register", "log", "tracker", "breakdown", "roster", "inventory"],
    seqs [litI "hoja de c".toList, oneOfI "aá", litI "lculo".toList], anyI ["tableur", "スプレッドシート"]])

/-- `requires_provider`. -/
def requiresProvider (text : PyStr) (hasAttachment : Bool) : Option Reason :=
  if found volume text then some .generatedVolume
  else if hasAttachment && found transform text then some .computationOverAttachment
  else none

/-! ### Scores -/

/-- The weights of a contract's hints that are in the text. -/
def hintScore (hay : PyStr) (c : Contract) : Nat :=
  ((c.hints.filter fun h => isIn (lower h.1) hay).map Prod.snd).sum

/-- `score_contracts`: the highest first, those of one score in the order of the registry. -/
def scoreContracts (text : PyStr) : List (PyStr × Nat) :=
  ((contracts.map fun c => (c.name, hintScore (lower text) c)).filter (·.2 ≠ 0)).insertionSort
    fun a b => b.2 ≤ a.2

/-! ### Templates -/

/-- What the registry of templates says about one of them. -/
structure Template where
  id : PyStr
  hints : List PyStr
  format : PyStr
deriving DecidableEq, Repr

/-- `TEMPLATES`. -/
def templates : List Template :=
  [{ id := py "gantt_smartsheet"
     hints := ["gantt", "project timeline", "project plan chart", "timeline chart", "diagrama de gantt",
       "ガントチャート"].map py
     format := py "xlsx" },
    { id := py "gantt_detailed", hints := [], format := py "xlsx" }]

/-- `AMBIGUOUS_PLAN_HINTS`. -/
def ambiguousPlanHints : List PyStr :=
  ["project plan", "project schedule", "progress curve", "s-curve", "s curve", "slip history",
    "progress s curve", "plan de proyecto", "plan del proyecto", "curva de progreso", "cronograma",
    "プロジェクト計画", "進捗曲線", "工程表"].map py

/-- `_NEGATORS`. -/
def negators : List PyStr :=
  ["don't want", "dont want", "do not want", "not a", "not the", "instead of", "rather than", "no ",
    "not looking for", "isn't", "isnt", "is not", "no quiero", "en lugar de", "ne veux pas", "au lieu de",
    "ではなく", "いらない"].map py

/-- The loop of `_negated`, from a position on. A round passes the hint, so there are no more rounds than
characters. -/
def negatedFrom (hay hint : PyStr) : Nat → Nat → Bool
  | 0, _ => true
  | fuel + 1, start =>
      match find? hint (hay.drop start) with
      | none => true
      | some k =>
          let i := start + k
          let window := (hay.take i).drop (i - 40)
          if negators.any (isIn · window) then negatedFrom hay hint fuel (i + hint.length) else false

/-- `_negated`: whether every occurrence of a hint is refused. -/
def negated (hay hint : PyStr) : Bool := negatedFrom hay hint (hay.length + 1) 0

/-- `s[-n:]`. -/
def lastChars (n : Nat) (s : PyStr) : PyStr := s.drop (s.length - n)

/-- A hint that is in the text and not refused. -/
def wanted (hay : PyStr) (hints : List PyStr) : Bool := hints.any fun h => isIn h hay && !negated hay h

/-- `match_template`. -/
def matchTemplate (text : PyStr) (format : Option PyStr) : Option PyStr :=
  let hay := lower (lastChars 50000 text)
  (templates.find? fun t => format.all (fun f => f.isEmpty || f == t.format) && wanted hay t.hints).map (·.id)

/-- `ambiguous_plan_ask`. -/
def ambiguousPlanAsk (text : PyStr) (format : Option PyStr) : Bool :=
  if format.any (· ≠ py "xlsx") then false
  else
    let hay := lower (lastChars 4000 text)
    (matchTemplate hay format).isNone && wanted hay ambiguousPlanHints

/-! ### The choice -/

/-- The classifier named a contract: it is taken unless its confidence is low or the text names another
outright. -/
def routeClassified (q : Ask) (artifact : PyStr) (scores : List (PyStr × Nat)) : Route :=
  let disagrees := scores.head?.any fun top => top.1 ≠ artifact && 9 ≤ top.2
  if disagrees || q.modelConfidence == py "low" then
    let pair := artifact :: (((scores.map Prod.fst).filter (· ≠ artifact)).take 2)
    { lane := .contract, reason := .ambiguousArtifact, candidates := pair.take 3, scores := scores }
  else
    { lane := .contract, reason := .contractMatch, contract := some artifact, offerNoun := offerNounOf artifact
      scores := scores }

/-- Only the text speaks: the best score is taken where it is decisive. -/
def routeScored (q : Ask) (scores : List (PyStr × Nat)) : Route :=
  match scores with
  | [] =>
      if q.fmt = some (py "xlsx") ∨ found tabular q.text then { lane := .plan, reason := .tabularNoContract }
      else { lane := .provider, reason := .noArtifactMatch }
  | (topName, topScore) :: rest =>
      let runner := (rest.head?.map Prod.snd).getD 0
      -- `top_score >= runner * 1.8 or top_score - runner >= 4`
      if 9 * runner ≤ 5 * topScore ∨ runner + 4 ≤ topScore then
        { lane := .contract, reason := .contractMatch, contract := some topName
          offerNoun := offerNounOf topName, scores := scores }
      else
        { lane := .contract, reason := .ambiguousArtifact
          candidates := ((scores.filter fun s => runner ≤ s.2).map Prod.fst).take 3, scores := scores }

/-- The gates, in their order: the route of an ask that no contract is weighed for. -/
def gate (q : Ask) : Option Route :=
  if strip q.text = [] then some { lane := .provider, reason := .noArtifactMatch }
  else if q.isFileRequest = some false then some { lane := .nothing, reason := .notAFileRequest }
  else match requiresProvider q.text q.hasAttachment with
  | some blocked => some { lane := .provider, reason := blocked }
  | none =>
      if q.fmt.any (· ∉ renderableFormats) then some { lane := .provider, reason := .formatNotRenderable }
      else match matchTemplate q.text q.fmt with
      | some id => some { lane := .template, reason := .existingTemplate, contract := some id }
      | none =>
          if ambiguousPlanAsk q.text q.fmt then
            match q.modelArtifact.filter (· ∈ contractNames) with
            | some artifact =>
                if q.modelConfidence = py "high" then
                  some { lane := .mixed, reason := .ambiguousPlanOrArtifact, contract := some artifact
                         candidates := [py "gantt", artifact], offerNoun := offerNounOf artifact }
                else some { lane := .template, reason := .ambiguousPlanVersion }
            | none => some { lane := .template, reason := .ambiguousPlanVersion }
          else none

/-- `route`. -/
def route (q : Ask) : Route :=
  match gate q with
  | some settled => settled
  | none =>
      match q.modelArtifact.filter (· ∈ contractNames) with
      | some artifact => routeClassified q artifact (scoreContracts q.text)
      | none => routeScored q (scoreContracts q.text)

end

/-! ### The question -/

/-- What a candidate is called. -/
def candidateNoun (name : PyStr) : PyStr :=
  if name = py "gantt" then py "a project schedule with the timeline and progress"
  else
    match contracts.find? (·.name = name) with
    | some c => if c.offerNoun.isEmpty then c.label else c.offerNoun
    | none => []

/-- `question_for`. -/
def questionFor (r : Route) : PyStr :=
  if r.needsQuestion then
    let nouns := r.candidates.map candidateNoun
    py "I can build " ++ join (py ", ") nouns.dropLast ++ py ", or " ++ nouns.getLastD [] ++
      py ". Which would help?"
  else []

end GhostPour.Documents.Artifacts
