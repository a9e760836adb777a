/-
Module: GhostPour.Chat.TurnMeter
Layer: Model
Purpose: The calls of the provider that one run of `_run_turn_tail` in `app/routers/chat.py` makes,
  with the rows of `usage_log` it writes for them and the cost it records: the research leg, the
  build, the envelope retry, the four guard retries and the title. What each call ends in is input,
  and so are the steps between that only edit the text. The writes of the ledger land.
Trusted boundary: human-reviewed spec
Main exports: ProviderResponse, RouteResult, TurnSettings, TurnAnswers, TurnLedger, isEnvelope,
  extractEnvelope, runTurnTail
-/
import GhostPour.Billing.Users
import GhostPour.Budget.Pricing
import GhostPour.Chat.TurnTail

namespace GhostPour.Chat

open Billing Budget N400

/-- What is read of a `ChatResponse`. -/
structure ProviderResponse where
  text : PyStr
  usage : Option TokenUsage
  inputTokens : Option ℕ
  outputTokens : Option ℕ

/-- What `route_with_fallback` ends in: a response, an `HTTPException` or another exception. -/
inductive RouteResult where
  | answered (response : ProviderResponse)
  | httpError
  | otherError

/-- A response with the provider and the model it was asked from. -/
structure ModelCall where
  provider : PyStr
  model : PyStr
  response : ProviderResponse

/-- `calculate_cost` of a call. -/
def ModelCall.cost (prices : PriceTable) (call : ModelCall) : Cost :=
  calculateCost prices call.provider call.model call.response.usage call.response.inputTokens
    call.response.outputTokens

theorem ModelCall.cost_nonneg (prices : PriceTable) (call : ModelCall) :
    0 ≤ (call.cost prices).totalCost :=
  total_cost_nonneg _ _ _ _ _ _

/-! ### The ledger of a turn -/

/-- A row of `usage_log`: the columns that say what the call was and what it cost. -/
structure UsageEntry where
  status : PyStr
  provider : PyStr
  model : PyStr
  inputTokens : Option ℕ
  outputTokens : Option ℕ
  estimatedCostUsd : Option ℚ

/-- The responses the turn has received, the rows it has written, and the accounts. -/
structure TurnLedger where
  received : List ModelCall
  rows : List UsageEntry
  users : Users

/-- A response comes in. -/
def TurnLedger.receive (call : ModelCall) (ledger : TurnLedger) : TurnLedger :=
  { ledger with received := ledger.received ++ [call] }

/-- `log_usage` of a response, with the cost that has been put on it, if one has. -/
def TurnLedger.logUsage (status : PyStr) (call : ModelCall) (cost : Option Cost)
    (ledger : TurnLedger) : TurnLedger :=
  { ledger with
    rows := ledger.rows ++
      [{ status := status
         provider := call.provider
         model := call.model
         inputTokens := call.response.inputTokens
         outputTokens := call.response.outputTokens
         estimatedCostUsd := cost.map Cost.totalCost }] }

/-- `log_usage` of a call that brought no response. -/
def TurnLedger.logError (provider model : PyStr) (ledger : TurnLedger) : TurnLedger :=
  { ledger with rows := ledger.rows ++ [⟨py "error", provider, model, none, none, none⟩] }

/-! ### What a turn is given -/

/-- What holds for the whole turn. -/
structure TurnSettings where
  prices : PriceTable
  userId : PyStr
  tier : TierDefinition
  isTrial : Bool
  /-- `meters_on_its_own` of the app. -/
  metersOnItsOwn : Bool
  provider : PyStr
  model : PyStr
  callType : PyStr
  /-- The prompt mode is one that titles are suggested for. -/
  titled : Bool
  /-- The agenda and the known facts. -/
  tail : TailInput
  /-- What the steps between the envelope and the cost make of the text. -/
  polish : PyStr → PyStr
  /-- What the steps after the guard retries make of the text. -/
  finish : PyStr → Py PyStr

/-- What the calls of the provider end in, if they are made. -/
structure TurnAnswers where
  /-- Of the research leg, when one is pending. -/
  research : Option RouteResult
  first : RouteResult
  envelope : RouteResult
  checkpoint : RouteResult
  oath : RouteResult
  closing : RouteResult
  dates : RouteResult
  title : RouteResult

/-- The guard retries, in the order of the stages. -/
def TurnAnswers.stages (answers : TurnAnswers) : List (TailStage × RouteResult) :=
  [(.checkpoint, answers.checkpoint), (.oath, answers.oath), (.closing, answers.closing),
    (.dates, answers.dates)]

/-- A response to the turn's own request. -/
def TurnSettings.call (settings : TurnSettings) (response : ProviderResponse) : ModelCall :=
  ⟨settings.provider, settings.model, response⟩

/-- `INTERVIEWER_CALL_TYPES`. -/
def interviewerCallTypes : List PyStr :=
  [py "n400_interviewer_turn", py "i765_interviewer_turn", py "form_interviewer_turn"]

/-! ### The call sites -/

/-- The call of `record_cost` for a cost of this turn. -/
def TurnSettings.charge (settings : TurnSettings) (cost : ℚ) : CostCall where
  userId := settings.userId
  cost := cost
  tier := settings.tier
  isTrial := settings.isTrial
  metersOnItsOwn := settings.metersOnItsOwn

/-- Steps 7 to 9, which are also `record_and_log`: the cost of a response is put on it, recorded and
logged. -/
def bill (settings : TurnSettings) (call : ModelCall) (ledger : TurnLedger) : TurnLedger :=
  let cost := if settings.prices.isLoaded then some (call.cost settings.prices) else none
  let charge := settings.charge ((cost.map Cost.totalCost).getD 0)
  ({ ledger with users := recordCost charge ledger.users }).logUsage (py "success") call cost

/-- The research leg, which falls open. -/
def researchLeg (settings : TurnSettings) (answers : TurnAnswers) (ledger : TurnLedger) :
    TurnLedger :=
  match answers.research with
  | some (.answered response) =>
      (ledger.receive (settings.call response)).logUsage (py "success") (settings.call response) none
  | _ => ledger

section
variable [PyRuntime]

/-- `is_envelope`. -/
def isEnvelope (text : PyStr) : Bool :=
  match turnOf text with
  | some turn => turn.has (py "reply")
  | none => false

/-- `extract_envelope`: from the first opening brace to the last closing one. -/
def extractEnvelope (text : PyStr) : Option PyStr :=
  let candidate := (text.dropWhile (· ≠ lbrace)).rdropWhile (· ≠ rbrace)
  if isEnvelope candidate then some candidate else none

/-- `mark_extracted`. -/
def markExtracted (text : PyStr) : PyStr := markTurn "envelope_extracted" (.bool true) text

/-- `mark_retried`. -/
def markRetried (text : PyStr) : PyStr := markTurn "envelope_retried" (.bool true) text

/-- Step 6: the build. -/
def buildLeg (settings : TurnSettings) (answers : TurnAnswers) (ledger : TurnLedger) :
    Option ProviderResponse × TurnLedger :=
  match answers.first with
  | .answered response =>
      (some { response with text := stripJsonCodeFence response.text },
        ledger.receive (settings.call response))
  | .httpError => (none, ledger.logError settings.provider settings.model)
  | .otherError => (none, ledger)

/-- Whether a response is asked for again: it should be the object, is not, and holds none. -/
def asksAgain (settings : TurnSettings) (text : PyStr) : Bool :=
  text ≠ [] && settings.callType ∈ interviewerCallTypes && !isEnvelope text &&
    (extractEnvelope text).isNone

/-- Step 6.55: the object is taken out of the prose around it, or asked for once more. -/
def envelopeLeg (settings : TurnSettings) (answers : TurnAnswers) (response : ProviderResponse)
    (ledger : TurnLedger) : Option ProviderResponse × TurnLedger :=
  if asksAgain settings response.text then
    let ledger := ledger.logUsage (py "envelope_retry") (settings.call response) none
    match answers.envelope with
    | .answered retry =>
        let ledger := ledger.receive (settings.call retry)
        if isEnvelope (stripJsonCodeFence retry.text) then
          (some { retry with text := markRetried (stripJsonCodeFence retry.text) }, ledger)
        else (some response,
          ledger.logUsage (py "envelope_retry_failed") (settings.call retry) none)
    | _ => (none, ledger)
  else if settings.callType ∈ interviewerCallTypes && !isEnvelope response.text then
    match extractEnvelope response.text with
    | some embedded => (some { response with text := markExtracted embedded }, ledger)
    | none => (some response, ledger)
  else (some response, ledger)

/-- A guard of the tail with its retry, which `_log_guard_retry` logs. -/
def guardRetry {ι : Type} (refusal : Refusal ι) (kind : PyStr) (settings : TurnSettings)
    (answer : RouteResult) (text : PyStr) (ledger : TurnLedger) : Py PyStr × TurnLedger :=
  match refusal.check text with
  | none => (none, ledger)
  | some none => (some text, ledger)
  | some (some info) =>
      match answer with
      | .answered retry =>
          let asked := retryText (some retry.text)
          let ledger := ledger.receive (settings.call retry)
          match refusal.accepts asked with
          | none => (none, ledger)
          | some true =>
              (some (refusal.mark info true asked),
                ledger.logUsage (kind ++ py "_retry") (settings.call retry) none)
          | some false =>
              ((refusal.giveUp info text).map (refusal.mark info false),
                ledger.logUsage (kind ++ py "_retry_failed") (settings.call retry) none)
      | _ => (none, ledger)

/-- One stage of the tail. -/
def guardStage (settings : TurnSettings) :
    TailStage × RouteResult → PyStr → TurnLedger → Py PyStr × TurnLedger
  | (.checkpoint, answer) =>
      guardRetry (checkpointRefusal settings.tail) (py "checkpoint") settings answer
  | (.oath, answer) => guardRetry oathRefusal (py "oath_modification") settings answer
  | (.closing, answer) =>
      guardRetry (closingRefusal settings.tail) (py "closing_while_open") settings answer
  | (.dates, answer) => guardRetry (dateRefusal settings.tail) (py "date_inversion") settings answer

/-- The stages one after the other, until one raises. -/
def guardStages (settings : TurnSettings) :
    List (TailStage × RouteResult) → PyStr → TurnLedger → Py PyStr × TurnLedger
  | [], text, ledger => (some text, ledger)
  | stage :: stages, text, ledger =>
      match guardStage settings stage text ledger with
      | (none, ledger) => (none, ledger)
      | (some text, ledger) => guardStages settings stages text ledger

/-- The guards of an N-400 turn, and the text the turn ends with. -/
def guardLeg (settings : TurnSettings) (answers : TurnAnswers) (text : PyStr)
    (ledger : TurnLedger) : Py PyStr × TurnLedger :=
  if text ≠ [] ∧ settings.callType = py "n400_interviewer_turn" then
    let (guarded, ledger) := guardStages settings answers.stages text ledger
    (guarded.bind settings.finish, ledger)
  else (some text, ledger)

/-- The call `suggest_title` makes. -/
def titleCall (response : ProviderResponse) : ModelCall :=
  ⟨py "anthropic", py "claude-haiku-4-5-20251001", response⟩

/-- The suggested title of a summary long enough to name; a failure leaves it without one. -/
def titleLeg (settings : TurnSettings) (answers : TurnAnswers) (text : PyStr)
    (ledger : TurnLedger) : TurnLedger :=
  if settings.callType = py "summary" ∧ settings.titled ∧ 40 ≤ (strip text).length then
    match answers.title with
    | .answered response =>
        bill settings (titleCall response) (ledger.receive (titleCall response))
    | _ => ledger
  else ledger

/-- The response that the turn is billed for, with the text the guards are given. -/
def respond (settings : TurnSettings) (answers : TurnAnswers) (ledger : TurnLedger) :
    Option ProviderResponse × TurnLedger :=
  match buildLeg settings answers (researchLeg settings answers ledger) with
  | (none, ledger) => (none, ledger)
  | (some response, ledger) =>
      match envelopeLeg settings answers response ledger with
      | (none, ledger) => (none, ledger)
      | (some response, ledger) =>
          (some { response with text := settings.polish response.text }, ledger)

/-- The ledger of `_run_turn_tail`. -/
def runTurnTail (settings : TurnSettings) (answers : TurnAnswers) (ledger : TurnLedger) :
    TurnLedger :=
  match respond settings answers ledger with
  | (none, ledger) => ledger
  | (some response, ledger) =>
      match guardLeg settings answers response.text (bill settings (settings.call response) ledger)
      with
      | (none, ledger) => ledger
      | (some text, ledger) => titleLeg settings answers text ledger

end

end GhostPour.Chat
