/-
Module: GhostPour.Chat.TurnTail
Layer: Model
Purpose: The refusals of `_run_turn_tail` in `app/routers/chat.py`. Four checks run one after the other on the
  text of an interviewer turn; each refuses it at most once, asks the model again, and takes the new text when
  it is there and passes that same check. What the retries answer is input. What `_run_turn_tail` in
  `app/routers/chat.py` serves for an interviewer turn: the text after the four refusals and
  `guard_response_text`, which read one agenda and one set of known facts. The refusals and the guards are
  also the steps of one machine, in the order the tail takes them.
Trusted boundary: human-reviewed spec
Main exports: stripJsonCodeFence, Refusal, refusalOf, refuseAndRetry, tailMachine, servedText, TurnStep,
  turnSteps, servingMachine, servedText_eq_run
-/
import GhostPour.Library.Machine
import GhostPour.N400.GuardChain
import GhostPour.N400.Refusals

namespace GhostPour.Chat

open N400

section
variable [PyRuntime]

/-- Three backticks. -/
def fence : PyStr := [96, 96, 96]

/-- Whether the first line inside a fence is a language tag. -/
def isFenceTag (line : PyStr) : Bool :=
  strip line != [] && !(strip line).contains 32 && !(strip line).contains lbrace &&
    !(strip line).contains lbracket

/-- The text inside a fence, without the tag of the opening one. -/
def insideFence (s : PyStr) : PyStr :=
  let inner := strip ((s.drop 3).take (s.length - 6))
  match partition '\n' inner with
  | (first, true, rest) => if isFenceTag first then rest else inner
  | (_, false, _) => inner

/-- `_strip_json_code_fence`. -/
def stripJsonCodeFence (text : PyStr) : PyStr :=
  let s := strip text
  if startsWith fence s && endsWith fence s then
    let inner := strip (insideFence s)
    if (loads inner).isSome then inner else text
  else text

/-! ### One refusal -/

/-- A check of the tail with what it leaves: `mark` records the refusal on the text that is kept,
after `giveUp` where no retry resolved it. -/
structure Refusal (ι : Type) where
  check : PyStr → Py (Option ι)
  giveUp : ι → PyStr → Py PyStr
  mark : ι → Bool → PyStr → PyStr

/-- The text a retry brings: the fence is taken off, and no retry is no text. -/
def retryText (retry : Option PyStr) : PyStr := stripJsonCodeFence (N400.orEmpty retry)

/-- A text that is there and that the check lets pass. -/
def Refusal.accepts {ι : Type} (refusal : Refusal ι) (text : PyStr) : Py Bool :=
  if text = [] then some false else (refusal.check text).map Option.isNone

/-- Check, and on a refusal retry once. -/
def refuseAndRetry {ι : Type} (refusal : Refusal ι) (retry : Option PyStr) (text : PyStr) :
    Py PyStr := do
  match ← refusal.check text with
  | none => return text
  | some info =>
      if ← refusal.accepts (retryText retry) then
        return refusal.mark info true (retryText retry)
      else
        return refusal.mark info false (← refusal.giveUp info text)

/-! ### The four of the tail -/

/-- What the refusals read besides the text. -/
structure TailInput where
  agenda : Option PyStr
  knownFacts : Option PyStr

/-- `checkpoint_is_refused`; a checkpoint the agenda contradicts is taken out. -/
def checkpointRefusal (input : TailInput) : Refusal Json where
  check text := checkpointIsRefused text input.agenda input.knownFacts
  giveUp _ text := (dropContradictedCheckpoint text input.agenda).map Prod.fst
  mark := markCheckpointRefused

/-- `offers_impossible_oath_modification`, never blocked. -/
def oathRefusal : Refusal Json where
  check text := some (offersImpossibleOathModification text)
  giveUp _ text := some text
  mark := markImpossibleModification

/-- `closes_in_words_while_agenda_open`, never blocked. -/
def closingRefusal (input : TailInput) : Refusal Json where
  check text := some (closesInWordsWhileAgendaOpen text input.agenda)
  giveUp _ text := some text
  mark := markClosingWhileOpen

/-- `date_inversions`, an empty list being none; the inverted dates are dropped. -/
def dateRefusal (input : TailInput) : Refusal (List Inversion) where
  check text :=
    some (if dateInversions text input.knownFacts = [] then none
      else some (dateInversions text input.knownFacts))
  giveUp inversions text := dropInvertedDates text inversions
  mark := markDateInversion

/-- The refusals in the order the tail runs them. -/
inductive TailStage where
  | checkpoint
  | oath
  | closing
  | dates
deriving DecidableEq

/-- One stage of the tail, with the text its retry would bring. -/
def tailStep (input : TailInput) : TailStage × Option PyStr → PyStr → Py PyStr
  | (.checkpoint, retry) => refuseAndRetry (checkpointRefusal input) retry
  | (.oath, retry) => refuseAndRetry oathRefusal retry
  | (.closing, retry) => refuseAndRetry (closingRefusal input) retry
  | (.dates, retry) => refuseAndRetry (dateRefusal input) retry

/-- The tail as a machine on the text of the turn. -/
def tailMachine (input : TailInput) : Machine PyStr (TailStage × Option PyStr) := ⟨tailStep input⟩

/-- What the four retries bring, if they are asked. -/
structure Retries where
  checkpoint : Option PyStr
  oath : Option PyStr
  closing : Option PyStr
  dates : Option PyStr

/-- The four stages with their retries. -/
def Retries.stages (retries : Retries) : List (TailStage × Option PyStr) :=
  [(.checkpoint, retries.checkpoint), (.oath, retries.oath), (.closing, retries.closing),
    (.dates, retries.dates)]

/-- The refusals of `_run_turn_tail`: the text that is handed to `guard_response_text`. -/
def turnTail (input : TailInput) (retries : Retries) (text : PyStr) : Py PyStr :=
  (tailMachine input).run retries.stages text

end

end GhostPour.Chat

namespace GhostPour.Chat

open N400

/-- What the refusals read of the input of the guards. -/
def tailInput (input : GuardInput) : TailInput := ⟨input.agenda, input.knownFacts⟩

/-- A step of the tail: a refusal with the text its retry would bring, or a guard. -/
inductive TurnStep where
  | refusal (stage : TailStage × Option PyStr)
  | guard (a : GuardStep)

/-- The steps in the order of the tail. -/
def turnSteps (retries : Retries) : List TurnStep :=
  retries.stages.map .refusal ++ guardOrder.map .guard

section

variable [PyRuntime]

/-- The text that the tail of a turn serves. -/
def servedText (input : GuardInput) (retries : Retries) (text : PyStr) : Py PyStr :=
  (turnTail (tailInput input) retries text).bind (guardResponseText input)

/-- One step of the tail. -/
def turnStep (input : GuardInput) : TurnStep → GuardState PyStr → Py (GuardState PyStr)
  | .refusal stage, st => (tailStep (tailInput input) stage st.response).map fun text =>
      { st with response := text }
  | .guard a, st => guardStepOn Guard.onText input a st

/-- The tail as one machine. -/
def servingMachine (input : GuardInput) : Machine (GuardState PyStr) TurnStep := ⟨turnStep input⟩

/-- The text served is the one the machine ends with. -/
theorem servedText_eq_run (input : GuardInput) (retries : Retries) (text : PyStr) :
    servedText input retries text =
      ((servingMachine input).run (turnSteps retries) (.init text)).map GuardState.response := by
  have refusals : (servingMachine input).run (retries.stages.map .refusal) (.init text) =
      ((tailMachine (tailInput input)).run retries.stages text).map GuardState.init :=
    Machine.run_map TurnStep.refusal GuardState.init (fun _ _ => rfl) retries.stages text
  have guards : ∀ st, (servingMachine input).run (guardOrder.map .guard) st =
      ((N400.guardMachine Guard.onText input).run guardOrder st).map id :=
    Machine.run_map TurnStep.guard id (fun _ _ => Option.map_id'.symm) guardOrder
  rw [turnSteps, Machine.run_append, refusals, servedText, turnTail, Option.map_bind,
    Option.bind_map]
  refine congrArg _ (funext fun left => ?_)
  rw [Function.comp_apply, Function.comp_apply, guards, Option.map_id]
  rfl

end

end GhostPour.Chat
