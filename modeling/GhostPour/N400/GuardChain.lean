/-
Module: GhostPour.N400.GuardChain
Layer: Model
Purpose: `guard_response_text` of `app/services/n400_interviewer_guard.py`: the guards of a response in
  the order they run. The order is written once, over anything a guard can be run on: the service runs
  it on the text, and the proofs run it on the object.
Trusted boundary: human-reviewed spec
Main exports: GuardInput, GuardStep, guardOrder, guardStep, guardResponseText, guardTurn
-/
import GhostPour.Library.Machine
import GhostPour.N400.AskingGuards
import GhostPour.N400.DeferralGuards
import GhostPour.N400.FactGuards
import GhostPour.N400.IdentifierGuards
import GhostPour.N400.MarkGuards

namespace GhostPour.N400

/-- What the guards read besides the response. -/
structure GuardInput where
  agenda : Option PyStr
  userContent : Option PyStr
  conversation : Option PyStr
  choiceFields : Json
  locale : Option PyStr
  knownFacts : Option PyStr
  lineIds : Option PyStr

/-- The guards. -/
inductive GuardStep where
  | readbacks
  | staleAsking
  | wrongDigitCount
  | notAsSaid
  | reask
  | occupations
  | probation
  | trips
  | evidence
  | pushedBackNo
  | settledQuestion
  | strayDeferrals
  | unknownOrigins
  | alsoDeferred
  | nonAnswer
  | unspokenDays
  | offPartials
  | replyShape
  | interviewOver
  | options
  | battery
  | checkpointBesideAsking
  | unusableReply
deriving DecidableEq

/-- The order of `guard_response_text`. -/
def guardOrder : List GuardStep :=
  [.readbacks, .staleAsking, .wrongDigitCount, .notAsSaid, .reask, .occupations, .probation, .trips,
    .evidence, .pushedBackNo, .settledQuestion, .strayDeferrals, .unknownOrigins, .alsoDeferred,
    .nonAnswer, .unspokenDays, .offPartials, .replyShape, .interviewOver, .options, .battery,
    .checkpointBesideAsking, .unusableReply]

/-- The response between two guards, and the identifiers dropped so far. -/
structure GuardState (σ : Type) where
  response : σ
  wrongCount : List WrongCount
  notAsSaid : List NotAsSaid

/-- The state before the first guard. -/
def GuardState.init {σ : Type} (response : σ) : GuardState σ := ⟨response, [], []⟩

/-- What the reply asks again: the identifiers not filed as she said, else those with the wrong number
of digits. -/
def GuardState.reaskFrom {σ : Type} (st : GuardState σ) : List (PyStr × Nat) :=
  if st.notAsSaid = [] then st.wrongCount.map fun w => (w.fieldId, w.digits)
  else st.notAsSaid.map fun w => (w.fieldId, w.heard)

/-- Note the identifiers with the wrong number of digits. -/
def GuardState.noteWrongCount {σ : Type} (dropped : List (List WrongCount)) (st : GuardState σ) :
    GuardState σ := { st with wrongCount := dropped.flatten }

/-- Note the identifiers not filed as she said. -/
def GuardState.noteNotAsSaid {σ : Type} (dropped : List (List NotAsSaid)) (st : GuardState σ) :
    GuardState σ := { st with notAsSaid := dropped.flatten }

section
variable [PyRuntime]

/-- What the evidence floor reads. -/
def GuardInput.evidence (input : GuardInput) (userContent : PyStr) : EvidenceInput :=
  ⟨userContent, input.conversation, input.agenda, input.locale, input.lineIds⟩

/-- A way to run guards on responses of some kind. -/
abbrev GuardRunner (σ : Type) := ∀ {ι : Type}, Guard ι → σ → Py (σ × Option ι)

/-- Run a guard and note what it returns. -/
def GuardState.through {σ ι : Type} (runGuard : GuardRunner σ) (guard : Guard ι)
    (note : List ι → GuardState σ → GuardState σ) (st : GuardState σ) : Py (GuardState σ) :=
  (runGuard guard st.response).map fun (response, info) =>
    note info.toList { st with response := response }

/-- Run a guard whose result is only logged. -/
def GuardState.logged {σ ι : Type} (runGuard : GuardRunner σ) (guard : Guard ι)
    (st : GuardState σ) : Py (GuardState σ) := st.through runGuard guard fun _ st => st

/-- One guard of the chain. -/
def guardStepOn {σ : Type} (runGuard : GuardRunner σ) (input : GuardInput) :
    GuardStep → GuardState σ → Py (GuardState σ)
  | .readbacks, st => st.logged runGuard correctIdentifierReadbacks
  | .staleAsking, st => st.logged runGuard (dropStaleAsking input.agenda)
  | .wrongDigitCount, st =>
      st.through runGuard dropIdentifiersWithWrongDigitCount GuardState.noteWrongCount
  | .notAsSaid, st =>
      st.through runGuard (dropIdentifiersNotAsSaid input.locale) GuardState.noteNotAsSaid
  | .reask, st => st.logged runGuard (reaskDroppedIdentifier st.reaskFrom input.agenda)
  | .occupations, st => st.logged runGuard (fixOccupations input.knownFacts)
  | .probation, st => st.logged runGuard (fileProbationNeverHad input.agenda input.userContent)
  | .trips, st => st.logged runGuard (closeTripsOnStatedCount input.userContent)
  | .evidence, st =>
      match input.userContent with
      | some said => st.logged runGuard (dropFactsWithoutCurrentEvidence (input.evidence said))
      | none => some st
  | .pushedBackNo, st => st.logged runGuard (dropNoThatPushedBack input.userContent)
  | .settledQuestion, st => st.logged runGuard (replaceSettledQuestion input.agenda input.locale)
  | .strayDeferrals, st =>
      st.logged runGuard (dropDeferralsOfFiledValues input.knownFacts input.agenda input.userContent)
  | .unknownOrigins, st => st.logged runGuard markUnknownDeferralOrigins
  | .alsoDeferred, st => st.logged runGuard dropFactsThatAreAlsoDeferred
  | .nonAnswer, st => st.logged runGuard markFactsMintedOnANonAnswer
  | .unspokenDays, st =>
      match input.userContent with
      | some said => st.logged runGuard
          (deferDatesWithUnspokenDay (some said) input.knownFacts input.conversation)
      | none => some st
  | .offPartials, st =>
      match input.userContent with
      | some said => st.logged runGuard (deferDatesOffTheirKnownPartial input.knownFacts (some said))
      | none => some st
  | .replyShape, st => st.logged runGuard normalizeReplyShape
  | .interviewOver, st => st.logged runGuard (clearInterviewOverWhileAgendaOpen input.agenda)
  | .options, st =>
      st.logged runGuard (markValuesOutsideDeclaredOptions input.agenda input.choiceFields)
  | .battery, st => st.logged runGuard (markBatteryShortfall input.agenda)
  | .checkpointBesideAsking, st => st.logged runGuard dropCheckpointWhenAskingSet
  | .unusableReply, st => st.logged runGuard dropUnusableReply

/-- The chain as a machine. -/
def guardMachine {σ : Type} (runGuard : GuardRunner σ) (input : GuardInput) :
    Machine (GuardState σ) GuardStep := ⟨guardStepOn runGuard input⟩

/-- `guard_response_text`. -/
def guardResponseText (input : GuardInput) (text : PyStr) : Py PyStr :=
  ((guardMachine Guard.onText input).run guardOrder (.init text)).map GuardState.response

/-- The guard on the object of a response. -/
def Guard.onTurn {ι : Type} (guard : Guard ι) (turn : Dict) : Py (Dict × Option ι) :=
  (guard turn).map fun changed =>
    match changed with
    | none => (turn, none)
    | some (turn', info) => (turn', some info)

/-- The chain on the object of a response. -/
abbrev turnMachine (input : GuardInput) : Machine (GuardState Dict) GuardStep :=
  guardMachine Guard.onTurn input

/-- What the guards leave of the object of a response. -/
def guardTurn (input : GuardInput) (turn : Dict) : Py Dict :=
  ((turnMachine input).run guardOrder (.init turn)).map GuardState.response

end

end GhostPour.N400
