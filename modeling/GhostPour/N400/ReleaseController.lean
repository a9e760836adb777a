/-
Module: GhostPour.N400.ReleaseController
Layer: Model
Purpose: `ReleaseController` of `app/services/n400_sentence_stream.py`: the policy that turns deltas
  of the model's text into sentences the client may speak. A whole delta goes through the reader
  before its events are looked at, so the policy sees the values the delta leaves behind.
Trusted boundary: human-reviewed spec
Main exports: Release, ReleaseResult, ReleaseController, ReleaseController.feed, releaseRun
-/
import GhostPour.N400.Checkpoint
import GhostPour.N400.IdentifierGuards
import GhostPour.N400.Refusals
import GhostPour.N400.ReplyStreamParser
import GhostPour.N400.SentenceSplitter

namespace GhostPour.N400

/-- A sentence event. -/
structure Release where
  index : Nat
  locale : PyStr
  text : PyStr
deriving DecidableEq

/-- `ReleaseResult`. -/
structure ReleaseResult where
  released : List PyStr
  held : Option PyStr
  bufferedReason : Option PyStr
deriving DecidableEq

/-- What the policy remembers besides the reader. -/
structure ReleaseState where
  splitter : SentenceSplitter
  bufferedReason : Option PyStr
  released : List PyStr
  /-- Complete, not yet released: it may be the last sentence. -/
  pending : Option PyStr

/-- `ReleaseController`. -/
structure ReleaseController where
  locale : PyStr
  agenda : Option PyStr
  knownFacts : Option PyStr
  parser : ReplyStreamParser
  state : ReleaseState

namespace ReleaseState

/-- `_buffer`: what is pending rides the envelope. -/
def buffer (st : ReleaseState) (reason : PyStr) : ReleaseState :=
  if st.bufferedReason.isSome then st else { st with bufferedReason := some reason, pending := none }

/-- `_release_pending`. -/
def releasePending (locale : PyStr) (st : ReleaseState) : ReleaseState × List Release :=
  match st.pending with
  | none => (st, [])
  | some text =>
      ({ st with released := st.released ++ [text], pending := none },
        [⟨st.released.length, locale, text⟩])

/-- `close`. -/
def close (st : ReleaseState) : ReleaseResult where
  released := st.released
  held := if st.bufferedReason.isSome then none else st.pending
  bufferedReason := st.bufferedReason

end ReleaseState

section
variable [PyRuntime]

/-- `_admit`: the oath check on one sentence. -/
def admits (locale sentence : PyStr) : Bool :=
  (offersImpossibleOathModification
    (dumps (.obj [(py "reply", .obj [(locale, .str sentence)])]))).isNone

/-- `_correct`: an identifier read back is the identifier filed in the facts parsed so far. -/
def correctSentence (facts : Json) (sentence : PyStr) : Py PyStr :=
  (correctIdentifierReadback sentence facts).map Prod.fst

/-- `_checkpoint_refused`. -/
def checkpointRefused (agenda knownFacts : Option PyStr) (parser : ReplyStreamParser) : Py Bool :=
  (checkpointIsRefused (dumps (.obj parser.partialObject)) agenda knownFacts).map Option.isSome

/-- The keys a reply came too early for. -/
def missingKeys (values : Dict) : List PyStr :=
  keysBeforeReply.filter fun key => !values.has key

/-- What a stretch of events does: the state after it, the sentences it releases. -/
abbrev Releasing := Py (ReleaseState × List Release)

/-- A complete sentence of the splitter: refused, or corrected and kept pending. -/
def admitSentence (locale : PyStr) (facts : Json) (st : ReleaseState) (sentence : PyStr) :
    Py ReleaseState :=
  if admits locale sentence then
    (correctSentence facts sentence).map fun text => { st with pending := some text }
  else some (st.buffer (py "oath_modification"))

/-- The splitter's events on reply text; a refusal ends the delta. -/
def splitEvents (locale : PyStr) (facts : Json) : ReleaseState → List SplitEvent → Releasing
  | st, [] => some (st, [])
  | st, .started :: events => do
      let (next, out) := st.releasePending locale
      let (last, more) ← splitEvents locale facts next events
      return (last, out ++ more)
  | st, .sentence text :: events => do
      let next ← admitSentence locale facts st text
      if next.bufferedReason.isSome then return (next, [])
      splitEvents locale facts next events

/-- The splitter's events at the end of the reply: a tail without terminator is the last sentence. -/
def closeEvents (locale : PyStr) (facts : Json) : ReleaseState → List SplitEvent → Releasing
  | st, [] => some (st, [])
  | st, .started :: events => closeEvents locale facts st events
  | st, .sentence text :: events => do
      if admits locale text then
        let (next, out) := st.releasePending locale
        let fixed ← correctSentence facts text
        let (last, more) ← closeEvents locale facts { next with pending := some fixed } events
        return (last, out ++ more)
      else return (st.buffer (py "oath_modification"), [])

/-- One event of the reader. -/
def handleEvent (locale : PyStr) (agenda knownFacts : Option PyStr) (parser : ReplyStreamParser)
    (st : ReleaseState) : StreamEvent → Releasing
  | .malformed reason => some (st.buffer (py "malformed:" ++ reason), [])
  | .replyStart =>
      if missingKeys parser.values ≠ [] then
        some (st.buffer (py "reply_before_" ++ join (py ",") (missingKeys parser.values)), [])
      else (checkpointRefused agenda knownFacts parser).map fun refused =>
        (if refused then st.buffer (py "checkpoint_refused") else st, [])
  | .replyText chunk =>
      let (splitter, events) := st.splitter.feed chunk
      splitEvents locale (parser.values.get (py "facts")) { st with splitter := splitter } events
  | .replyEnd =>
      closeEvents locale (parser.values.get (py "facts")) { st with splitter := .init } st.splitter.close
  | .keyDone _ _ => some (st, [])

/-- The loop over the events of a delta; buffering ends it. -/
def handleEvents (locale : PyStr) (agenda knownFacts : Option PyStr) (parser : ReplyStreamParser) :
    ReleaseState → List StreamEvent → Releasing
  | st, [] => some (st, [])
  | st, event :: events => do
      let (next, out) ← handleEvent locale agenda knownFacts parser st event
      if next.bufferedReason.isSome then return (next, out)
      let (last, more) ← handleEvents locale agenda knownFacts parser next events
      return (last, out ++ more)

namespace ReleaseController

/-- `__init__`: an oath node on the agenda buffers the whole turn. -/
def init (locale : PyStr) (agenda knownFacts : Option PyStr) : ReleaseController where
  locale := streamLocale locale
  agenda := agenda
  knownFacts := knownFacts
  parser := .init (streamLocale locale)
  state :=
    { splitter := .init
      bufferedReason := if agendaCarriesOath agenda then some (py "oath_node_on_agenda") else none
      released := []
      pending := none }

/-- `feed`; `none` is an exception that escapes. -/
def feed (c : ReleaseController) (delta : PyStr) : Py (ReleaseController × List Release) :=
  if c.state.bufferedReason.isSome then some (c, [])
  else do
    let (parser, events) ← c.parser.feed delta
    let (state, out) ← handleEvents c.locale c.agenda c.knownFacts parser c.state events
    return ({ c with parser := parser, state := state }, out)

/-- `close`. -/
def close (c : ReleaseController) : ReleaseResult := c.state.close

/-- Feed one delta after the other. -/
def feedAll : ReleaseController → List PyStr → Py (ReleaseController × List Release)
  | c, [] => some (c, [])
  | c, delta :: deltas => do
      let (next, out) ← c.feed delta
      let (last, more) ← feedAll next deltas
      return (last, out ++ more)

end ReleaseController

/-- A whole turn: the sentence events of the deltas in order, and what `close` returns. -/
def releaseRun (locale : PyStr) (agenda knownFacts : Option PyStr) (deltas : List PyStr) :
    Py (List Release × ReleaseResult) :=
  ((ReleaseController.init locale agenda knownFacts).feedAll deltas).map fun r => (r.2, r.1.close)

/-- A text one character at a time. -/
def oneByOne (text : PyStr) : List PyStr := text.map fun c => [c]

end

end GhostPour.N400
