/-
Module: GhostPour.N400.SentenceSplitter
Layer: Model
Purpose: `SentenceSplitter` of `app/services/n400_sentence_stream.py`: decoded reply text goes in one
  character at a time and complete sentences come out, each one character after it ends.
Trusted boundary: human-reviewed spec
Main exports: SentenceSplitter, SentenceSplitter.feed, SentenceSplitter.close, splitSentences
-/
import GhostPour.Library.Regex

namespace GhostPour.N400

/-- `_TERMINALS`. -/
def terminals : PyStr := py ".?!…"

/-- `_CLOSERS`. -/
def closers : PyStr := py "\"”’')]»"

/-- `_ABBREVIATIONS`. -/
def abbreviations : List PyStr :=
  [py "mr", py "mrs", py "ms", py "dr", py "sr", py "sra", py "srta", py "ud", py "uds", py "u.s",
    py "a.m", py "p.m", py "no", py "st", py "vs", py "e.g", py "i.e", py "jr", py "prof", py "etc"]

/-- What the splitter reports. -/
inductive SplitEvent where
  | started
  | sentence (text : PyStr)

/-- The state of the splitter. -/
structure SentenceSplitter where
  buf : PyStr
  started : Bool
  /-- A terminator and its closers were read; the next character decides. -/
  atBoundary : Bool

/-- The state before any text. -/
def SentenceSplitter.init : SentenceSplitter := ⟨[], false, false⟩

section
variable [PyRuntime]

/-- The last token before the terminator, `re.search(r"([^\s]+)$", core)`. -/
def lastToken (core : PyStr) : PyStr :=
  match Regex.search (.seq (.group 1 (.plus .nonSpace)) .stop) core with
  | some m => (m.group 1).getD []
  | none => []

/-- `_is_real_boundary`: a sentence end, or an abbreviation or an initial. -/
def isRealBoundary (buf : PyStr) : Bool :=
  let s := rstripChars closers buf
  let core := rstripChars terminals s
  if core = [] then true
  else if (s.drop core.length).head?.any (· != ord '.') then true
  else
    let token := rstripChars (py ".") (lower (lastToken core))
    if token ∈ abbreviations then false
    else if token.length = 1 ∧ token.all isAlpha then false
    else if ord '.' ∈ token ∧
        ((splitAt '.' token).filter (· ≠ [])).all fun p => p.all isAlpha && p.length == 1 then false
    else true

namespace SentenceSplitter

/-- One character of `feed`. -/
def feedChar (st : SentenceSplitter) (ch : Nat) : SentenceSplitter × List SplitEvent :=
  if st.atBoundary then
    if ch ∈ closers then ({ st with buf := st.buf ++ [ch] }, [])
    else if isSpace ch then
      if isRealBoundary st.buf then (init, [.sentence (strip st.buf)])
      else ({ st with buf := st.buf ++ [ch], atBoundary := false }, [])
    -- something else follows directly (1.5, U.S.A): keep going
    else if st.started then ({ st with buf := st.buf ++ [ch], atBoundary := false }, [])
    else (⟨st.buf ++ [ch], true, false⟩, [.started])
  else if !st.started && isSpace ch then (st, [])
  else
    (⟨st.buf ++ [ch], true, decide (ch ∈ terminals)⟩, if st.started then [] else [.started])

/-- `feed`. -/
def feed : SentenceSplitter → PyStr → SentenceSplitter × List SplitEvent
  | st, [] => (st, [])
  | st, ch :: text =>
      ((feed (st.feedChar ch).1 text).1, (st.feedChar ch).2 ++ (feed (st.feedChar ch).1 text).2)

/-- `close`: what remains is the last sentence. -/
def close (st : SentenceSplitter) : List SplitEvent :=
  if strip st.buf = [] then [] else [.sentence (strip st.buf)]

theorem feed_append (st : SentenceSplitter) (front back : PyStr) :
    st.feed (front ++ back) =
      (((st.feed front).1.feed back).1, (st.feed front).2 ++ ((st.feed front).1.feed back).2) := by
  induction front generalizing st with
  | nil => rfl
  | cons ch front ih => simp only [List.cons_append, feed, ih, List.append_assoc]

end SentenceSplitter

end

/-- The sentences among the events. -/
def sentencesOf : List SplitEvent → List PyStr
  | [] => []
  | .started :: events => sentencesOf events
  | .sentence text :: events => text :: sentencesOf events

@[simp] theorem sentencesOf_append (front back : List SplitEvent) :
    sentencesOf (front ++ back) = sentencesOf front ++ sentencesOf back := by
  induction front with
  | nil => rfl
  | cons event front ih => cases event <;> simp [sentencesOf, ih]

/-- Every unit the splitter emits on a text, fed and then closed. -/
def splitSentences [PyRuntime] (text : PyStr) : List PyStr :=
  sentencesOf ((SentenceSplitter.init.feed text).2 ++ (SentenceSplitter.init.feed text).1.close)

end GhostPour.N400
