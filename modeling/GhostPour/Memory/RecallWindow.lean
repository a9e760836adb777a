/-
Module: GhostPour.Memory.RecallWindow
Layer: Model
Purpose: The window on the meeting blocks of a project chat (`clamp_meeting_blocks` in
  `src/app/services/recall_window.py`): a scan for dated headers that cuts every block older than the
  window, and the preamble restated for what is left. A day is counted from the first of year 1.
Trusted boundary: human-reviewed spec
Main exports: Today, meetingH2, fromIsoFormat, cutoffOf, Clamp, visit, preambleOf, clampMeetingBlocks
-/
import GhostPour.Library.IsoText
import GhostPour.Library.Regex

namespace GhostPour

namespace Memory.RecallWindow

open Regex

/-- A `date`, by the days before it: `d.toordinal() - 1`. -/
abbrev Today := Fin 3652059

section
variable [PyRuntime]

/-- `\d{4}-\d{2}-\d{2}`. -/
def datePattern : Regex :=
  seqs [times 4 digit, .set (· == 45), times 2 digit, .set (· == 45), times 2 digit]

/-- `_MEETING_H2`. -/
def meetingH2 : Regex :=
  seqs [lineStart, lit "## Meeting ".toList, .group 1 (plus digit), lit " of ".toList,
    .group 2 (plus digit), lit " ".toList, oneOf "—-–", lit " ".toList, .group 3 datePattern, bound]

/-- `_PREAMBLE`. -/
def preamble : Regex :=
  seqs [lit "You have context from ".toList,
    .alt (seqs [lit "one meeting, dated ".toList, datePattern])
      (seqs [plus digit, lit " meeting(s".toList, opt (lit ")".toList), lit ", spanning ".toList,
        datePattern, lit " to ".toList, datePattern]),
    opt (.group 1 (lit ", ordered oldest → newest".toList))]

end

/-- `^## ` in multi-line mode. -/
def h2 : Regex := seqs [lineStart, lit "## ".toList]

/-- `date.fromisoformat` of a text `datePattern` matches; it reads ASCII digits only. -/
def fromIsoFormat : PyStr → Option Nat
  | [y₁, y₂, y₃, y₄, _, m₁, m₂, _, d₁, d₂] =>
      let year := natOfDigits [y₁, y₂, y₃, y₄]
      let month := natOfDigits [m₁, m₂]
      let day := natOfDigits [d₁, d₂]
      let index := 12 * (year - 1) + (month - 1)
      if [y₁, y₂, y₃, y₄, m₁, m₂, d₁, d₂].all isAsciiDigit ∧ 1 ≤ year ∧ 1 ≤ month ∧ month ≤ 12 ∧
          1 ≤ day ∧ day ≤ daysInMonth index then
        some (daysBeforeMonth index + (day - 1))
      else none
  | _ => none

/-- `today - timedelta(days=max_age_days)`; `none` is the `OverflowError`. -/
def cutoffOf (today : Today) (maxAgeDays : Nat) : Option Nat :=
  if maxAgeDays ≤ 999999999 ∧ maxAgeDays ≤ today.val then some (today.val - maxAgeDays) else none

/-- The locals of the loop over the headers. -/
structure Clamp where
  out : List PyStr
  pos : Nat
  dropped : List PyStr
  keptDates : List (Option Nat)
deriving DecidableEq

/-- One header. -/
def visit (text : PyStr) (h2Starts : List Nat) (cutoff : Nat) (c : Clamp) (m : Match) : Clamp :=
  let date := (m.group 3).getD []
  let nxt := (h2Starts.find? (m.start < ·)).getD text.length
  match fromIsoFormat date with
  -- unreadable date: keep the block
  | none => { c with keptDates := c.keptDates ++ [none] }
  | some day =>
      if day < cutoff then
        { c with out := c.out ++ [(text.take m.start).drop c.pos], pos := nxt,
                 dropped := c.dropped ++ [date] }
      else { c with keptDates := c.keptDates ++ [some day] }

/-- What the preamble is restated as, if it is. -/
def preambleOf (maxAgeDays : Nat) (keptDates : List (Option Nat)) : Option PyStr :=
  let real := keptDates.filterMap id
  match keptDates, real with
  | [], _ => some (py "You have context from no meetings in the last " ++ strOfNat maxAgeDays ++ py " days.")
  | [_], [day] => some (py "You have context from one meeting, dated " ++ DateTime.dayText day ++ py ".")
  | _, day :: days =>
      some (py "You have context from " ++ strOfNat keptDates.length ++ py " meeting(s), spanning " ++
        DateTime.dayText (days.foldl min day) ++ py " to " ++ DateTime.dayText (days.foldl max day))
  | _, [] => none

section
variable [PyRuntime]

/-- `_PREAMBLE.subn(lambda mm: pre + (mm.group(1) or ""), text, count=1)`. -/
def restate (pre text : PyStr) : PyStr :=
  match search preamble text with
  | some m => text.take m.start ++ (pre ++ (m.group 1).getD []) ++ text.drop m.stop
  | none => text

/-- The loop over the headers. -/
def clamped (text : PyStr) (cutoff : Nat) : Clamp :=
  (finditer meetingH2 text).foldl (visit text ((finditer h2 text).map Match.start) cutoff) ⟨[], 0, [], []⟩

/-- The prompt without the old blocks, and their dates. -/
def clampText (text : PyStr) (maxAgeDays cutoff : Nat) : PyStr × List PyStr :=
  let c := clamped text cutoff
  let joined := (c.out ++ [text.drop c.pos]).flatten
  match c.dropped, preambleOf maxAgeDays c.keptDates with
  | _ :: _, some pre => (restate pre joined, c.dropped)
  | dropped, _ => (joined, dropped)

/-- `clamp_meeting_blocks`. -/
def clampMeetingBlocks (systemPrompt : Option PyStr) (maxAgeDays : Option Int) (today : Today) :
    Option (Option PyStr × List PyStr) :=
  match systemPrompt, maxAgeDays with
  | some text, some n =>
      if text.isEmpty ∨ n < 1 then some (some text, [])
      else
        (cutoffOf today n.toNat).map fun cutoff =>
          if (finditer meetingH2 text).isEmpty then (some text, [])
          else
            let (out, dropped) := clampText text n.toNat cutoff
            (some out, dropped)
  | prompt, _ => some (prompt, [])

end

end Memory.RecallWindow

end GhostPour
