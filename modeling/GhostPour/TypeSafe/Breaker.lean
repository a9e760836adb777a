/-
Module: GhostPour.TypeSafe.Breaker
Layer: Model
Purpose: `app/services/typesafe_judge.py`: the breaker every judgment shares, and the calls of
  `guarded_ask` and `try_offer_reply` as the two steps they take around the awaited request, for any
  number of calls beside each other.
Trusted boundary: human-reviewed spec
Main exports: Breaker, Breaker.allow, Breaker.success, Breaker.failure, Breaker.state, Asker,
  guardedAsk, tryOfferReply, Reply, Call, Judge, JudgeAction, judgeMachine
-/
import GhostPour.Library.Calendar
import GhostPour.Library.Json
import GhostPour.Library.Machine

namespace GhostPour.TypeSafe

/-! ### The breaker -/

/-- `BREAKER_THRESHOLD`. -/
def breakerThreshold : Nat := 2

/-- `BREAKER_COOLDOWN_SECONDS`. -/
def breakerCooldown : Nat := 300 * microsPerSecond

/-- The fields of `Breaker` that change. The clock is monotonic. -/
structure Breaker where
  consecutiveFailures : Nat
  openedAt : Option Instant
  openedCount : Nat
  lastError : Option PyStr

namespace Breaker

/-- `__init__`. -/
def boot : Breaker := ⟨0, none, 0, none⟩

/-- `allow`: closed, or open with the cooldown served. -/
def allow (cooldown : Nat) (now : Instant) (b : Breaker) : Bool :=
  match b.openedAt with
  | none => true
  | some openedAt => openedAt + cooldown ≤ now

/-- `success`. -/
def success (b : Breaker) : Breaker :=
  { b with consecutiveFailures := 0, openedAt := none }

/-- `failure`. One over the threshold opens the breaker, or restarts the cooldown. -/
def failure (threshold : Nat) (now : Instant) (errorType : PyStr) (b : Breaker) : Breaker :=
  let counted := { b with
    consecutiveFailures := b.consecutiveFailures + 1
    lastError := some errorType }
  if threshold < b.consecutiveFailures + 1 then
    { counted with
      openedAt := some now
      openedCount := if b.openedAt = none then b.openedCount + 1 else b.openedCount }
  else counted

/-- What is left of the cooldown. -/
def wait (cooldown : Nat) (now : Instant) (b : Breaker) : Nat :=
  match b.openedAt with
  | none => 0
  | some openedAt => openedAt + cooldown - now

/-- `state`. -/
def state (threshold cooldown : Nat) (now : Instant) (b : Breaker) : Dict :=
  [(py "open", .bool b.openedAt.isSome),
   (py "consecutive_failures", .int b.consecutiveFailures),
   (py "threshold", .int threshold),
   (py "retry_in_seconds", .int (b.wait cooldown now / microsPerSecond : Nat)),
   (py "opened_count_since_boot", .int b.openedCount),
   (py "last_error", b.lastError.elim .null .str)]

end Breaker

/-! ### The calls -/

/-- What tells the two functions that ask Jev apart: what their row says before Jev has answered, and
whether an answer that is not sure is handed back. -/
structure Asker where
  judgment : PyStr
  mode : PyStr
  fellBack : Option Bool
  floored : Bool

/-- `guarded_ask`. -/
def guardedAsk (judgment mode : PyStr) : Asker := ⟨judgment, mode, none, false⟩

/-- `try_offer_reply`. -/
def tryOfferReply : Asker := ⟨py "offer_reply", py "primary", some true, true⟩

/-- What the awaited request comes to. An answer is sure when the confidence of its `confirm` reaches
`CONFIDENCE_FLOOR`. -/
inductive Reply where
  | answered (sure : Bool)
  | raised (errorType : PyStr) (timedOut : Bool)

/-- The row a call comes back with. -/
structure JevRow where
  judgment : PyStr
  mode : PyStr
  outcome : PyStr
  errorType : Option PyStr
  fellBack : Option Bool
  jevMs : Option Nat

namespace Asker

/-- The row of a call that the breaker skips. -/
def skipped (asker : Asker) : JevRow :=
  ⟨asker.judgment, asker.mode, py "breaker_open", none, asker.fellBack, none⟩

/-- The row of a call that has asked. -/
def row (asker : Asker) (elapsed : Nat) (reply : Reply) : JevRow :=
  let ms := some (elapsed / 1000)
  match reply with
  | .raised errorType timedOut =>
      ⟨asker.judgment, asker.mode, if timedOut then py "timeout" else py "error", some errorType,
        asker.fellBack, ms⟩
  | .answered sure =>
      if asker.floored && !sure then
        ⟨asker.judgment, asker.mode, py "low_confidence", none, asker.fellBack, ms⟩
      else
        ⟨asker.judgment, asker.mode, py "ok", none, asker.fellBack.map fun _ => false, ms⟩

end Asker

/-- How a call stands. One that is cancelled meets no `except`: it counts neither way. -/
inductive Standing where
  | waiting
  | answered
  | failed
  | cancelled
deriving DecidableEq

/-- A call that was let through: when, how often the breaker had opened by then, and the cooldown it
found served, if the breaker was open. -/
structure Call where
  asker : Asker
  started : Instant
  openings : Nat
  cooldown : Option Nat
  standing : Standing

/-- The clock; the breaker, with how many cooldowns it has begun; every call that was let through, in
order; every call whose success closed the breaker, with how often it had opened by then; and the rows
of the calls that have come back. -/
structure Judge where
  now : Instant
  breaker : Breaker
  cooldowns : Nat
  calls : List Call
  closings : List (Call × Nat)
  rows : List JevRow

/-- The process has started. -/
def Judge.boot (now : Instant) : Judge := ⟨now, .boot, 0, [], [], []⟩

/-- The clock goes on, a call comes in, the request of one comes back, or it is cancelled. -/
inductive JudgeAction where
  | tick (now : Instant)
  | ask (asker : Asker)
  | reply (n : Nat) (r : Reply)
  | cancel (n : Nat)

namespace Judge

/-- The call a caller starts here. -/
def newCall (s : Judge) (asker : Asker) : Call :=
  ⟨asker, s.now, s.breaker.openedCount, s.breaker.openedAt.map fun _ => s.cooldowns, .waiting⟩

/-- A call up to its await, or its return. -/
def ask (cooldown : Nat) (s : Judge) (asker : Asker) : Judge :=
  if s.breaker.allow cooldown s.now then { s with calls := s.calls ++ [s.newCall asker] }
  else { s with rows := s.rows ++ [asker.skipped] }

/-- The call as it stands from now on. -/
def settle (s : Judge) (n : Nat) (call : Call) (standing : Standing) : Judge :=
  { s with calls := s.calls.set n { call with standing := standing } }

/-- The call that waits under a number. -/
def waiting (s : Judge) (n : Nat) : Option Call :=
  s.calls[n]?.filter fun call => call.standing = .waiting

/-- A call after its await. -/
def replied (threshold : Nat) (s : Judge) (n : Nat) (call : Call) : Reply → Judge
  | .answered sure =>
      { s.settle n call .answered with
        breaker := s.breaker.success
        closings := if s.breaker.openedAt.isSome then s.closings ++ [(call, s.breaker.openedCount)]
          else s.closings
        rows := s.rows ++ [call.asker.row (s.now - call.started) (.answered sure)] }
  | .raised errorType timedOut =>
      { s.settle n call .failed with
        breaker := s.breaker.failure threshold s.now errorType
        cooldowns := if threshold < s.breaker.consecutiveFailures + 1 then s.cooldowns + 1
          else s.cooldowns
        rows := s.rows ++ [call.asker.row (s.now - call.started) (.raised errorType timedOut)] }

end Judge

/-- Any number of calls of the two functions. -/
def judgeMachine (threshold cooldown : Nat) : Machine Judge JudgeAction where
  step
    | .tick now, s => if s.now ≤ now then some { s with now := now } else none
    | .ask asker, s => some (s.ask cooldown asker)
    | .reply n r, s => (s.waiting n).map fun call => s.replied threshold n call r
    | .cancel n, s => (s.waiting n).map fun call => s.settle n call .cancelled

end GhostPour.TypeSafe
