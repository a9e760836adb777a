/-
Module: GhostPour.TypeSafe.Proofs.ProbeOnce
Layer: Proofs
Purpose: Each served cooldown lets one call through, and only a call that started after the breaker
  opened closes it, exactly when no call asks while the one its cooldown let through is unanswered and
  no call from before the opening is answered while the breaker is open. Nothing in the breaker keeps
  the callers to that: it has no half-open state.
Trusted boundary: none
Main exports: allow_iff_wait_eq_zero, OneProbe, ClosedByProbe, Unanswered, OneAtATime, Sound,
  one_probe_iff, outage, two_probes_start
-/
import GhostPour.TypeSafe.Breaker

namespace GhostPour.TypeSafe

variable {s s' last : Judge} {threshold cooldown n : Nat} {c call : Call} {b : Breaker} {now : Instant}

/-! ### The breaker -/

/-- The breaker allows a call exactly when it reports nothing left to wait for. -/
theorem allow_iff_wait_eq_zero : b.allow cooldown now = true ↔ b.wait cooldown now = 0 := by
  unfold Breaker.allow Breaker.wait
  cases b.openedAt with
  | none => simp
  | some openedAt => simp [Nat.sub_eq_zero_iff_le]

theorem failure_below (under : ¬ threshold < b.consecutiveFailures + 1) (errorType : PyStr) :
    (b.failure threshold now errorType).openedAt = b.openedAt := by
  unfold Breaker.failure
  rw [if_neg under]

theorem failure_counts (errorType : PyStr) :
    (b.failure threshold now errorType).consecutiveFailures = b.consecutiveFailures + 1 := by
  unfold Breaker.failure
  split <;> rfl

/-! ### What is to hold of every run -/

/-- No cooldown that was served has let two calls through. -/
def OneProbe (s : Judge) : Prop := (s.calls.filterMap Call.cooldown).Nodup

/-- What has closed the breaker is the success of a call that started after it had opened. -/
def ClosedByProbe (s : Judge) : Prop := ∀ closing ∈ s.closings, closing.2 ≤ closing.1.openings

/-- A call that the present cooldown let through and that has not come back. -/
def Unanswered (s : Judge) (c : Call) : Prop :=
  c.cooldown = some s.cooldowns ∧ (c.standing = .waiting ∨ c.standing = .cancelled)

instance (s : Judge) (c : Call) : Decidable (Unanswered s c) :=
  inferInstanceAs (Decidable (_ ∧ _))

/-- No call asks an open breaker whose cooldown is served while one it let through is unanswered, and
no call from before the breaker opened is answered while it is open. -/
def OneAtATime (cooldown : Nat) : JudgeAction → Judge → Prop
  | .ask _, s =>
      s.breaker.openedAt.isSome = true → s.breaker.allow cooldown s.now = true →
        ∀ c ∈ s.calls, ¬ Unanswered s c
  | .reply n (.answered _), s =>
      s.breaker.openedAt.isSome = true → ∀ call ∈ s.waiting n, s.breaker.openedCount ≤ call.openings
  | _, _ => True

instance OneAtATime.decidable (cooldown : Nat) : ∀ a s, Decidable (OneAtATime cooldown a s)
  | .tick _, _ => inferInstanceAs (Decidable True)
  | .ask _, s =>
      inferInstanceAs (Decidable (s.breaker.openedAt.isSome = true →
        s.breaker.allow cooldown s.now = true → ∀ c ∈ s.calls, ¬ Unanswered s c))
  | .reply n (.answered _), s =>
      inferInstanceAs (Decidable (s.breaker.openedAt.isSome = true →
        ∀ call ∈ s.waiting n, s.breaker.openedCount ≤ call.openings))
  | .reply _ (.raised _ _), _ => inferInstanceAs (Decidable True)
  | .cancel _, _ => inferInstanceAs (Decidable True)

/-! ### The invariant -/

/-- What holds however the calls lie: an open breaker has failures over its threshold, so that every
further failure restarts the cooldown, and a call that the present cooldown let through is one that has
not come back. -/
structure Sound (threshold : Nat) (s : Judge) : Prop where
  failing : s.breaker.openedAt.isSome = true → threshold < s.breaker.consecutiveFailures
  numbered : ∀ c ∈ s.calls, ∀ k, c.cooldown = some k → k ≤ s.cooldowns
  probing : s.breaker.openedAt.isSome = true → ∀ c ∈ s.calls, c.cooldown = some s.cooldowns →
    c.standing = .waiting ∨ c.standing = .cancelled

theorem sound_boot : Sound threshold (.boot now) := by
  constructor
  · intro opened
    cases opened
  · intro c member
    cases member
  · intro opened
    cases opened

theorem waiting_eq_some :
    s.waiting n = some call ↔ s.calls[n]? = some call ∧ call.standing = .waiting := by
  unfold Judge.waiting
  rw [Option.filter_eq_some_iff, decide_eq_true_iff]

/-- How a call stands is all that settling changes. -/
theorem settle_cooldowns (stored : s.calls[n]? = some call) (standing : Standing) :
    (s.settle n call standing).calls.filterMap Call.cooldown = s.calls.filterMap Call.cooldown := by
  have same : (s.settle n call standing).calls.map Call.cooldown = s.calls.map Call.cooldown := by
    unfold Judge.settle
    rw [List.map_set]
    obtain ⟨inside, found⟩ := List.getElem?_eq_some_iff.mp stored
    have within : n < (s.calls.map Call.cooldown).length := by rwa [List.length_map]
    have kept : (s.calls.map Call.cooldown)[n] = call.cooldown := by
      rw [List.getElem_map, found]
    rw [← kept]
    exact List.set_getElem_self _
  have through (l : List Call) : l.filterMap Call.cooldown = (l.map Call.cooldown).filterMap id := by
    rw [List.filterMap_map]
    rfl
  rw [through, through, same]

theorem mem_settle {standing : Standing} (stored : s.calls[n]? = some call)
    (member : c ∈ (s.settle n call standing).calls) :
    ∃ c' ∈ s.calls, c'.cooldown = c.cooldown ∧ (c = c' ∨ c.standing = standing) := by
  rcases List.mem_or_eq_of_mem_set member with old | new
  · exact ⟨c, old, rfl, .inl rfl⟩
  · rw [new]
    exact ⟨call, List.mem_of_getElem? stored, rfl, .inr rfl⟩

theorem sound_ask (sound : Sound threshold s) (asker : Asker) :
    Sound threshold (s.ask cooldown asker) := by
  unfold Judge.ask
  split
  · constructor
    · exact sound.failing
    · intro c member k served
      rcases List.mem_append.mp member with old | new
      · exact sound.numbered c old k served
      · rw [List.mem_singleton.mp new, Judge.newCall, Option.map_eq_some_iff] at served
        obtain ⟨-, -, rfl⟩ := served
        exact le_rfl
    · intro opened c member served
      rcases List.mem_append.mp member with old | new
      · exact sound.probing opened c old served
      · rw [List.mem_singleton.mp new]
        exact .inl rfl
  · exact ⟨sound.failing, sound.numbered, sound.probing⟩

theorem sound_cancel (stored : s.calls[n]? = some call) (sound : Sound threshold s) :
    Sound threshold (s.settle n call .cancelled) := by
  constructor
  · exact sound.failing
  · intro c member k served
    obtain ⟨c', old, same, -⟩ := mem_settle stored member
    exact sound.numbered c' old k (same.trans served)
  · intro opened c member served
    obtain ⟨c', old, same, kept | settled⟩ := mem_settle stored member
    · rw [kept]
      exact sound.probing opened c' old (same.trans served)
    · exact .inr settled

theorem sound_replied (stored : s.calls[n]? = some call) (sound : Sound threshold s) (r : Reply) :
    Sound threshold (s.replied threshold n call r) := by
  cases r with
  | answered sure =>
      constructor
      · intro opened
        cases opened
      · intro c member k served
        obtain ⟨c', old, same, -⟩ := mem_settle stored member
        exact sound.numbered c' old k (same.trans served)
      · intro opened
        cases opened
  | raised errorType timedOut =>
      by_cases past : threshold < s.breaker.consecutiveFailures + 1
      · -- The cooldown that begins here has let nothing through.
        have fresh : ∀ c ∈ (s.settle n call .failed).calls, ∀ k, c.cooldown = some k →
            k < s.cooldowns + 1 := by
          intro c member k served
          obtain ⟨c', old, same, -⟩ := mem_settle stored member
          exact Nat.lt_succ_of_le (sound.numbered c' old k (same.trans served))
        constructor
        · intro _
          change threshold < (s.breaker.failure threshold s.now errorType).consecutiveFailures
          rw [failure_counts]
          exact past
        · intro c member k served
          change k ≤ if _ then _ else _
          rw [if_pos past]
          exact (fresh c member k served).le
        · intro _ c member served
          change c.cooldown = some (if _ then _ else _) at served
          rw [if_pos past] at served
          exact absurd (fresh c member _ served) (lt_irrefl _)
      · have closed : ¬ (s.breaker.failure threshold s.now errorType).openedAt.isSome = true := by
          rw [failure_below past]
          exact fun opened => past (Nat.lt_succ_of_lt (sound.failing opened))
        constructor
        · exact fun opened => absurd opened closed
        · intro c member k served
          obtain ⟨c', old, same, -⟩ := mem_settle stored member
          change k ≤ if _ then _ else _
          rw [if_neg past]
          exact sound.numbered c' old k (same.trans served)
        · exact fun opened => absurd opened closed

/-! ### What each step does to the claim -/

/-- One more call keeps the cooldowns apart when its own has let none through. -/
theorem served_append_nodup {calls : List Call} :
    ((calls ++ [c]).filterMap Call.cooldown).Nodup ↔
      (calls.filterMap Call.cooldown).Nodup ∧
        ∀ k, c.cooldown = some k → k ∉ calls.filterMap Call.cooldown := by
  rw [List.filterMap_append]
  cases served : c.cooldown with
  | none => simp [served]
  | some k =>
      simp only [List.filterMap_cons, served, List.filterMap_nil, List.nodup_append,
        List.nodup_singleton, List.mem_singleton, true_and, Option.some.injEq, forall_eq']
      apply and_congr_right
      intro _
      constructor
      · intro apart member
        exact apart k member k rfl rfl
      · intro absent k' member k'' here same
        rw [same, here] at member
        exact absent member

/-- While the breaker is open, what its present cooldown let through is what is unanswered. -/
theorem not_served_iff (sound : Sound threshold s) (opened : s.breaker.openedAt.isSome = true) :
    s.cooldowns ∉ s.calls.filterMap Call.cooldown ↔ ∀ c ∈ s.calls, ¬ Unanswered s c := by
  rw [List.mem_filterMap, not_exists]
  apply forall_congr'
  intro c
  rw [not_and]
  apply imp_congr_right
  intro member
  apply not_congr
  constructor
  · intro served
    exact ⟨served, sound.probing opened c member served⟩
  · exact And.left

theorem oneAtATime_ask (asker : Asker) :
    OneAtATime cooldown (.ask asker) s ↔
      (s.breaker.openedAt.isSome = true → s.breaker.allow cooldown s.now = true →
        ∀ c ∈ s.calls, ¬ Unanswered s c) := Iff.rfl

theorem oneAtATime_answered (sure : Bool) :
    OneAtATime cooldown (.reply n (.answered sure)) s ↔
      (s.breaker.openedAt.isSome = true →
        ∀ call ∈ s.waiting n, s.breaker.openedCount ≤ call.openings) := Iff.rfl

/-- Only a call that is let through can be a second one, and it is when one is unanswered. -/
theorem oneProbe_ask (sound : Sound threshold s) (asker : Asker) :
    OneProbe (s.ask cooldown asker) ↔ OneProbe s ∧ OneAtATime cooldown (.ask asker) s := by
  rw [oneAtATime_ask]
  unfold Judge.ask
  split
  · next allowed =>
    refine served_append_nodup.trans (and_congr_right fun _ => ?_)
    cases opened : s.breaker.openedAt with
    | none => simp [Judge.newCall, opened]
    | some openedAt =>
        have isOpen : s.breaker.openedAt.isSome = true := by
          rw [opened]
          rfl
        rw [← not_served_iff sound isOpen]
        simp [Judge.newCall, opened, allowed]
  · next refused =>
    refine (and_iff_left ?_).symm
    exact fun _ allowed => absurd allowed refused

theorem oneProbe_settle (stored : s.calls[n]? = some call) (standing : Standing) :
    OneProbe (s.settle n call standing) ↔ OneProbe s := by
  unfold OneProbe
  rw [settle_cooldowns stored]

/-- Only an answer that finds the breaker open closes it. -/
theorem closedByProbe_answered (cooldown : Nat) (waits : s.waiting n = some call) (sure : Bool) :
    ClosedByProbe (s.replied threshold n call (.answered sure)) ↔
      ClosedByProbe s ∧ OneAtATime cooldown (.reply n (.answered sure)) s := by
  rw [oneAtATime_answered, waits]
  unfold ClosedByProbe
  simp only [Judge.replied, Option.mem_some, forall_eq']
  split
  · next opened =>
    rw [List.forall_mem_append, List.forall_mem_singleton]
    exact and_congr_right fun _ => ⟨fun later _ => later, fun later => later opened⟩
  · next closed =>
    refine (and_iff_left ?_).symm
    exact fun opened => absurd opened closed

theorem sound_step (a : JudgeAction) (s s' : Judge) (sound : Sound threshold s)
    (step : (judgeMachine threshold cooldown).step a s = some s') : Sound threshold s' := by
  cases a with
  | tick now =>
      obtain ⟨-, taken⟩ := Option.ite_none_right_eq_some.mp step
      cases taken
      exact ⟨sound.failing, sound.numbered, sound.probing⟩
  | ask asker =>
      cases step
      exact sound_ask sound asker
  | reply n r =>
      obtain ⟨call, waits, rfl⟩ := Option.map_eq_some_iff.mp step
      exact sound_replied (waiting_eq_some.mp waits).1 sound r
  | cancel n =>
      obtain ⟨call, waits, rfl⟩ := Option.map_eq_some_iff.mp step
      exact sound_cancel (waiting_eq_some.mp waits).1 sound

theorem claim_step (a : JudgeAction) (s s' : Judge) (sound : Sound threshold s)
    (step : (judgeMachine threshold cooldown).step a s = some s') :
    OneProbe s' ∧ ClosedByProbe s' ↔ (OneProbe s ∧ ClosedByProbe s) ∧ OneAtATime cooldown a s := by
  cases a with
  | tick now =>
      obtain ⟨-, taken⟩ := Option.ite_none_right_eq_some.mp step
      cases taken
      exact (and_iff_left trivial).symm
  | ask asker =>
      cases step
      have history : ClosedByProbe (s.ask cooldown asker) ↔ ClosedByProbe s := by
        unfold Judge.ask
        split <;> exact Iff.rfl
      rw [oneProbe_ask sound, history, and_right_comm]
  | reply n r =>
      obtain ⟨call, waits, rfl⟩ := Option.map_eq_some_iff.mp step
      have stored := (waiting_eq_some.mp waits).1
      cases r with
      | answered sure =>
          have probes := oneProbe_settle stored .answered
          rw [closedByProbe_answered cooldown waits, ← and_assoc]
          exact and_congr_left fun _ => and_congr_left fun _ => probes
      | raised errorType timedOut =>
          refine Iff.trans ?_ (and_iff_left trivial).symm
          exact and_congr_left fun _ => oneProbe_settle stored .failed
  | cancel n =>
      obtain ⟨call, waits, rfl⟩ := Option.map_eq_some_iff.mp step
      refine Iff.trans ?_ (and_iff_left trivial).symm
      exact and_congr_left fun _ => oneProbe_settle (waiting_eq_some.mp waits).1 .cancelled

/-! ### Every run -/

/-- In a run from the start of the process one call goes through for each cooldown, and what closes the
breaker started after it opened, exactly when the calls ask one at a time. -/
theorem one_probe_iff {actions : List JudgeAction}
    (run : (judgeMachine threshold cooldown).run actions (.boot now) = some last) :
    OneProbe last ∧ ClosedByProbe last ↔
      (judgeMachine threshold cooldown).Along (OneAtATime cooldown) actions (.boot now) := by
  have start : OneProbe (.boot now) ∧ ClosedByProbe (.boot now) :=
    ⟨List.nodup_nil, fun _ member => by cases member⟩
  rw [Machine.run_iff_along sound_step claim_step sound_boot run]
  exact and_iff_right start

/-- Three judgments that time out together. -/
def outage : List JudgeAction :=
  List.replicate 3 (.ask tryOfferReply) ++
    [.reply 0 (.raised (py "ReadTimeout") true), .reply 1 (.raised (py "ReadTimeout") true),
      .reply 2 (.raised (py "ReadTimeout") true)]

/-- A probe after each cooldown: the first one fails, and the second one closes the breaker. -/
def probeByProbe : List JudgeAction :=
  outage ++ [.tick breakerCooldown, .ask tryOfferReply, .reply 3 (.raised (py "ConnectError") false),
    .ask tryOfferReply, .tick (2 * breakerCooldown), .ask tryOfferReply, .reply 4 (.answered true)]

theorem probe_by_probe : ∃ last,
    (judgeMachine breakerThreshold breakerCooldown).run probeByProbe (.boot 0) = some last ∧
      OneProbe last ∧ ClosedByProbe last := by
  cases ran : (judgeMachine breakerThreshold breakerCooldown).run probeByProbe (.boot 0) with
  | none => exact absurd ran (Option.isSome_iff_ne_none.mp (by decide +kernel))
  | some last => exact ⟨last, rfl, (one_probe_iff ran).mpr (by decide +kernel)⟩

/-- One more judgment than in the outage is on its way, and two are asked for once the cooldown is
served. -/
def probesTogether : List JudgeAction :=
  .ask (guardedAsk (py "evidence_support") (py "primary")) ::
    [.ask tryOfferReply, .ask tryOfferReply, .ask tryOfferReply,
      .reply 1 (.raised (py "ReadTimeout") true), .reply 2 (.raised (py "ReadTimeout") true),
      .reply 3 (.raised (py "ReadTimeout") true), .tick breakerCooldown, .ask tryOfferReply,
      .ask tryOfferReply, .reply 0 (.answered true)]

/-- Both go through, and the answer of the one from before the opening closes the breaker. -/
theorem two_probes_start : ∃ last,
    (judgeMachine breakerThreshold breakerCooldown).run probesTogether (.boot 0) = some last ∧
      ¬ OneProbe last ∧ ¬ ClosedByProbe last := by
  refine ⟨_, rfl, ?_, ?_⟩
  · unfold OneProbe
    decide +kernel
  · unfold ClosedByProbe
    decide +kernel

end GhostPour.TypeSafe
