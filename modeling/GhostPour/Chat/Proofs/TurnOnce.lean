/-
Module: GhostPour.Chat.Proofs.TurnOnce
Layer: Proofs
Purpose: One request runs a turn at a time as long as no request releases the id of another, and a
  turn that was finished does not begin again before its row expires as long as no look-up is older
  than a finish. The retries that are meant to be free can break both conditions.
Trusted boundary: none
Main exports: Respects, releasesOwn, looksSettled, OneRunner, FinishKept, turn_runs_once,
  cancelled_retry_and_early_lookup
-/
import GhostPour.Chat.ChatTurns

namespace GhostPour.Chat

/-! ### The conditions -/

/-- After a finish the turn begins no sooner than the row expires. -/
def Respects : TurnEvent → TurnEvent → Prop
  | .finished _ expiresAt, .begun _ at_ => expiresAt ≤ at_
  | _, _ => True

instance : ∀ a b, Decidable (Respects a b)
  | .finished _ _, .begun _ _ => inferInstanceAs (Decidable (_ ≤ _))
  | .begun _ _, _ => isTrue trivial
  | .finished _ _, .finished _ _ => isTrue trivial

/-- No request runs the turn. -/
def Turns.free (s : Turns) : Bool :=
  s.running.isEmpty

/-- A run takes less than the in-flight limit, and a request that does not run the turn releases the
id only while no request runs it. -/
def releasesOwn : TurnAction → Turns → Bool
  | .tick now, s => s.running.all fun p => now - p.2 < inFlightMax
  | .resume r, s =>
      match s.phases r with
      | .answered (some _) _ => s.free
      | _ => true
  | .leave r, s =>
      match s.phases r with
      | .stored attached => !attached || s.free
      | _ => true
  | .storeFails r, s =>
      match s.phases r with
      | .storing _ attached => !attached || s.free
      | _ => true
  | .cancel r, s =>
      match s.phases r with
      | .lookup | .answered _ _ => s.free
      | .storing _ attached => !attached || s.free
      | _ => true
  | _, _ => true

/-- When a request begins the turn, every finish has stored its row, and all of them had when its
look-up ran; and rows are stored in the order of the finishes. -/
def looksSettled : TurnAction → Turns → Bool
  | .resume r, s =>
      match s.phases r with
      | .answered none stored =>
          (runningInfo s.now s.inFlight).2.isSome || (s.pending = [] && stored = s.stored)
      | _ => true
  | .store r, s =>
      match s.phases r with
      | .storing row _ => s.pending.all fun p => row.expiresAt ≤ p.2
      | _ => true
  | _, _ => true

/-! ### The entry and the phases -/

theorem runningInfo_of_fresh {now t : Instant} (fresh : now - t < inFlightMax) :
    runningInfo now (some t) = (some t, some t) :=
  if_neg (Nat.not_lt.mpr (Nat.le_of_lt fresh))

theorem runningInfo_eq_none {now : Instant} {entry : InFlight}
    (free : (runningInfo now entry).2 = none) : runningInfo now entry = (none, none) := by
  cases entry with
  | none => rfl
  | some t =>
      simp only [runningInfo] at free ⊢
      split at free
      · rw [if_pos ‹_›]
      · cases free

variable {s : Turns} {r : Nat}

/-- The phase of a request after one of them has moved. -/
theorem setPhase_phases {phase phase' : TurnPhase} {r' : Nat}
    (eq : (s.setPhase r phase).phases r' = phase') :
    (r' = r ∧ phase = phase') ∨ (r' ≠ r ∧ s.phases r' = phase') := by
  by_cases same : r' = r
  · subst same
    exact .inl ⟨rfl, (Function.update_self ..).symm.trans eq⟩
  · exact .inr ⟨same, (Function.update_of_ne same ..).symm.trans eq⟩

/-- A request that is done is not the one whose phase is asked for. -/
theorem setPhase_done_phases {phase : TurnPhase} {r' : Nat} (other : phase ≠ .done)
    (eq : (s.setPhase r .done).phases r' = phase) : r' ≠ r ∧ s.phases r' = phase := by
  rcases setPhase_phases eq with ⟨_, now⟩ | before
  · exact absurd now.symm other
  · exact before

/-- The request begins the turn. -/
theorem resume_begins (found : (runningInfo s.now s.inFlight).2 = none) :
    s.resume r none = { s.setPhase r (.running true) with
      inFlight := some s.now
      running := s.running ++ [(r, s.now)]
      history := s.history ++ [.begun r s.now] } := by
  unfold Turns.resume
  rw [runningInfo_eq_none found]
  rfl

/-- The request finds another that runs the turn. -/
theorem resume_runs {t : Instant} (found : (runningInfo s.now s.inFlight).2 = some t) :
    s.resume r none =
      { s.setPhase r .done with inFlight := (runningInfo s.now s.inFlight).1 } := by
  unfold Turns.resume
  rw [show runningInfo s.now s.inFlight = ((runningInfo s.now s.inFlight).1, some t) from
    Prod.ext rfl found]

/-! ### One runner -/

/-- At most one request runs the turn, and while one does its entry is there and is not too old. -/
structure OneRunner (s : Turns) : Prop where
  busy : s.running = [] ∨
    ∃ r t, s.running = [(r, t)] ∧ s.inFlight = some t ∧ s.now - t < inFlightMax
  runs : ∀ r a, s.phases r = .running a → ∃ t, (r, t) ∈ s.running

namespace OneRunner

theorem start (now : Instant) (row : Option TurnRow) : OneRunner (Turns.start now row) where
  busy := .inl rfl
  runs _ _ eq := by cases eq

theorem length_le (one : OneRunner s) : s.running.length ≤ 1 := by
  rcases one.busy with none | ⟨_, _, single, _⟩
  · rw [none]
    exact Nat.zero_le 1
  · rw [single]
    exact Nat.le_refl 1

/-- A request that runs the turn is the one that does. -/
theorem running_eq (one : OneRunner s) {a : Bool} (phase : s.phases r = .running a) :
    ∃ t, s.running = [(r, t)] := by
  obtain ⟨t, member⟩ := one.runs r a phase
  rcases one.busy with none | ⟨r', t', single, _⟩
  · rw [none] at member
    cases member
  · rw [single, List.mem_singleton] at member
    cases member
    exact ⟨t, single⟩

/-- Without an entry that counts nobody runs the turn. -/
theorem running_of_runningInfo (one : OneRunner s)
    (found : (runningInfo s.now s.inFlight).2 = none) : s.running = [] := by
  rcases one.busy with none | ⟨r, t, _, entry, fresh⟩
  · exact none
  · rw [entry, runningInfo_of_fresh fresh] at found
    cases found

/-- The look at the entry drops none that counts. -/
theorem peek (one : OneRunner s) :
    OneRunner { s with inFlight := (runningInfo s.now s.inFlight).1 } := by
  refine ⟨?_, one.runs⟩
  rcases one.busy with none | ⟨r, t, single, entry, fresh⟩
  · exact .inl none
  · refine .inr ⟨r, t, single, ?_, fresh⟩
    show (runningInfo s.now s.inFlight).1 = some t
    rw [entry, runningInfo_of_fresh fresh]

/-- A request that moves runs the turn only if it did. -/
theorem move (one : OneRunner s) {phase : TurnPhase}
    (runs : ∀ a, phase = .running a → ∃ b, s.phases r = .running b) :
    OneRunner (s.setPhase r phase) where
  busy := one.busy
  runs r' a eq := by
    rcases setPhase_phases eq with ⟨rfl, now⟩ | ⟨_, before⟩
    · obtain ⟨b, ran⟩ := runs a now
      exact one.runs r' b ran
    · exact one.runs r' a before

/-- A request goes to a phase in which it does not run the turn. -/
theorem rest (one : OneRunner s) {phase : TurnPhase} (quiet : ∀ a, phase ≠ .running a) :
    OneRunner (s.setPhase r phase) :=
  one.move fun a eq => absurd eq (quiet a)

/-- The id is released while nobody runs the turn. -/
theorem release (one : OneRunner s) {releases : Bool} (idle : releases = true → s.running = []) :
    OneRunner (s.release releases) := by
  cases releases with
  | false => exact one
  | true => exact ⟨.inl (idle rfl), one.runs⟩

/-- A request leaves without a stored row, and releases the id while no other runs the turn. -/
theorem giveUp (one : OneRunner s) {releases : Bool}
    (alone : releases = true → ∀ p ∈ s.running, p.1 = r) : OneRunner (s.giveUp r releases) := by
  have kept : OneRunner (s.giveUp r false) := by
    constructor
    · rcases one.busy with none | ⟨r', t, single, entry, fresh⟩
      · refine .inl ?_
        show s.running.filter (·.1 ≠ r) = []
        rw [none, List.filter_nil]
      · by_cases same : r' = r
        · refine .inl ?_
          show s.running.filter (·.1 ≠ r) = []
          rw [single, List.filter_singleton, same]
          simp
        · refine .inr ⟨r', t, ?_, entry, fresh⟩
          show s.running.filter (·.1 ≠ r) = [(r', t)]
          rw [single, List.filter_singleton]
          simp [same]
    · intro r' a eq
      obtain ⟨other, ran⟩ := setPhase_done_phases (by simp) eq
      obtain ⟨t, member⟩ := one.runs r' a ran
      exact ⟨t, List.mem_filter.mpr ⟨member, decide_eq_true other⟩⟩
  have split : s.giveUp r releases = (s.giveUp r false).release releases := rfl
  rw [split]
  apply kept.release
  intro released
  show s.running.filter (·.1 ≠ r) = []
  rw [List.filter_eq_nil_iff]
  intro p member
  simpa using alone released p member

/-- A request that does not run the turn leaves while none does. -/
theorem giveUp_free (one : OneRunner s) {releases : Bool}
    (free : (!releases || s.free) = true) : OneRunner (s.giveUp r releases) := by
  apply one.giveUp
  intro released p member
  rw [released, Bool.not_true, Bool.false_or] at free
  rw [List.isEmpty_iff.mp free] at member
  cases member

/-- The request that runs the turn leaves. -/
theorem giveUp_runner (one : OneRunner s) {releases a : Bool} (phase : s.phases r = .running a) :
    OneRunner (s.giveUp r releases) := by
  obtain ⟨t, single⟩ := one.running_eq phase
  apply one.giveUp
  intro _ p member
  rw [single, List.mem_singleton] at member
  rw [member]

/-- What follows the look-up. -/
theorem resume (one : OneRunner s) {row : Option TurnRow} {n : Nat}
    (phase : s.phases r = .answered row n) (own : releasesOwn (.resume r) s = true) :
    OneRunner (s.resume r row) := by
  have moved : OneRunner (s.setPhase r .done) := one.rest (by simp)
  cases row with
  | some row =>
      simp only [releasesOwn, phase] at own
      exact moved.release fun _ => List.isEmpty_iff.mp own
  | none =>
      cases found : (runningInfo s.now s.inFlight).2 with
      | some t =>
          rw [resume_runs found]
          exact moved.peek
      | none =>
          rw [resume_begins found]
          have free := one.running_of_runningInfo found
          refine ⟨.inr ⟨r, s.now, ?_, rfl, ?_⟩, fun r' a eq => ?_⟩
          · show s.running ++ [(r, s.now)] = [(r, s.now)]
            rw [free, List.nil_append]
          · show s.now - s.now < inFlightMax
            rw [Nat.sub_self]
            decide
          · rcases setPhase_phases eq with ⟨rfl, _⟩ | ⟨_, before⟩
            · exact ⟨s.now, List.mem_append_right _ (List.mem_singleton_self _)⟩
            · obtain ⟨t, member⟩ := one.runs r' a before
              exact ⟨t, List.mem_append_left _ member⟩

/-- The request that runs the turn finishes, and takes its entry out. -/
theorem finish (one : OneRunner s) {a : Bool} (phase : s.phases r = .running a)
    (status : TurnStatus) (payload : PyStr) : OneRunner (s.finish r a status payload) := by
  obtain ⟨t, single⟩ := one.running_eq phase
  constructor
  · refine .inl ?_
    show s.running.filter (·.1 ≠ r) = []
    rw [single, List.filter_singleton]
    simp
  · intro r' b eq
    rcases setPhase_phases eq with ⟨_, now⟩ | ⟨other, before⟩
    · cases now
    · obtain ⟨t', member⟩ := one.runs r' b before
      rw [single, List.mem_singleton] at member
      cases member
      exact absurd rfl other

end OneRunner

/-- One step. -/
theorem oneRunner_step (action : TurnAction) (s s' : Turns) (own : releasesOwn action s = true)
    (one : OneRunner s) (step : turnMachine.step action s = some s') : OneRunner s' := by
  cases action with
  | tick now =>
      simp only [turnMachine] at step
      split at step
      · cases step
        refine ⟨?_, one.runs⟩
        rcases one.busy with none | ⟨r, t, single, entry, _⟩
        · exact .inl none
        · refine .inr ⟨r, t, single, entry, of_decide_eq_true (List.all_eq_true.mp own (r, t) ?_)⟩
          rw [single]
          exact List.mem_singleton_self _
      · cases step
  | peek =>
      cases step
      exact one.peek
  | purge =>
      cases step
      exact ⟨one.busy, one.runs⟩
  | arrive r =>
      simp only [turnMachine] at step
      split at step
      · cases step
        exact one.rest (by simp)
      · cases step
  | select r =>
      simp only [turnMachine] at step
      split at step
      · cases step
        exact one.rest (by simp)
      · cases step
  | resume r =>
      simp only [turnMachine] at step
      split at step
      · next row n phase =>
        cases step
        exact one.resume phase own
      · cases step
  | detach r =>
      simp only [turnMachine] at step
      split at step
      · next phase =>
        cases step
        exact one.move fun _ _ => ⟨true, phase⟩
      · cases step
  | finish r status payload =>
      simp only [turnMachine] at step
      split at step
      · next a phase =>
        cases step
        exact one.finish phase status payload
      · cases step
  | store r =>
      simp only [turnMachine] at step
      split at step
      · next row a phase =>
        cases step
        have moved : OneRunner (s.setPhase r (.stored a)) := one.rest (by simp)
        exact ⟨moved.busy, moved.runs⟩
      · cases step
  | storeFails r =>
      simp only [turnMachine] at step
      split at step
      · next row a phase =>
        cases step
        simp only [releasesOwn, phase] at own
        exact one.giveUp_free own
      · cases step
  | leave r =>
      simp only [turnMachine] at step
      split at step
      · next a phase =>
        cases step
        simp only [releasesOwn, phase] at own
        have moved : OneRunner (s.setPhase r .done) := one.rest (by simp)
        apply moved.release
        intro attached
        rw [attached, Bool.not_true, Bool.false_or] at own
        exact List.isEmpty_iff.mp own
      · cases step
  | fail r =>
      simp only [turnMachine] at step
      split at step
      · next a phase =>
        cases step
        exact one.giveUp_runner phase
      · cases step
  | cancel r =>
      simp only [turnMachine] at step
      split at step
      · next phase =>
        cases step
        simp only [releasesOwn, phase] at own
        exact one.giveUp_free own
      · next phase =>
        cases step
        simp only [releasesOwn, phase] at own
        exact one.giveUp_free own
      · next a phase =>
        cases step
        exact one.giveUp_runner phase
      · next row a phase =>
        cases step
        simp only [releasesOwn, phase] at own
        exact one.giveUp_free own
      · cases step

/-! ### What was finished -/

/-- A finish waits for its row, or it has expired, or the row covers it; and then the finishes that
wait came after it. -/
def Accounted (s : Turns) (r : Nat) (e : Instant) : Prop :=
  (r, e) ∈ s.pending ∨ e ≤ s.now ∨
    (∃ row, s.row = some row ∧ e ≤ row.expiresAt) ∧ ∀ p ∈ s.pending, e ≤ p.2

/-- Every finish is accounted for. A look-up that found no row, and has seen every row that is stored
now, came after every finish that neither waits nor has expired. -/
structure FinishKept (s : Turns) : Prop where
  storing : ∀ r row a, s.phases r = .storing row a → (r, row.expiresAt) ∈ s.pending
  waits : ∀ r e, (r, e) ∈ s.pending → ∃ row a, s.phases r = .storing row a ∧ row.expiresAt = e
  young : ∀ r e, .finished r e ∈ s.history → e ≤ s.now + expiry
  kept : ∀ r e, .finished r e ∈ s.history → Accounted s r e
  seen : ∀ r n, s.phases r = .answered none n → n ≤ s.stored ∧
    (n = s.stored → ∀ r' e, .finished r' e ∈ s.history → (r', e) ∈ s.pending ∨ e ≤ s.now)
  order : s.history.Pairwise Respects

namespace FinishKept

theorem start (now : Instant) (row : Option TurnRow) : FinishKept (Turns.start now row) where
  storing _ _ _ eq := by cases eq
  waits _ _ member := by cases member
  young _ _ member := by cases member
  kept _ _ member := by cases member
  seen _ _ eq := by cases eq
  order := .nil

/-- The entry plays no part. -/
theorem entry (kept : FinishKept s) (entry : InFlight) : FinishKept { s with inFlight := entry } :=
  ⟨kept.storing, kept.waits, kept.young, kept.kept, kept.seen, kept.order⟩

/-- Nor do the requests that run the turn. -/
theorem release (kept : FinishKept s) (releases : Bool) : FinishKept (s.release releases) := by
  cases releases with
  | false => exact kept
  | true => exact kept.entry _

/-- The clock goes on. -/
theorem tick (kept : FinishKept s) {now : Instant} (later : s.now ≤ now) :
    FinishKept { s with now := now } where
  storing := kept.storing
  waits := kept.waits
  young r e member := Nat.le_trans (kept.young r e member) (Nat.add_le_add_right later _)
  kept r e member :=
    (kept.kept r e member).imp_right (Or.imp_left fun spent => Nat.le_trans spent later)
  seen r n phase := ⟨(kept.seen r n phase).1, fun all r' e member =>
    ((kept.seen r n phase).2 all r' e member).imp_right fun spent => Nat.le_trans spent later⟩
  order := kept.order

/-- The purge takes a row that has expired. -/
theorem purge (kept : FinishKept s) : FinishKept { s with row := purgeExpired s.now s.row } := by
  refine ⟨kept.storing, kept.waits, kept.young, fun r e member => ?_, kept.seen, kept.order⟩
  rcases kept.kept r e member with waiting | spent | ⟨⟨row, stored, covers⟩, first⟩
  · exact .inl waiting
  · exact .inr (.inl spent)
  · by_cases expired : row.expiresAt ≤ s.now
    · exact .inr (.inl (Nat.le_trans covers expired))
    · refine .inr (.inr ⟨⟨row, ?_, covers⟩, first⟩)
      show purgeExpired s.now s.row = some row
      rw [stored, purgeExpired, Option.filter_some, if_pos (decide_eq_true expired)]

/-- A request moves, before its finish or after it. -/
theorem move (kept : FinishKept s) {phase : TurnPhase}
    (stores : ∀ row a, s.phases r ≠ .storing row a) (stores' : ∀ row a, phase ≠ .storing row a)
    (seen : ∀ n, phase = .answered none n → n = s.stored ∧
      ∀ r' e, .finished r' e ∈ s.history → (r', e) ∈ s.pending ∨ e ≤ s.now) :
    FinishKept (s.setPhase r phase) where
  storing r' row a eq := by
    rcases setPhase_phases eq with ⟨_, now⟩ | ⟨_, before⟩
    · exact absurd now (stores' row a)
    · exact kept.storing r' row a before
  waits r' e waiting := by
    obtain ⟨row, a, storing, eq⟩ := kept.waits r' e waiting
    have other : r' ≠ r := by
      rintro rfl
      exact stores row a storing
    exact ⟨row, a, (Function.update_of_ne other ..).trans storing, eq⟩
  young := kept.young
  kept := kept.kept
  seen r' n eq := by
    rcases setPhase_phases eq with ⟨_, now⟩ | ⟨_, before⟩
    · obtain ⟨all, spent⟩ := seen n now
      exact ⟨Nat.le_of_eq all, fun _ => spent⟩
    · exact kept.seen r' n before
  order := kept.order

/-- A request moves on without an answer of the look-up. -/
theorem rest (kept : FinishKept s) {phase : TurnPhase}
    (stores : ∀ row a, s.phases r ≠ .storing row a) (stores' : ∀ row a, phase ≠ .storing row a)
    (looked : ∀ row n, phase ≠ .answered row n) : FinishKept (s.setPhase r phase) :=
  kept.move stores stores' fun n eq => absurd eq (looked none n)

/-- A request leaves, and its finish is taken back. -/
theorem giveUp (kept : FinishKept s) (releases : Bool) : FinishKept (s.giveUp r releases) := by
  have left : ∀ {r' : Nat} {e : Instant}, .finished r' e ∈ (s.giveUp r false).history →
      .finished r' e ∈ s.history ∧ r' ≠ r := by
    intro r' e member
    obtain ⟨before, other⟩ := List.mem_filter.mp member
    exact ⟨before, of_decide_eq_true other⟩
  have waiting : ∀ {r' : Nat} {e : Instant}, (r', e) ∈ s.pending → r' ≠ r →
      (r', e) ∈ (s.giveUp r false).pending := fun member other =>
    List.mem_filter.mpr ⟨member, decide_eq_true other⟩
  have gone : FinishKept (s.giveUp r false) := by
    refine ⟨fun r' row a eq => ?_, fun r' e member => ?_, fun r' e finished => ?_,
      fun r' e finished => ?_, fun r' n eq => ?_, kept.order.filter _⟩
    · obtain ⟨other, storing⟩ := setPhase_done_phases (by simp) eq
      exact waiting (kept.storing r' row a storing) other
    · obtain ⟨before, other⟩ := List.mem_filter.mp member
      obtain ⟨row, a, storing, eq⟩ := kept.waits r' e before
      exact ⟨row, a, (Function.update_of_ne (of_decide_eq_true other) ..).trans storing, eq⟩
    · exact kept.young r' e (left finished).1
    · obtain ⟨before, other⟩ := left finished
      rcases kept.kept r' e before with waits | spent | ⟨covers, first⟩
      · exact .inl (waiting waits other)
      · exact .inr (.inl spent)
      · exact .inr (.inr ⟨covers, fun p member => first p (List.mem_of_mem_filter member)⟩)
    · obtain ⟨all, spent⟩ := kept.seen r' n (setPhase_done_phases (by simp) eq).2
      refine ⟨all, fun same r'' e finished => ?_⟩
      obtain ⟨before, other⟩ := left finished
      exact (spent same r'' e before).imp_left fun member => waiting member other
  exact gone.release releases

/-- The select finds no row only when what was finished has expired or waits for its row. -/
theorem select (kept : FinishKept s) (phase : s.phases r = .lookup) : FinishKept (s.select r) := by
  refine kept.move (by simp [phase]) (by simp) fun n eq => ?_
  injection eq with nothing all
  refine ⟨all.symm, fun r' e member => ?_⟩
  rcases kept.kept r' e member with waiting | spent | ⟨⟨row, stored, covers⟩, _⟩
  · exact .inl waiting
  · exact .inr spent
  · have expired : ¬ s.now < row.expiresAt := by
      intro fresh
      rw [stored, lookupTerminal, Option.filter_some, if_pos (decide_eq_true fresh)] at nothing
      cases nothing
    exact .inr (Nat.le_trans covers (Nat.not_lt.mp expired))

/-- A request begins the turn when what was finished has expired. -/
theorem begins (kept : FinishKept s) (phase : ∀ row a, s.phases r ≠ .storing row a)
    (spent : ∀ r e, .finished r e ∈ s.history → e ≤ s.now) :
    FinishKept { s.setPhase r (.running true) with
      inFlight := some s.now
      running := s.running ++ [(r, s.now)]
      history := s.history ++ [.begun r s.now] } := by
  have moved : FinishKept (s.setPhase r (.running true)) :=
    kept.rest phase (by simp) (by simp)
  have left : ∀ {r' : Nat} {e : Instant}, .finished r' e ∈ s.history ++ [.begun r s.now] →
      .finished r' e ∈ s.history := by
    intro r' e member
    rcases List.mem_append.mp member with before | new
    · exact before
    · cases List.mem_singleton.mp new
  refine ⟨moved.storing, moved.waits, fun r' e member => kept.young r' e (left member),
    fun r' e member => .inr (.inl (spent r' e (left member))), fun r' n eq => ?_, ?_⟩
  · exact ⟨(moved.seen r' n eq).1, fun _ r'' e member => .inr (spent r'' e (left member))⟩
  · refine List.pairwise_append.mpr ⟨kept.order, List.pairwise_singleton _ _, ?_⟩
    intro event member new last
    rw [List.mem_singleton] at last
    subst last
    cases event with
    | begun => trivial
    | finished r' e => exact spent r' e member

/-- What follows the look-up. -/
theorem resume (kept : FinishKept s) {row : Option TurnRow} {n : Nat}
    (phase : s.phases r = .answered row n) (settled : looksSettled (.resume r) s = true) :
    FinishKept (s.resume r row) := by
  have stores : ∀ row a, s.phases r ≠ .storing row a := by simp [phase]
  have moved : FinishKept (s.setPhase r .done) := kept.rest stores (by simp) (by simp)
  cases row with
  | some row => exact moved.release true
  | none =>
      cases found : (runningInfo s.now s.inFlight).2 with
      | some t =>
          rw [resume_runs found]
          exact moved.entry _
      | none =>
          rw [resume_begins found]
          simp only [looksSettled, phase, found, Option.isSome_none, Bool.false_or,
            Bool.and_eq_true, decide_eq_true_eq] at settled
          obtain ⟨stored, all⟩ := settled
          refine kept.begins stores fun r' e member => ?_
          rcases (kept.seen r n phase).2 all r' e member with waiting | spent
          · rw [stored] at waiting
            cases waiting
          · exact spent

/-- The synchronous part of a finish: it is the last one. -/
theorem finish (kept : FinishKept s) {a : Bool} (phase : s.phases r = .running a)
    (status : TurnStatus) (payload : PyStr) : FinishKept (s.finish r a status payload) := by
  let row := finishedRow s.now status payload s.inFlight
  have waiting : ∀ {p : Nat × Instant}, p ∈ s.pending → p ∈ s.pending ++ [(r, row.expiresAt)] :=
    fun member => List.mem_append_left _ member
  have new : (r, row.expiresAt) ∈ s.pending ++ [(r, row.expiresAt)] :=
    List.mem_append_right _ (List.mem_singleton_self _)
  have left : ∀ {r' : Nat} {e : Instant},
      .finished r' e ∈ s.history ++ [.finished r row.expiresAt] →
      .finished r' e ∈ s.history ∨ (r', e) = (r, row.expiresAt) := by
    intro r' e member
    rcases List.mem_append.mp member with before | last
    · exact .inl before
    · cases List.mem_singleton.mp last
      exact .inr rfl
  refine ⟨fun r' row' b eq => ?_, fun r' e member => ?_, fun r' e finished => ?_,
    fun r' e finished => ?_, fun r' n eq => ?_, ?_⟩
  · rcases setPhase_phases eq with ⟨rfl, now⟩ | ⟨_, before⟩
    · cases now
      exact new
    · exact waiting (kept.storing r' row' b before)
  · rcases List.mem_append.mp member with before | last
    · obtain ⟨row', b, storing, eq⟩ := kept.waits r' e before
      have other : r' ≠ r := by
        rintro rfl
        rw [phase] at storing
        cases storing
      exact ⟨row', b, (Function.update_of_ne other ..).trans storing, eq⟩
    · cases List.mem_singleton.mp last
      exact ⟨row, a, Function.update_self .., rfl⟩
  · rcases left finished with before | eq
    · exact kept.young r' e before
    · cases eq
      exact Nat.le_refl _
  · rcases left finished with before | eq
    · rcases kept.kept r' e before with waits | spent | ⟨covers, first⟩
      · exact .inl (waiting waits)
      · exact .inr (.inl spent)
      · refine .inr (.inr ⟨covers, fun p member => ?_⟩)
        rcases List.mem_append.mp member with earlier | last
        · exact first p earlier
        · rw [List.mem_singleton.mp last]
          exact kept.young r' e before
    · cases eq
      exact .inl new
  · rcases setPhase_phases eq with ⟨_, now⟩ | ⟨_, before⟩
    · cases now
    · obtain ⟨all, spent⟩ := kept.seen r' n before
      refine ⟨all, fun same r'' e finished => ?_⟩
      rcases left finished with earlier | eq
      · exact (spent same r'' e earlier).imp_left waiting
      · cases eq
        exact .inl new
  · refine List.pairwise_append.mpr ⟨kept.order, List.pairwise_singleton _ _, ?_⟩
    intro event _ event' last
    rw [List.mem_singleton] at last
    subst last
    cases event <;> trivial

/-- A row is stored when no earlier finish waits for its own. -/
theorem store (kept : FinishKept s) {row : TurnRow} {a : Bool}
    (phase : s.phases r = .storing row a) (first : ∀ p ∈ s.pending, row.expiresAt ≤ p.2) :
    FinishKept (s.store r row a) := by
  have waiting : ∀ {r' : Nat} {e : Instant}, (r', e) ∈ s.pending → r' ≠ r →
      (r', e) ∈ (s.store r row a).pending := fun member other =>
    List.mem_filter.mpr ⟨member, decide_eq_true other⟩
  refine ⟨fun r' row' b eq => ?_, fun r' e member => ?_, kept.young, fun r' e finished => ?_,
    fun r' n eq => ?_, kept.order⟩
  · rcases setPhase_phases eq with ⟨_, now⟩ | ⟨other, before⟩
    · cases now
    · exact waiting (kept.storing r' row' b before) other
  · obtain ⟨before, other⟩ := List.mem_filter.mp member
    obtain ⟨row', b, storing, eq⟩ := kept.waits r' e before
    exact ⟨row', b, (Function.update_of_ne (of_decide_eq_true other) ..).trans storing, eq⟩
  · rcases kept.kept r' e finished with waits | spent | ⟨_, before⟩
    · by_cases same : r' = r
      · subst same
        obtain ⟨row', b, storing, eq⟩ := kept.waits r' e waits
        rw [phase] at storing
        cases storing
        refine .inr (.inr ⟨⟨row, rfl, Nat.le_of_eq eq.symm⟩, fun p member => ?_⟩)
        rw [← eq]
        exact first p (List.mem_of_mem_filter member)
      · exact .inl (waiting waits same)
    · exact .inr (.inl spent)
    · refine .inr (.inr ⟨⟨row, rfl, before _ (kept.storing r row a phase)⟩, fun p member => ?_⟩)
      exact before p (List.mem_of_mem_filter member)
  · rcases setPhase_phases eq with ⟨_, now⟩ | ⟨_, before⟩
    · cases now
    · have fewer : n ≤ s.stored := (kept.seen r' n before).1
      refine ⟨Nat.le_succ_of_le fewer, fun same => ?_⟩
      have same : n = s.stored + 1 := same
      omega

end FinishKept

/-- One step. -/
theorem finishKept_step (action : TurnAction) (s s' : Turns)
    (settled : looksSettled action s = true) (kept : FinishKept s)
    (step : turnMachine.step action s = some s') : FinishKept s' := by
  cases action with
  | tick now =>
      simp only [turnMachine] at step
      split at step
      · next later =>
        cases step
        exact kept.tick later
      · cases step
  | peek =>
      cases step
      exact kept.entry _
  | purge =>
      cases step
      exact kept.purge
  | arrive r =>
      simp only [turnMachine] at step
      split at step
      · next phase =>
        cases step
        exact kept.rest (by simp [phase]) (by simp) (by simp)
      · cases step
  | select r =>
      simp only [turnMachine] at step
      split at step
      · next phase =>
        cases step
        exact kept.select phase
      · cases step
  | resume r =>
      simp only [turnMachine] at step
      split at step
      · next row n phase =>
        cases step
        exact kept.resume phase settled
      · cases step
  | detach r =>
      simp only [turnMachine] at step
      split at step
      · next phase =>
        cases step
        exact kept.rest (by simp [phase]) (by simp) (by simp)
      · cases step
  | finish r status payload =>
      simp only [turnMachine] at step
      split at step
      · next a phase =>
        cases step
        exact kept.finish phase status payload
      · cases step
  | store r =>
      simp only [turnMachine] at step
      split at step
      · next row a phase =>
        cases step
        simp only [looksSettled, phase] at settled
        exact kept.store phase fun p member =>
          of_decide_eq_true (List.all_eq_true.mp settled p member)
      · cases step
  | storeFails r =>
      simp only [turnMachine] at step
      split at step
      · cases step
        exact kept.giveUp _
      · cases step
  | leave r =>
      simp only [turnMachine] at step
      split at step
      · next a phase =>
        cases step
        exact (kept.rest (by simp [phase]) (by simp) (by simp)).release a
      · cases step
  | fail r =>
      simp only [turnMachine] at step
      split at step
      · cases step
        exact kept.giveUp _
      · cases step
  | cancel r =>
      simp only [turnMachine] at step
      split at step
      · cases step
        exact kept.giveUp _
      · cases step
        exact kept.giveUp _
      · cases step
        exact kept.giveUp _
      · cases step
        exact kept.giveUp _
      · cases step

/-! ### Every interleaving -/

/-- In every state that any steps of any requests lead to: when no request releases the id of another,
one request at most runs the turn; when no look-up is older than a finish, no request has begun the
turn after a finish before the row expires. -/
theorem turn_runs_once (now : Instant) (row : Option TurnRow) (actions : List TurnAction)
    (last : Turns) (run : turnMachine.run actions (Turns.start now row) = some last) :
    (turnMachine.Along (fun action s => releasesOwn action s = true) actions
        (Turns.start now row) → last.running.length ≤ 1) ∧
      (turnMachine.Along (fun action s => looksSettled action s = true) actions
        (Turns.start now row) → last.history.Pairwise Respects) := by
  constructor
  · intro along
    have one : OneRunner last :=
      Machine.run_invariant_along oneRunner_step along (.start now row) run
    exact one.length_le
  · intro along
    have kept : FinishKept last :=
      Machine.run_invariant_along finishKept_step along (.start now row) run
    exact kept.order

/-- A turn that runs for a minute; a retry finds it in progress, and a later one is answered from the
row; after the row has expired the turn begins again. -/
def oneTurn : List TurnAction :=
  [ .arrive 0, .select 0, .resume 0, .arrive 1, .select 1, .resume 1, .tick (60 * microsPerSecond),
    .finish 0 .done (py "answer"), .store 0, .leave 0, .arrive 2, .select 2, .resume 2,
    .tick (60 * microsPerSecond + expiry), .arrive 3, .select 3, .resume 3 ]

/-- The theorem in this run. -/
theorem turn_runs_once_one_turn :
    ∃ last, turnMachine.run oneTurn (Turns.start 0 none) = some last ∧
      last.running = [(3, 60 * microsPerSecond + expiry)] ∧ last.running.length ≤ 1 ∧
      last.history.Pairwise Respects := by
  obtain ⟨last, run⟩ := Option.isSome_iff_exists.mp
    (show (turnMachine.run oneTurn (Turns.start 0 none)).isSome = true by decide +kernel)
  have facts : (turnMachine.run oneTurn (Turns.start 0 none)).map Turns.running =
      some [(3, 60 * microsPerSecond + expiry)] := by decide +kernel
  rw [run, Option.map_some, Option.some.injEq] at facts
  obtain ⟨one, order⟩ := turn_runs_once 0 none oneTurn last run
  exact ⟨last, run, facts, one (by decide +kernel), order (by decide +kernel)⟩

/-! ### Two retries -/

/-- A retry is cancelled while it looks the turn up, and a second retry comes. -/
def cancelledRetry : List TurnAction :=
  [ .arrive 0, .select 0, .resume 0, .arrive 1, .cancel 1, .arrive 2, .select 2, .resume 2 ]

/-- A retry looks the turn up before the row is stored, and goes on after the finish. -/
def earlyLookup : List TurnAction :=
  [ .arrive 0, .select 0, .resume 0, .arrive 1, .select 1, .finish 0 .done (py "answer"), .resume 1,
    .store 0 ]

/-- Two requests run the turn at once; a turn that was finished begins again. -/
theorem cancelled_retry_and_early_lookup :
    (turnMachine.run cancelledRetry (Turns.start 0 none)).map Turns.running =
        some [(0, 0), (2, 0)] ∧
      (turnMachine.run earlyLookup (Turns.start 0 none)).map Turns.history =
        some [.begun 0 0, .finished 0 expiry, .begun 1 0] ∧
      ¬ [TurnEvent.begun 0 0, .finished 0 expiry, .begun 1 0].Pairwise Respects := by
  constructor
  · decide +kernel
  constructor
  · decide +kernel
  · decide +kernel

end GhostPour.Chat
