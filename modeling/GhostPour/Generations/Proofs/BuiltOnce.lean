/-
Module: GhostPour.Generations.Proofs.BuiltOnce
Layer: Proofs
Purpose: One request at a time builds a generation, a start replaces no row that is done, and the id is
  free again when nobody builds it: as long as a stored failure is retried while nobody builds, a turn
  begins while no done row is stored or on its way, and no request that is registered leaves before
  `finish`. Concurrent retries, an early look-up and a cancelled build break the three.
Trusted boundary: none
Main exports: BuiltOnce, orderly, Steady, built_once, retries_lookup_and_cancel
-/
import GhostPour.Generations.GenerationTurns

namespace GhostPour.Generations

/-! ### The property and the condition -/

/-- At most one request builds; a row that was done when a start replaced it had expired; and while no
request builds, a new one can begin. -/
structure BuiltOnce (s : BuildState) : Prop where
  one : s.requests.countP BuildRequest.builds ≤ 1
  kept : ∀ p ∈ s.replaced, p.1.status = .done → p.1.expiresAt ≤ p.2
  free : (∀ q ∈ s.requests, q.builds = false) →
    ∀ now expectedSeconds, (begin_ now expectedSeconds s.inFlight).2 = true

/-- No request builds. -/
def BuildState.idle (s : BuildState) : Bool := s.requests.all fun q => !q.builds

/-- The row is done and has not expired. -/
def doneAlive (now : Instant) (row : Option GenerationRow) : Bool :=
  row.any fun r => r.status = .done && now < r.expiresAt

/-- The request is about to record its start. -/
def BuildRequest.starts (q : BuildRequest) : Bool :=
  match q.phase with
  | .starting => true
  | _ => false

/-- A stored failure is retried while no request builds. A turn begins while no request builds and the
row is not done by now, and no row that is done is written before it has recorded its start. A request
that builds is not cut short while the id is registered. -/
def orderly : GenerationAction → BuildState → Bool
  | .resume r, s =>
      (s.requests[r]?).all fun q =>
        match q.phase with
        | .answered (some (.failed _)) => s.idle
        | .answered none =>
            s.inFlight.isSome || (s.idle && !doneAlive s.now s.row)
        | _ => true
  | .store r, s =>
      (s.requests[r]?).all fun q =>
        match q.phase with
        | .finishing f => !f.done || s.requests.all fun q' => !q'.starts
        | _ => true
  | .die r, s => (s.requests[r]?).all fun q => !q.builds || s.inFlight.isNone
  | _, _ => true

/-! ### How many build -/

/-- Replacing one element counts it out and the new one in. -/
theorem countP_set_add {α : Type} {p : α → Bool} {l : List α} {i : Nat} {a b : α}
    (found : l[i]? = some a) :
    (l.set i b).countP p + (if p a then 1 else 0) = l.countP p + if p b then 1 else 0 := by
  induction l generalizing i with
  | nil => cases found
  | cons c l ih =>
      cases i with
      | zero =>
          cases found
          rw [List.set_cons_zero, List.countP_cons, List.countP_cons]
          omega
      | succ i =>
          have later := ih found
          rw [List.set_cons_succ, List.countP_cons, List.countP_cons]
          omega

variable {s s' : BuildState} {r : Nat} {q : BuildRequest}

theorem idle_iff : s.idle = true ↔ s.requests.countP BuildRequest.builds = 0 := by
  unfold BuildState.idle
  rw [List.all_eq_true, List.countP_eq_zero]
  simp

/-- Besides what is promised: an entry stands for the one request that builds; and while one is about to
record its start, no row that is done is stored. -/
structure Steady (s : BuildState) : Prop where
  one : s.requests.countP BuildRequest.builds ≤ 1
  kept : ∀ p ∈ s.replaced, p.1.status = .done → p.1.expiresAt ≤ p.2
  entry : s.inFlight.isSome = true → s.requests.countP BuildRequest.builds = 1
  fresh : ∀ q ∈ s.requests, q.phase = .starting → doneAlive s.now s.row = false

namespace Steady

theorem boot (now : Instant) (row : Option GenerationRow) : Steady (.boot now row) where
  one := Nat.zero_le 1
  kept _ member := by cases member
  entry some := by cases some
  fresh _ member := by cases member

theorem builtOnce (steady : Steady s) : BuiltOnce s where
  one := steady.one
  kept := steady.kept
  free none now expectedSeconds := by
    have nobody : s.requests.countP BuildRequest.builds = 0 := by
      rw [List.countP_eq_zero]
      intro q member builds
      rw [none q member] at builds
      cases builds
    cases entry : s.inFlight with
    | none => rfl
    | some e =>
        have one := steady.entry (by rw [entry]; rfl)
        omega

end Steady

/-! ### What a step changes -/

/-- The requests after one of them went on: the others, and this one. -/
theorem mem_move {phase : BuildPhase} {q' : BuildRequest}
    (member : q' ∈ (s.move r q phase).requests) :
    q' ∈ s.requests ∨ q' = { q with phase := phase } :=
  List.mem_or_eq_of_mem_set member

/-- A request that builds as before leaves the count as it is. -/
theorem count_same (found : s.requests[r]? = some q) {phase : BuildPhase}
    (same : phase.builds = q.builds) :
    (s.move r q phase).requests.countP BuildRequest.builds =
      s.requests.countP BuildRequest.builds := by
  have count := countP_set_add (p := BuildRequest.builds) (b := { q with phase := phase }) found
  rw [show BuildRequest.builds { q with phase := phase } = q.builds from same] at count
  exact Nat.add_right_cancel count

theorem count_stops (found : s.requests[r]? = some q) {phase : BuildPhase} (builds : q.builds = true)
    (quiet : phase.builds = false) :
    (s.move r q phase).requests.countP BuildRequest.builds + 1 =
      s.requests.countP BuildRequest.builds := by
  have count := countP_set_add (p := BuildRequest.builds) (b := { q with phase := phase }) found
  rw [show BuildRequest.builds { q with phase := phase } = false from quiet, builds] at count
  exact count

theorem count_begins (found : s.requests[r]? = some q) {phase : BuildPhase} (idle : q.builds = false)
    (builds : phase.builds = true) :
    (s.move r q phase).requests.countP BuildRequest.builds =
      s.requests.countP BuildRequest.builds + 1 := by
  have count := countP_set_add (p := BuildRequest.builds) (b := { q with phase := phase }) found
  rw [show BuildRequest.builds { q with phase := phase } = true from builds, idle] at count
  exact count

theorem builds_of_starting (starting : q.phase = .starting) : q.builds = true := by
  rw [BuildRequest.builds, starting]
  rfl

theorem doneAlive_eq_false {now : Instant} {row : Option GenerationRow} :
    doneAlive now row = false ↔ ∀ r ∈ row, r.status = .done → r.expiresAt ≤ now := by
  cases row with
  | none => simp [doneAlive]
  | some r => simp [doneAlive]

/-- A row that is replaced by none that is done, and a clock that goes on, leave none that is done. -/
theorem doneAlive_later {now now' : Instant} {row row' : Option GenerationRow} (later : now ≤ now')
    (same : ∀ r' ∈ row', r'.status = .done → r' ∈ row) (gone : doneAlive now row = false) :
    doneAlive now' row' = false := by
  rw [doneAlive_eq_false] at gone ⊢
  intro r' member done
  exact (gone r' (same r' member done) done).trans later

theorem not_starting (nobody : s.requests.countP BuildRequest.builds = 0) :
    ∀ q ∈ s.requests, q.phase ≠ .starting := by
  intro q member starting
  exact List.countP_eq_zero.mp nobody q member (builds_of_starting starting)

namespace Steady

variable (steady : Steady s)
include steady

/-- A request goes on that neither builds nor will. -/
theorem rest (found : s.requests[r]? = some q) (idle : q.builds = false) {phase : BuildPhase}
    (quiet : phase.builds = false) : Steady (s.move r q phase) := by
  have same := count_same found (quiet.trans idle.symm)
  refine ⟨same ▸ steady.one, steady.kept, fun entry => same ▸ steady.entry entry, ?_⟩
  intro q' member starting
  rcases mem_move member with old | new
  · exact steady.fresh q' old starting
  · rw [new] at starting
    rw [show phase = .starting from starting] at quiet
    cases quiet

/-- The request that builds stops, and the id is free. -/
theorem stops (found : s.requests[r]? = some q) (builds : q.builds = true) {phase : BuildPhase}
    (quiet : phase.builds = false) : Steady { s.move r q phase with inFlight := none } := by
  have count := count_stops found builds quiet
  have one := steady.one
  have nobody : (s.move r q phase).requests.countP BuildRequest.builds = 0 := by omega
  refine ⟨nobody.le.trans (Nat.zero_le 1), steady.kept, (fun entry => by cases entry), ?_⟩
  intro q' member starting
  exact absurd starting (not_starting nobody q' member)

/-- A request begins. -/
theorem begins (found : s.requests[r]? = some q) (waits : q.builds = false)
    (idle : s.idle = true) (gone : doneAlive s.now s.row = false) (entry : Entry) :
    Steady { s.move r q .starting with inFlight := some entry } := by
  have count : (s.move r q .starting).requests.countP BuildRequest.builds = _ :=
    count_begins found waits rfl
  rw [idle_iff.mp idle] at count
  exact ⟨count.le, steady.kept, fun _ => count, fun _ _ _ => gone⟩

/-- A stored failure is retried. -/
theorem retries (found : s.requests[r]? = some q) (waits : q.builds = false) (idle : s.idle = true) :
    Steady (s.move r q .building) := by
  have nobody := idle_iff.mp idle
  have count : (s.move r q .building).requests.countP BuildRequest.builds = _ :=
    count_begins found waits rfl
  rw [nobody] at count
  refine ⟨count.le, steady.kept, fun _ => count, fun q' member starting => ?_⟩
  rcases mem_move member with old | new
  · exact absurd starting (not_starting nobody q' old)
  · rw [new] at starting
    cases starting

/-- A request records its start. -/
theorem start (found : s.requests[r]? = some q) (starting : q.phase = .starting) :
    Steady (s.start r q) := by
  have gone := steady.fresh q (List.mem_of_getElem? found) starting
  have same : (s.move r q .building).requests.countP BuildRequest.builds = _ :=
    count_same found (builds_of_starting starting).symm
  refine ⟨same ▸ steady.one, fun p member done => ?_, fun entry => same ▸ steady.entry entry,
    fun _ _ _ => rfl⟩
  rcases List.mem_append.mp member with old | new
  · exact steady.kept p old done
  · obtain ⟨row, stored, rfl⟩ := List.mem_map.mp new
    exact doneAlive_eq_false.mp gone row (Option.mem_toList.mp stored) done

/-- A request writes the row of its turn. -/
theorem store (found : s.requests[r]? = some q) {f : Finished} (phase : q.phase = .finishing f)
    (ordered : f.done = true → ∀ q' ∈ s.requests, q'.starts = false) : Steady (s.store r q f) := by
  have idle : q.builds = false := by
    rw [BuildRequest.builds, phase]
    rfl
  have moved : Steady (s.move r q (.over (.finished f.done))) := steady.rest found idle rfl
  refine ⟨moved.one, moved.kept, moved.entry, fun q' member starting => ?_⟩
  have failed : f.done = false := by
    rcases mem_move member with old | new
    · cases done : f.done with
      | false => rfl
      | true =>
          have quiet := ordered done q' old
          rw [BuildRequest.starts, starting] at quiet
          cases quiet
    · rw [new] at starting
      cases starting
  have status : (storeFinish f s.row).status = .failed := by
    have last : f.status = .failed := by
      rw [Finished.status, failed]
      rfl
    cases s.row with
    | none => exact last
    | some row => exact last
  rw [doneAlive_eq_false]
  intro row stored done
  rw [← Option.mem_some.mp stored, status] at done
  cases done

/-- The clock goes on, or the row becomes one that is not done. -/
theorem later {now : Instant} {row : Option GenerationRow} {due : Bool} (after : s.now ≤ now)
    (same : ∀ r' ∈ row, r'.status = .done → r' ∈ s.row) :
    Steady { s with now := now, row := row, sweepDue := due } where
  one := steady.one
  kept := steady.kept
  entry := steady.entry
  fresh q member starting := doneAlive_later after same (steady.fresh q member starting)

/-- A request comes in. -/
theorem arrive (context : TurnContext) (expectedSeconds : Option Nat) :
    Steady { s with requests := s.requests ++ [⟨context, expectedSeconds, .lookup⟩] } := by
  have same : (s.requests ++ [(⟨context, expectedSeconds, .lookup⟩ : BuildRequest)]).countP
      BuildRequest.builds = s.requests.countP BuildRequest.builds := by
    rw [List.countP_append]
    rfl
  refine ⟨same.le.trans steady.one, steady.kept, fun entry => same.trans (steady.entry entry), ?_⟩
  intro q member starting
  rcases List.mem_append.mp member with old | new
  · exact steady.fresh q old starting
  · rw [List.mem_singleton.mp new] at starting
    cases starting

/-- The process restarts. -/
theorem restart : Steady s.restart := by
  have nobody : s.restart.requests.countP BuildRequest.builds = 0 := by
    rw [List.countP_eq_zero]
    intro q member builds
    obtain ⟨q', -, rfl⟩ := List.mem_map.mp member
    cases builds
  refine ⟨nobody.le.trans (Nat.zero_le 1), steady.kept, (fun entry => by cases entry), ?_⟩
  intro q member starting
  exact absurd starting (not_starting nobody q member)

/-- What follows the look-up. -/
theorem resume (found : s.requests[r]? = some q) {stored : Option Terminal}
    (phase : q.phase = .answered stored) (ordered : orderly (.resume r) s = true) :
    Steady (s.resume r q stored) := by
  have waits : q.builds = false := by
    rw [BuildRequest.builds, phase]
    rfl
  simp only [orderly, found, Option.all_some, phase] at ordered
  rcases stored with _ | text | error
  · unfold BuildState.resume
    cases entry : s.inFlight with
    | some e => exact steady.rest found waits rfl
    | none =>
        simp only [entry, Option.isSome_none, Bool.false_or, Bool.and_eq_true, Bool.not_eq_true'] at ordered
        exact steady.begins found waits ordered.1 ordered.2 _
  · exact steady.rest found waits rfl
  · exact steady.retries found waits ordered

/-- One step. -/
theorem step (a : GenerationAction) (ordered : orderly a s = true)
    (taken : generationMachine.step a s = some s') : Steady s' := by
  cases a with
  | tick now =>
      obtain ⟨after, same⟩ := Option.ite_none_right_eq_some.mp taken
      cases same
      exact steady.later after fun _ member _ => member
  | arrive context expectedSeconds =>
      cases taken
      exact steady.arrive context expectedSeconds
  | select r =>
      obtain ⟨q, found, goes⟩ := Option.bind_eq_some_iff.mp taken
      split at goes
      · next phase =>
        cases goes
        have idle : q.builds = false := by
          rw [BuildRequest.builds, phase]
          rfl
        exact steady.rest found idle rfl
      · cases goes
  | resume r =>
      obtain ⟨q, found, goes⟩ := Option.bind_eq_some_iff.mp taken
      split at goes
      · next phase =>
        cases goes
        exact steady.resume found phase ordered
      · cases goes
  | start r =>
      obtain ⟨q, found, goes⟩ := Option.bind_eq_some_iff.mp taken
      split at goes
      · next phase =>
        cases goes
        exact steady.start found phase
      · cases goes
  | succeed r text files =>
      obtain ⟨q, found, goes⟩ := Option.bind_eq_some_iff.mp taken
      split at goes
      · next phase =>
        cases goes
        have builds : q.builds = true := by
          rw [BuildRequest.builds, phase]
          rfl
        exact steady.stops found builds rfl
      · cases goes
  | fail r error =>
      obtain ⟨q, found, goes⟩ := Option.bind_eq_some_iff.mp taken
      split at goes
      · next phase =>
        cases goes
        have builds : q.builds = true := by
          rw [BuildRequest.builds, phase]
          rfl
        exact steady.stops found builds rfl
      · cases goes
  | store r =>
      obtain ⟨q, found, goes⟩ := Option.bind_eq_some_iff.mp taken
      split at goes
      · next f phase =>
        cases goes
        simp only [orderly, found, Option.all_some, phase, Bool.or_eq_true, Bool.not_eq_true',
          List.all_eq_true] at ordered
        refine steady.store found phase fun done => ordered.resolve_left ?_
        rw [done]
        exact Bool.noConfusion
      · cases goes
  | die r =>
      obtain ⟨q, found, goes⟩ := Option.bind_eq_some_iff.mp taken
      split at goes
      · cases goes
      · cases goes
        cases builds : q.builds with
        | false => exact steady.rest found builds rfl
        | true =>
            simp only [orderly, found, Option.all_some, builds, Bool.not_true, Bool.false_or,
              Option.isNone_iff_eq_none] at ordered
            have stopped : Steady { s.move r q (.over .gone) with inFlight := none } :=
              steady.stops found builds rfl
            rw [← ordered] at stopped
            exact stopped
  | restart =>
      cases taken
      exact steady.restart
  | sweep =>
      obtain ⟨-, same⟩ := Option.ite_none_right_eq_some.mp taken
      cases same
      refine steady.later le_rfl fun row' member done => ?_
      obtain ⟨row, stored, rfl⟩ := Option.map_eq_some_iff.mp member
      split at done
      · cases done
      · next other =>
        rw [if_neg other]
        exact stored
  | purge =>
      cases taken
      exact steady.later le_rfl fun row' member _ => (Option.filter_eq_some_iff.mp member).1

end Steady

/-- In every state of a run whose steps are all orderly, at most one request builds, no start has replaced
a row that was done and had not expired, and while no request builds a new one can begin. -/
theorem built_once {now : Instant} {row : Option GenerationRow} {actions : List GenerationAction}
    (ordered : generationMachine.Along (fun a s => orderly a s = true) actions (.boot now row)) :
    ∀ front, front <+: actions → ∀ mid, generationMachine.run front (.boot now row) = some mid →
      BuiltOnce mid := by
  intro front short mid reached
  obtain ⟨back, rfl⟩ := short
  have along := (Machine.along_append.mp ordered).1
  have steady : Steady mid := Machine.run_invariant_along
    (fun a _ _ ordered steady taken => Steady.step steady a ordered taken) along (.boot now row) reached
  exact steady.builtOnce

/-! ### Runs -/

/-- The turn of a project. -/
def projectTurn : TurnContext :=
  ⟨some (py "shouldersurf"), some (py "p1"), none, none, some (py "Build the plan")⟩

/-- What a provider that fails leaves. -/
def providerError : Json := .obj [(py "code", .str (py "provider_error"))]

/-- A request that comes in and begins to build. -/
def oneBuild : List GenerationAction :=
  [.arrive projectTurn none, .select 0, .resume 0, .start 0]

/-- A build that fails after a minute and is retried: a second request meanwhile finds it in progress, a
last one is answered from the row. -/
def retriedBuild : List GenerationAction :=
  oneBuild ++ [.arrive projectTurn none, .select 1, .resume 1, .tick (60 * microsPerSecond),
    .fail 0 providerError, .store 0, .arrive projectTurn none, .select 2, .resume 2,
    .succeed 2 (py "Built your plan.") [], .store 2, .arrive projectTurn none, .select 3, .resume 3]

theorem retried_build_once :
    (generationMachine.run retriedBuild (.boot 0 none)).isSome = true ∧
      ∀ front, front <+: retriedBuild → ∀ mid,
        generationMachine.run front (.boot 0 none) = some mid → BuiltOnce mid :=
  ⟨by decide +kernel, built_once (by decide +kernel)⟩

/-- Two retries of a failed build at once. -/
def concurrentRetries : List GenerationAction :=
  oneBuild ++ [.fail 0 providerError, .store 0, .arrive projectTurn none, .arrive projectTurn none,
    .select 1, .select 2, .resume 1, .resume 2]

/-- A second request looks the turn up while it is built, and goes on after it is done. -/
def earlyLookup : List GenerationAction :=
  oneBuild ++ [.arrive projectTurn none, .select 1, .succeed 0 (py "Built your plan.") [], .store 0,
    .resume 1, .start 1]

/-- A build that is cancelled. -/
def cancelledBuild : List GenerationAction := oneBuild ++ [.die 0]

/-- Two requests build at once; a start replaces a row that is done; nobody builds and no request can
begin, now or later. -/
theorem retries_lookup_and_cancel :
    (∃ mid, generationMachine.run concurrentRetries (.boot 0 none) = some mid ∧
      mid.requests.countP BuildRequest.builds = 2) ∧
    (∃ mid, generationMachine.run earlyLookup (.boot 0 none) = some mid ∧
      ∃ p ∈ mid.replaced, p.1.status = .done ∧ p.2 < p.1.expiresAt) ∧
    (∃ mid, generationMachine.run cancelledBuild (.boot 0 none) = some mid ∧
      (∀ q ∈ mid.requests, q.builds = false) ∧
      ∀ now expectedSeconds, (begin_ now expectedSeconds mid.inFlight).2 = false) := by
  refine ⟨?_, ?_, ?_⟩
  · exact ⟨_, rfl, by decide +kernel⟩
  · exact ⟨_, rfl, by decide +kernel⟩
  · exact ⟨_, rfl, by decide +kernel, fun _ _ => rfl⟩

end GhostPour.Generations
