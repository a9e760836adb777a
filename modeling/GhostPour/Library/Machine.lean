/-
Module: GhostPour.Library.Machine
Layer: Library
Purpose: Machines whose steps are labelled, for programs that run beside each other: an action is an atomic
  statement of one of the parties, and a list of actions is an interleaving. The rules carry what one step
  preserves to every run, or to every run whose steps all meet a condition. Replaying a log in buckets: the
  state is carried from bucket to bucket and sampled at the end of each one. In a sorted log a sample is the
  replay of all entries up to its bucket.
Trusted boundary: none
Main exports: Machine, Machine.run, Machine.Along, Machine.run_invariant, Machine.run_invariant_along,
  Machine.run_transitive, Machine.run_rel, Machine.run_map, Machine.run_iff_along, Machine.run_isSome_iff,
  Machine.along_congr, Machine.Lasts, Machine.run_lasts_iff_under, Machine.run_lasts_iff,
  Machine.throughout_iff_along, Machine.throughout_iff_along_under, Replay.samples, Replay.samples_replay,
  Replay.samples_from_first
-/
import GhostPour.Library.Fallible
import Mathlib

namespace GhostPour

/-- A machine: what an action does in a state, if it can be taken there. -/
structure Machine (σ α : Type) where
  step : α → σ → Option σ

namespace Machine

variable {σ α : Type} (m : Machine σ α)

/-- Take the actions one after the other. -/
def run : List α → σ → Option σ
  | [], s => some s
  | a :: actions, s => (m.step a s).bind (run actions)

/-- Every action that is taken meets a condition on the state before it. -/
def Along (P : α → σ → Prop) : List α → σ → Prop
  | [], _ => True
  | a :: actions, s => P a s ∧ ∀ s', m.step a s = some s' → Along P actions s'

/-- Some action on the way brings a property about, and each action after it keeps it. -/
def Lasts (Sets Keeps : α → σ → Prop) : List α → σ → Prop
  | [], _ => False
  | a :: actions, s => ∃ next, m.step a s = some next ∧
      (Sets a s ∧ m.Along Keeps actions next ∨ Lasts Sets Keeps actions next)

variable {m}

@[simp] theorem run_nil (s : σ) : m.run [] s = some s := rfl

theorem run_cons (a : α) (actions : List α) (s : σ) :
    m.run (a :: actions) s = (m.step a s).bind (m.run actions) := rfl

theorem run_cons_eq_some {a : α} {actions : List α} {s last : σ} :
    m.run (a :: actions) s = some last ↔
      ∃ next, m.step a s = some next ∧ m.run actions next = some last :=
  Option.bind_eq_some_iff

theorem run_append (front back : List α) (s : σ) :
    m.run (front ++ back) s = (m.run front s).bind (m.run back) := by
  induction front generalizing s with
  | nil => rfl
  | cons a front ih =>
      rw [List.cons_append, run_cons, run_cons]
      cases m.step a s with
      | none => rfl
      | some next => exact ih next

theorem run_cons_of_step {a : α} {actions : List α} {s next : σ} (step : m.step a s = some next) :
    m.run (a :: actions) s = m.run actions next := by
  rw [run_cons, step]
  rfl

/-- A machine that does on some labels and states what another one does runs on these as it does. -/
theorem run_map {τ β : Type} {other : Machine τ β} (f : β → α) (g : τ → σ)
    (same : ∀ b t, m.step (f b) (g t) = (other.step b t).map g) (actions : List β) (t : τ) :
    m.run (actions.map f) (g t) = (other.run actions t).map g := by
  induction actions generalizing t with
  | nil => rfl
  | cons b actions ih =>
      rw [List.map_cons, run_cons, run_cons, same, Option.map_bind, Option.bind_map]
      exact congrArg _ (funext ih)

theorem along_cons_iff {P : α → σ → Prop} {a : α} {actions : List α} {s next : σ}
    (step : m.step a s = some next) :
    m.Along P (a :: actions) s ↔ P a s ∧ m.Along P actions next := by
  constructor
  · rintro ⟨here, after⟩
    exact ⟨here, after next step⟩
  · rintro ⟨here, after⟩
    refine ⟨here, fun s' taken => ?_⟩
    rw [step, Option.some.injEq] at taken
    rw [← taken]
    exact after

/-- Whether the actions meet a condition can be tested on the way. -/
instance Along.decidable {P : α → σ → Prop} [∀ a s, Decidable (P a s)] :
    ∀ actions s, Decidable (m.Along P actions s)
  | [], _ => isTrue trivial
  | a :: actions, s =>
      match taken : m.step a s with
      | none => decidable_of_iff (P a s) (by simp [Along, taken])
      | some next =>
          have : Decidable (m.Along P actions next) := decidable actions next
          decidable_of_iff (P a s ∧ m.Along P actions next) (by simp [Along, taken])

/-- The invariant rule for runs whose steps all meet a condition. -/
theorem run_invariant_along {I : σ → Prop} {P : α → σ → Prop}
    (keeps : ∀ a s s', P a s → I s → m.step a s = some s' → I s') {actions : List α} :
    ∀ {s last : σ}, m.Along P actions s → I s → m.run actions s = some last → I last := by
  induction actions with
  | nil =>
      intro s last _ start run
      cases run
      exact start
  | cons a actions ih =>
      intro s last along start run
      obtain ⟨next, step, rest⟩ := run_cons_eq_some.mp run
      exact ih (along.2 next step) (keeps a s next along.1 start step) rest

/-- A condition that holds of every action holds along the run. -/
theorem along_of_forall {P : α → σ → Prop} {actions : List α}
    (each : ∀ a ∈ actions, ∀ s, P a s) (s : σ) : m.Along P actions s := by
  induction actions generalizing s with
  | nil => trivial
  | cons a actions ih =>
      rw [List.forall_mem_cons] at each
      exact ⟨each.1 s, fun s' _ => ih each.2 s'⟩

/-- The invariant rule. -/
theorem run_invariant {I : σ → Prop} (keeps : ∀ a s s', I s → m.step a s = some s' → I s')
    {actions : List α} {s last : σ} (start : I s) (run : m.run actions s = some last) : I last :=
  run_invariant_along (P := fun _ _ => True) (fun a s s' _ => keeps a s s')
    (along_of_forall (fun _ _ _ => trivial) s) start run

/-- The invariant rule for a relation between the states before and after: what each of the actions
keeps, the run keeps. -/
theorem run_transitive {R : σ → σ → Prop} (refl : ∀ s, R s s)
    (trans : ∀ r s t, R r s → R s t → R r t) {actions : List α}
    (keeps : ∀ a ∈ actions, ∀ s s', m.step a s = some s' → R s s') {s last : σ}
    (run : m.run actions s = some last) : R s last :=
  run_invariant_along (I := R s) (P := fun a _ => a ∈ actions)
    (fun a r r' listed reached step => trans s r r' reached (keeps a listed r r' step))
    (along_of_forall (fun _ listed _ => listed) s) (refl s) run

/-- Two machines whose steps keep a relation keep it over a run, and one is stopped where the other
is. -/
theorem run_rel {τ : Type} {other : Machine τ α} {R : σ → τ → Prop}
    (keeps : ∀ a s t, R s t → Option.Rel R (m.step a s) (other.step a t)) {actions : List α} :
    ∀ {s : σ} {t : τ}, R s t → Option.Rel R (m.run actions s) (other.run actions t) := by
  induction actions with
  | nil => exact fun related => .some related
  | cons a actions ih => exact fun related => rel_bind (keeps a _ _ related) fun _ _ => ih

/-- Under an invariant, conditions that agree on each step agree along the run. -/
theorem along_congr {I : σ → Prop} {P Q : α → σ → Prop}
    (keeps : ∀ a s s', I s → m.step a s = some s' → I s')
    (same : ∀ a s, I s → (P a s ↔ Q a s)) {actions : List α} :
    ∀ {s : σ}, I s → (m.Along P actions s ↔ m.Along Q actions s) := by
  induction actions with
  | nil => exact fun _ => Iff.rfl
  | cons a actions ih =>
      intro s start
      rw [Along, Along, same a s start]
      refine and_congr_right fun _ => forall_congr' fun next => ?_
      exact imp_congr_right fun step => ih (keeps a s next start step)

/-- The exact form of the rule: when each step keeps a property exactly when it meets the condition,
so does each run. -/
theorem run_iff_along {I Q : σ → Prop} {P : α → σ → Prop}
    (keeps : ∀ a s s', I s → m.step a s = some s' → I s')
    (exactly : ∀ a s s', I s → m.step a s = some s' → (Q s' ↔ Q s ∧ P a s)) {actions : List α} :
    ∀ {s last : σ}, I s → m.run actions s = some last → (Q last ↔ Q s ∧ m.Along P actions s) := by
  induction actions with
  | nil =>
      intro s last _ run
      cases run
      exact (and_iff_left trivial).symm
  | cons a actions ih =>
      intro s last start run
      obtain ⟨next, step, rest⟩ := run_cons_eq_some.mp run
      calc Q last ↔ Q next ∧ m.Along P actions next := ih (keeps a s next start step) rest
        _ ↔ (Q s ∧ P a s) ∧ m.Along P actions next := by rw [exactly a s next start step]
        _ ↔ Q s ∧ m.Along P (a :: actions) s := by rw [along_cons_iff step, and_assoc]

/-- Where each step is known to bring a property about or to keep it, so is each run: the property holds
at the end when it held at the start and was kept, or was brought about on the way and kept since. -/
theorem run_lasts_iff_under {I Q : σ → Prop} {Sets Keeps : α → σ → Prop}
    (keeps : ∀ a s s', I s → m.step a s = some s' → I s')
    (exactly : ∀ a s s', I s → m.step a s = some s' → (Q s' ↔ Sets a s ∨ Q s ∧ Keeps a s))
    {actions : List α} :
    ∀ {s last : σ}, I s → m.run actions s = some last →
      (Q last ↔ Q s ∧ m.Along Keeps actions s ∨ m.Lasts Sets Keeps actions s) := by
  induction actions with
  | nil =>
      intro s last _ run
      cases run
      simp [Along, Lasts]
  | cons a actions ih =>
      intro s last start run
      obtain ⟨next, step, rest⟩ := run_cons_eq_some.mp run
      have later : m.Lasts Sets Keeps (a :: actions) s ↔
          Sets a s ∧ m.Along Keeps actions next ∨ m.Lasts Sets Keeps actions next := by
        simp [Lasts, step]
      rw [ih (keeps a s next start step) rest, exactly a s next start step, along_cons_iff step, later,
        or_and_right, and_assoc, or_assoc, or_left_comm]

/-- The same without an invariant. -/
theorem run_lasts_iff {Q : σ → Prop} {Sets Keeps : α → σ → Prop}
    (exactly : ∀ a s s', m.step a s = some s' → (Q s' ↔ Sets a s ∨ Q s ∧ Keeps a s))
    {actions : List α} {s last : σ} (run : m.run actions s = some last) :
    Q last ↔ Q s ∧ m.Along Keeps actions s ∨ m.Lasts Sets Keeps actions s :=
  run_lasts_iff_under (I := fun _ => True) (fun _ _ _ _ _ => trivial)
    (fun a s s' _ => exactly a s s') trivial run

theorem along_append {P : α → σ → Prop} {front back : List α} {s : σ} :
    m.Along P (front ++ back) s ↔
      m.Along P front s ∧ ∀ mid, m.run front s = some mid → m.Along P back mid := by
  induction front generalizing s with
  | nil => simp [Along]
  | cons a front ih =>
      rw [List.cons_append, Along, Along, run_cons]
      cases m.step a s with
      | none => simp
      | some next => simp [ih, and_assoc]

/-- A run returns exactly when each of its steps meets the condition under which it returns. -/
theorem run_isSome_iff {I : σ → Prop} {P : α → σ → Prop}
    (keeps : ∀ a s s', I s → m.step a s = some s' → I s') {actions : List α}
    (exactly : ∀ a ∈ actions, ∀ s, I s → ((m.step a s).isSome = true ↔ P a s)) :
    ∀ {s : σ}, I s → ((m.run actions s).isSome = true ↔ m.Along P actions s) := by
  induction actions with
  | nil => exact fun _ => iff_of_true rfl trivial
  | cons a actions ih =>
      intro s start
      rw [List.forall_mem_cons] at exactly
      rw [run_cons, isSome_bind_iff, exactly.1 s start, Along]
      refine and_congr_right fun _ => forall_congr' fun next => ?_
      exact imp_congr_right fun step => ih exactly.2 (keeps a s next start step)

/-- In a run that returns, a property of the first state holds of every state on the way exactly when
each step meets the condition under which it keeps the property. -/
theorem throughout_iff_along {I : σ → Prop} {P : α → σ → Prop} {actions : List α}
    (exactly : ∀ a ∈ actions, ∀ s s', I s → m.step a s = some s' → (I s' ↔ P a s)) :
    ∀ {s last : σ}, I s → m.run actions s = some last →
      ((∀ front, front <+: actions → ∀ mid, m.run front s = some mid → I mid) ↔
        m.Along P actions s) := by
  induction actions with
  | nil =>
      intro s last start run
      refine iff_of_true ?_ trivial
      intro front short mid reached
      rw [List.prefix_nil.mp short] at reached
      cases reached
      exact start
  | cons a actions ih =>
      intro s last start run
      rw [List.forall_mem_cons] at exactly
      obtain ⟨next, step, rest⟩ := run_cons_eq_some.mp run
      rw [along_cons_iff step]
      constructor
      · intro each
        have here : I next := each [a] (List.prefix_append [a] actions) next
          (by rw [run_cons_of_step step]; rfl)
        refine ⟨(exactly.1 s next start step).mp here, (ih exactly.2 here rest).mp ?_⟩
        intro front short mid reached
        exact each (a :: front) (List.cons_prefix_cons.mpr ⟨rfl, short⟩) mid
          (by rw [run_cons_of_step step]; exact reached)
      · rintro ⟨meets, after⟩
        have here := (exactly.1 s next start step).mpr meets
        have later := (ih exactly.2 here rest).mpr after
        intro front short mid reached
        cases front with
        | nil =>
            cases reached
            exact start
        | cons a' front =>
            obtain ⟨rfl, shorter⟩ := List.cons_prefix_cons.mp short
            rw [run_cons_of_step step] at reached
            exact later front shorter mid reached

/-- The same for a property beside an invariant: the invariant is kept by every step, and under it the
steps keep the property exactly when they meet the condition. -/
theorem throughout_iff_along_under {J I : σ → Prop} {P : α → σ → Prop} {actions : List α}
    (keeps : ∀ a ∈ actions, ∀ s s', J s → m.step a s = some s' → J s')
    (exactly : ∀ a ∈ actions, ∀ s s', J s → I s → m.step a s = some s' → (I s' ↔ P a s))
    {s last : σ} (invariant : J s) (start : I s) (run : m.run actions s = some last) :
    (∀ front, front <+: actions → ∀ mid, m.run front s = some mid → I mid) ↔
      m.Along P actions s := by
  have both := throughout_iff_along (I := fun s => J s ∧ I s) (P := P)
    (fun a listed s s' here step => by
      rw [← exactly a listed s s' here.1 here.2 step]
      exact and_iff_right (keeps a listed s s' here.1 step)) ⟨invariant, start⟩ run
  rw [← both]
  refine forall_congr' fun front => forall_congr' fun short => forall_congr' fun mid => ?_
  refine imp_congr_right fun reached => (and_iff_right ?_).symm
  exact run_invariant_along (fun a s s' listed => keeps a listed s s')
    (along_of_forall (fun a member _ => short.subset member) s) invariant reached

end Machine

end GhostPour

namespace GhostPour.Replay

variable {σ ε : Type} (step : σ → ε → σ) (key : ε → Nat)

/-- The state at the end of each bucket. -/
def samples (log : List ε) : List Nat → σ → List (Nat × σ)
  | [], _ => []
  | k :: buckets, s =>
      let after := (log.filter fun e => key e = k).foldl step s
      (k, after) :: samples log buckets after

theorem samples_keys (log : List ε) (buckets : List Nat) (s : σ) :
    (samples step key log buckets s).map Prod.fst = buckets := by
  induction buckets generalizing s with
  | nil => rfl
  | cons k buckets ih => rw [samples, List.map_cons, ih]

/-- In a sorted log a bucket comes right after all smaller ones. -/
theorem filter_le_eq {log : List ε} (sorted : log.Pairwise fun a b => key a ≤ key b) (k : Nat) :
    log.filter (fun e => key e ≤ k) =
      log.filter (fun e => key e < k) ++ log.filter fun e => key e = k := by
  induction log with
  | nil => rfl
  | cons e log ih =>
      obtain ⟨first, rest⟩ := List.pairwise_cons.mp sorted
      simp only [List.filter_cons]
      rcases Nat.lt_trichotomy (key e) k with below | here | above
      · simp [below, below.le, below.ne, ih rest]
      · -- From here on the log has no smaller entry.
        have none : log.filter (fun e => key e < k) = [] := by
          rw [List.filter_eq_nil_iff]
          intro later member
          have := first later member
          simp only [decide_eq_true_eq]
          omega
        have same := ih rest
        rw [none, List.nil_append] at same
        simp [here, none, same]
      · simp [above.not_ge, above.not_gt, above.ne', ih rest]

/-- A sample is the replay of the entries up to its bucket. -/
theorem samples_replay {log : List ε} (sorted : log.Pairwise fun a b => key a ≤ key b) (init : σ)
    (count : Nat) (start : Nat) :
    ∀ sample ∈ samples step key log (List.range' start count)
        ((log.filter fun e => key e < start).foldl step init),
      sample.2 = (log.filter fun e => key e ≤ sample.1).foldl step init := by
  induction count generalizing start with
  | zero => exact fun sample member => nomatch member
  | succ count ih =>
      intro sample member
      have here : (log.filter fun e => key e = start).foldl step
          ((log.filter fun e => key e < start).foldl step init) =
          (log.filter fun e => key e ≤ start).foldl step init := by
        rw [filter_le_eq key sorted, List.foldl_append]
      rw [List.range'_succ, samples, here] at member
      rcases List.mem_cons.mp member with rfl | later
      · rfl
      · simp only [← Nat.lt_succ_iff] at later
        exact ih (start + 1) sample later

/-- From the bucket of the first entry on, nothing has been replayed before. -/
theorem samples_from_first {first : ε} {rest : List ε}
    (sorted : (first :: rest).Pairwise fun a b => key a ≤ key b) (init : σ) (count : Nat) :
    ∀ sample ∈ samples step key (first :: rest) (List.range' (key first) count) init,
      sample.1 ∈ List.range' (key first) count ∧
      sample.2 = ((first :: rest).filter fun e => key e ≤ sample.1).foldl step init := by
  intro sample member
  have none : (first :: rest).filter (fun e => key e < key first) = [] := by
    rw [List.filter_eq_nil_iff]
    intro e here
    rcases List.mem_cons.mp here with rfl | later
    · simp
    · simpa using (List.pairwise_cons.mp sorted).1 e later
  have replayed := samples_replay step key sorted init count (key first) sample
  rw [none] at replayed
  refine ⟨?_, replayed member⟩
  rw [← samples_keys step key (first :: rest) (List.range' (key first) count) init]
  exact List.mem_map_of_mem member

end GhostPour.Replay
