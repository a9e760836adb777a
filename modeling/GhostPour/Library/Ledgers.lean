/-
Module: GhostPour.Library.Ledgers
Layer: Library
Purpose: Parties that hold at most one thing each. A thing is seized from whoever has it, adopted when nobody
  has it, or passed on; each keeps every thing with one holder. One entry of a ledger that is put once and may
  be marked: what a list of events leaves of it. A put that finds the entry changes nothing, and so does a
  mark that does not find it.
Trusted boundary: none
Main exports: OneHolder, seize, passOn, OneHolder.gain, OneHolder.seize, OneHolder.adopt, OneHolder.passOn,
  MarkEvent, MarkEvent.apply, markRun, markRun_marked_iff
-/
import Mathlib

namespace GhostPour

variable {κ τ : Type}

/-- No two parties hold one thing. -/
def OneHolder (holds : κ → Option τ) : Prop :=
  ∀ t h k, holds h = some t → holds k = some t → h = k

namespace OneHolder

variable {before after : κ → Option τ}

theorem of_none (nothing : ∀ k, before k = none) : OneHolder before := by
  intro t h k held _
  rw [nothing h] at held
  cases held

/-- The rule: one party changes what it holds, the others at most lose it, and what the one holds
afterwards nobody else does. -/
theorem gain (one : OneHolder before) (taker : κ)
    (others : ∀ k t, k ≠ taker → after k = some t → before k = some t)
    (alone : ∀ k t, k ≠ taker → after k = some t → after taker ≠ some t) : OneHolder after := by
  intro t h k holds holds'
  by_cases first : h = taker
  · by_cases second : k = taker
    · rw [first, second]
    · rw [first] at holds
      exact absurd holds (alone k t second holds')
  · by_cases second : k = taker
    · rw [second] at holds'
      exact absurd holds' (alone h t first holds)
    · exact one t h k (others h t first holds) (others k t second holds')

end OneHolder

variable [DecidableEq κ]

/-- Take a thing off whoever holds it. -/
def seize [DecidableEq τ] (taker : κ) (t : τ) (holds : κ → Option τ) : κ → Option τ := fun k =>
  if k = taker then some t else if holds k = some t then none else holds k

/-- Hand what one party holds to another one. -/
def passOn (giver taker : κ) (holds : κ → Option τ) : κ → Option τ :=
  Function.update (Function.update holds taker (holds giver)) giver none

namespace OneHolder

variable {holds : κ → Option τ} (one : OneHolder holds)
include one

theorem seize [DecidableEq τ] (taker : κ) (t : τ) : OneHolder (seize taker t holds) := by
  refine one.gain taker ?_ ?_
  · intro k t' other held
    rw [GhostPour.seize, if_neg other] at held
    split at held
    · cases held
    · exact held
  · intro k t' other held
    rw [GhostPour.seize, if_neg other] at held
    rw [GhostPour.seize, if_pos rfl]
    split at held
    · cases held
    · next apart =>
      intro same
      exact apart (held.trans same.symm)

/-- A thing nobody holds may be adopted. -/
theorem adopt {t : τ} (unheld : ∀ k, holds k ≠ some t) (taker : κ) :
    OneHolder (Function.update holds taker (some t)) := by
  refine one.gain taker ?_ ?_
  · intro k t' other held
    rwa [Function.update_of_ne other] at held
  · intro k t' other held same
    rw [Function.update_of_ne other] at held
    rw [Function.update_self] at same
    exact unheld k (held.trans same.symm)

theorem passOn (giver taker : κ) : OneHolder (passOn giver taker holds) := by
  have kept : ∀ k t, k ≠ taker → GhostPour.passOn giver taker holds k = some t →
      k ≠ giver ∧ holds k = some t := by
    intro k t other held
    rw [GhostPour.passOn, Function.update_apply] at held
    split at held
    · cases held
    · next apart =>
      rw [Function.update_of_ne other] at held
      exact ⟨apart, held⟩
  refine one.gain taker (fun k t other held => (kept k t other held).2) ?_
  intro k t other held same
  obtain ⟨apart, had⟩ := kept k t other held
  rw [GhostPour.passOn, Function.update_apply] at same
  split at same
  · cases same
  · rw [Function.update_self] at same
    exact apart (one t k giver had same)

end OneHolder

end GhostPour

namespace GhostPour

/-- An event of one entry: it is put with a tag, marked if its tag is one of some tags, or not
concerned. -/
inductive MarkEvent (τ : Type) where
  | put (tag : τ)
  | mark (names : τ → Bool)
  | other

namespace MarkEvent

variable {τ : Type}

/-- The entry, with its tag and its mark, after an event. -/
def apply : MarkEvent τ → Option (τ × Bool) → Option (τ × Bool)
  | .put tag, none => some (tag, false)
  | .put _, some entry => some entry
  | .mark names, entry => entry.map fun e => (e.1, e.2 || names e.1)
  | .other, entry => entry

theorem apply_mark (names : τ → Bool) (entry : Option (τ × Bool)) :
    (MarkEvent.mark names).apply entry = entry.map fun e => (e.1, e.2 || names e.1) := rfl

def isPut : MarkEvent τ → Bool
  | .put _ => true
  | .mark _ => false
  | .other => false

/-- The event marks an entry with this tag. -/
def marks (tag : τ) : MarkEvent τ → Bool
  | .put _ => false
  | .mark names => names tag
  | .other => false

/-- An entry that is there keeps its tag, and gains the marks that name it. -/
@[simp] theorem apply_some (event : MarkEvent τ) (tag : τ) (marked : Bool) :
    event.apply (some (tag, marked)) = some (tag, marked || event.marks tag) := by
  cases event with
  | put other => simp [apply, marks]
  | mark names => rfl
  | other => simp [apply, marks]

/-- An entry that is not there is put, or stays away. -/
theorem apply_none {event : MarkEvent τ} (noPut : event.isPut = false) :
    event.apply none = none := by
  cases event with
  | put tag => cases noPut
  | mark names => rfl
  | other => rfl

end MarkEvent

section
variable {τ : Type}

/-- The entry after a list of events. -/
def markRun (events : List (MarkEvent τ)) (entry : Option (τ × Bool)) : Option (τ × Bool) :=
  events.foldl (fun entry event => event.apply entry) entry

theorem markRun_cons (event : MarkEvent τ) (events : List (MarkEvent τ))
    (entry : Option (τ × Bool)) :
    markRun (event :: events) entry = markRun events (event.apply entry) := rfl

/-- From an entry that is there, every mark that names it counts. -/
theorem markRun_some (events : List (MarkEvent τ)) (tag : τ) (marked : Bool) :
    markRun events (some (tag, marked)) =
      some (tag, marked || events.any fun event => event.marks tag) := by
  induction events generalizing marked with
  | nil => simp [markRun]
  | cons event events ih =>
      rw [markRun_cons, MarkEvent.apply_some, ih, List.any_cons, Bool.or_assoc]

/-- The first put is followed by a mark that names its tag. -/
def MarkedAfterPut (events : List (MarkEvent τ)) : Prop :=
  ∃ front tag back, events = front ++ .put tag :: back ∧ (∀ event ∈ front, event.isPut = false) ∧
    ∃ event ∈ back, event.marks tag = true

/-- Events that do not put the entry may be dropped in front. -/
theorem markedAfterPut_cons {event : MarkEvent τ} (noPut : event.isPut = false)
    (events : List (MarkEvent τ)) : MarkedAfterPut (event :: events) ↔ MarkedAfterPut events := by
  constructor
  · rintro ⟨front, tag, back, eq, noPuts, marked⟩
    cases front with
    | nil =>
        cases eq
        cases noPut
    | cons first front =>
        rw [List.cons_append, List.cons.injEq] at eq
        exact ⟨front, tag, back, eq.2, fun e member => noPuts e (List.mem_cons_of_mem _ member),
          marked⟩
  · rintro ⟨front, tag, back, rfl, noPuts, marked⟩
    refine ⟨event :: front, tag, back, rfl, fun e member => ?_, marked⟩
    rcases List.mem_cons.mp member with rfl | later
    · exact noPut
    · exact noPuts e later

theorem markedAfterPut_put (tag : τ) (events : List (MarkEvent τ)) :
    MarkedAfterPut (.put tag :: events) ↔ ∃ event ∈ events, event.marks tag = true := by
  constructor
  · rintro ⟨front, tag', back, eq, noPuts, marked⟩
    cases front with
    | nil =>
        cases eq
        exact marked
    | cons first front =>
        rw [List.cons_append, List.cons.injEq] at eq
        have noPut := noPuts first List.mem_cons_self
        rw [← eq.1] at noPut
        cases noPut
  · intro marked
    exact ⟨[], tag, events, rfl, fun _ member => absurd member List.not_mem_nil, marked⟩

/-- An entry that was not there ends marked exactly when a mark comes after the put: a mark that
comes before it is lost. -/
theorem markRun_marked_iff (events : List (MarkEvent τ)) :
    (markRun events none).map Prod.snd = some true ↔ MarkedAfterPut events := by
  induction events with
  | nil =>
      constructor
      · intro marked
        cases marked
      · rintro ⟨front, tag, back, eq, _⟩
        simp at eq
  | cons event events ih =>
      rw [markRun_cons]
      rcases put : event.isPut with _ | _
      · rw [MarkEvent.apply_none put, ih, markedAfterPut_cons put]
      · cases event with
        | put tag =>
            rw [markedAfterPut_put, MarkEvent.apply, markRun_some]
            simp
        | mark names => cases put
        | other => cases put

end

end GhostPour
