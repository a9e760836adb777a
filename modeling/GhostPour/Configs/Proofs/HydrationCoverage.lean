/-
Module: GhostPour.Configs.Proofs.HydrationCoverage
Layer: Proofs
Purpose: Hydration and the drift report cover a document together exactly when the overlay's version is a
  number where something is added, what is written is text, no NaN is added, and no two values that are
  compared are equal in Python and different JSON, or the other way round, beside a report that would
  come out the same without them.
Trusted boundary: none
Main exports: sameJson, carried, missing, compared, Covered, Coverable, hydration_covers_iff
-/
import GhostPour.Configs.Proofs.HydrationWalk
import GhostPour.Library.Fallible

namespace GhostPour.Configs

open Json (Meeting walk walkMembers walkItems lockstep Stops walk_induction walk_of_stops
  walkMembers_eq)

variable {members d d' : Dict} {b o v : Json} {key k : PyStr} {ptr : PyStr}

/-! ### The same JSON value -/

/-- One scalar: of the same type, and with the same text. -/
def sameScalar : Json → Json → Bool
  | .null, .null => true
  | .bool a, .bool b => a == b
  | .int a, .int b => a == b
  | .float a, .float b => a == b
  | .str a, .str b => a == b
  | _, _ => false

/-- One JSON value; the order of keys is none. -/
def sameJson : Json → Json → Bool := Json.deepBy sameScalar

mutual

/-- Every value of the first document is the same value in the second, down through objects and through
lists of objects of one length. -/
def carried : Json → Json → Bool
  | .obj members, .obj d => carriedMembers members d
  | .arr bs, .arr os => if lockstep bs os then carriedItems bs os else sameJson (.arr bs) (.arr os)
  | b, o => sameJson b o

def carriedMembers : List (PyStr × Json) → Dict → Bool
  | [], _ => true
  | (key, v) :: members, d => Dict.has d key && carried v (Dict.get d key) && carriedMembers members d

def carriedItems : List Json → List Json → Bool
  | b :: bs, o :: os => carried b o && carriedItems bs os
  | _, _ => true

end

/-- What the walk has to meet for the first document to be carried. -/
def CarriedAt : Meeting PyStr → Prop
  | .lacks _ _ _ => False
  | .stops b o _ => sameJson b o = true

theorem carried_of_stops (stops : Stops b o) : carried b o = sameJson b o := by
  cases b with
  | obj members =>
      cases o with
      | obj d => exact absurd ⟨rfl, rfl⟩ (stops.1 members d)
      | null | bool _ | int _ | float _ | str _ | arr _ => rfl
  | arr bs =>
      cases o with
      | arr os =>
          rw [carried, stops.2 bs os rfl rfl]
          rfl
      | null | bool _ | int _ | float _ | str _ | obj _ => rfl
  | null | bool _ | int _ | float _ | str _ => rfl

theorem carriedItems_iff {bs os : List Json}
    (each : ∀ pair ∈ bs.zip os, ∀ ptr,
      (carried pair.1 pair.2 = true ↔ ∀ e ∈ walk pointerSteps pair.1 pair.2 ptr, CarriedAt e))
    (ptr : PyStr) (i : Nat) :
    carriedItems bs os = true ↔ ∀ e ∈ walkItems pointerSteps bs os ptr i, CarriedAt e := by
  induction bs generalizing os i with
  | nil => simp [carriedItems, walkItems]
  | cons b bs ih =>
      cases os with
      | nil => simp [carriedItems, walkItems]
      | cons o os =>
          rw [List.zip_cons_cons, List.forall_mem_cons] at each
          rw [carriedItems, walkItems, List.forall_mem_append, Bool.and_eq_true, each.1, ih each.2]

theorem carriedMembers_iff_of_each
    (each : ∀ m ∈ members, Dict.has d m.1 = true → ∀ ptr,
      (carried m.2 (Dict.get d m.1) = true ↔
        ∀ e ∈ walk pointerSteps m.2 (Dict.get d m.1) ptr, CarriedAt e)) (ptr : PyStr) :
    carriedMembers members d = true ↔
      ∀ e ∈ walkMembers pointerSteps members d ptr, CarriedAt e := by
  induction members with
  | nil => simp [carriedMembers, walkMembers]
  | cons m members ih =>
      obtain ⟨key, v⟩ := m
      rw [List.forall_mem_cons] at each
      rw [carriedMembers, walkMembers, List.forall_mem_append, Bool.and_eq_true, Bool.and_eq_true,
        ih each.2]
      apply and_congr_left
      intro _
      cases has : Dict.has d key with
      | true =>
          rw [if_pos rfl, and_iff_right rfl]
          exact each.1 has _
      | false =>
          rw [if_neg Bool.false_ne_true, List.forall_mem_singleton]
          exact iff_of_false (fun both => Bool.false_ne_true both.1) id

theorem carried_iff (b o : Json) : ∀ ptr,
    (carried b o = true ↔ ∀ e ∈ walk pointerSteps b o ptr, CarriedAt e) := by
  induction b, o using walk_induction with
  | stop b o stops =>
      intro ptr
      rw [carried_of_stops stops, walk_of_stops stops, List.forall_mem_singleton]
      exact Iff.rfl
  | items bs os level ih =>
      intro ptr
      rw [carried, walk, if_pos level, if_pos level]
      exact carriedItems_iff ih ptr 0
  | members ms d ih =>
      intro ptr
      rw [carried, walk]
      exact carriedMembers_iff_of_each ih ptr

theorem carriedMembers_iff (members d : Dict) (ptr : PyStr) :
    carriedMembers members d = true ↔
      ∀ e ∈ walkMembers pointerSteps members d ptr, CarriedAt e :=
  carriedMembers_iff_of_each (fun _ _ _ => carried_iff _ _) ptr

/-! ### What is claimed, and when it holds -/

/-- The values of the bundle that the overlay lacks, with their keys. -/
def missing (bundle overlay : Dict) : List (PyStr × Json) :=
  (walkMembers pointerSteps bundle overlay []).filterMap fun
    | .lacks key v _ => some (key, v)
    | .stops _ _ _ => none

/-- The pairs of values at which the walk of the two stops. -/
def compared (bundle overlay : Dict) : List (Json × Json) :=
  (walkMembers pointerSteps bundle overlay []).filterMap fun
    | .lacks _ _ _ => none
    | .stops b o _ => some (b, o)

/-- The version before hydration: the overlay's, else the bundle's that is added, else 0. -/
def versionBefore (bundle overlay : Dict) : Json :=
  if Dict.has overlay versionKey then Dict.get overlay versionKey
  else if Dict.has bundle versionKey then Dict.get bundle versionKey
  else .int 0

section
variable [PyRuntime] (truncate : PyStr → Option Int)

/-- An overlay that hydration has left. -/
structure Covered (bundle overlay overlay' : Dict) (added : List PyStr) : Prop where
  /-- Every value it had is there, the version apart. -/
  kept : ∀ k ≠ versionKey, Dict.has overlay k = true →
    Dict.has overlay' k = true ∧ Extends (Dict.get overlay k) (Dict.get overlay' k)
  /-- A second run adds nothing. -/
  again : hydrateOverlay truncate bundle overlay' = some (overlay', [])
  /-- The version is bumped when something is added, and nothing is done when nothing is. -/
  bumped : if added = [] then overlay' = overlay
    else ∃ n, intOf truncate (versionBefore bundle overlay) = some n ∧
      Dict.get overlay' versionKey = .int (n + 1)
  /-- The drift report is the one from before. -/
  report : overlayDrift bundle overlay' = overlayDrift bundle overlay
  /-- It is empty exactly when the overlay carries the bundle. -/
  complete : overlayDrift bundle overlay' = [] ↔ carriedMembers (withoutVersion bundle) overlay' = true

/-- The condition on the bundle and the overlay. -/
structure Coverable (bundle overlay : Dict) : Prop where
  /-- Where something is added, the version reads as a number and the texts can be written. -/
  writable : missing bundle overlay ≠ [] →
    (intOf truncate (versionBefore bundle overlay)).isSome = true ∧
      encodableMembers (withoutVersion overlay) = true ∧
      ∀ m ∈ missing (withoutVersion bundle) overlay,
        encodableText m.1 = true ∧ encodable m.2 = true
  /-- No NaN is added where the drift report will look. -/
  numbers : ∀ m ∈ missing (withoutVersion bundle) overlay, exposesNaN m.2 = false
  /-- Different JSON that is equal in Python stands beside something that is reported. -/
  shown : (∃ pair ∈ compared (withoutVersion bundle) overlay,
      pyEqual pair.1 pair.2 = true ∧ sameJson pair.1 pair.2 = false) →
    ∃ pair ∈ compared (withoutVersion bundle) overlay, pyEqual pair.1 pair.2 = false
  /-- The same JSON that is reported stands beside something that differs. -/
  real : (∃ pair ∈ compared (withoutVersion bundle) overlay,
      pyEqual pair.1 pair.2 = false ∧ sameJson pair.1 pair.2 = true) →
    ∃ pair ∈ compared (withoutVersion bundle) overlay, sameJson pair.1 pair.2 = false

end

/-! ### Without the version -/

theorem mem_withoutVersion {m : PyStr × Json} :
    m ∈ withoutVersion d ↔ m ∈ d ∧ m.1 ≠ versionKey := by
  unfold withoutVersion
  rw [List.mem_filter, decide_eq_true_iff]

theorem nodup_withoutVersion (distinct : (d.map Prod.fst).Nodup) :
    ((withoutVersion d).map Prod.fst).Nodup :=
  distinct.sublist (List.filter_sublist.map Prod.fst)

theorem has_withoutVersion (other : k ≠ versionKey) :
    Dict.has (withoutVersion d) k = Dict.has d k := by
  rw [Bool.eq_iff_iff]
  exact (Dict.has_del d versionKey k).trans (and_iff_right other.symm)

theorem get_withoutVersion (other : k ≠ versionKey) :
    Dict.get (withoutVersion d) k = Dict.get d k :=
  (Dict.get_del d versionKey k).trans (if_neg other.symm)

theorem walk_withoutVersion (bundle : Dict) :
    walkMembers pointerSteps (withoutVersion bundle) (withoutVersion d) ptr =
      walkMembers pointerSteps (withoutVersion bundle) d ptr := by
  apply Json.walkMembers_congr
  intro m member
  have other := (mem_withoutVersion.mp member).2
  exact ⟨has_withoutVersion other, get_withoutVersion other⟩

theorem mem_walk_of_withoutVersion {bundle : Dict} {e : Meeting PyStr}
    (member : e ∈ walkMembers pointerSteps (withoutVersion bundle) d ptr) :
    e ∈ walkMembers pointerSteps bundle d ptr := by
  rw [walkMembers_eq] at member ⊢
  obtain ⟨m, part, found⟩ := List.mem_flatMap.mp member
  exact List.mem_flatMap.mpr ⟨m, (mem_withoutVersion.mp part).1, found⟩

/-! ### What is lacking, and what is compared -/

theorem mem_missing {bundle : Dict} {m : PyStr × Json} :
    m ∈ missing bundle d ↔ ∃ here, .lacks m.1 m.2 here ∈ walkMembers pointerSteps bundle d [] := by
  unfold missing
  rw [List.mem_filterMap]
  constructor
  · rintro ⟨e, met, is⟩
    cases e with
    | lacks key v here =>
        cases is
        exact ⟨here, met⟩
    | stops b o here => cases is
  · rintro ⟨here, met⟩
    exact ⟨_, met, rfl⟩

theorem mem_compared {bundle : Dict} {pair : Json × Json} :
    pair ∈ compared bundle d ↔
      ∃ here, .stops pair.1 pair.2 here ∈ walkMembers pointerSteps bundle d [] := by
  unfold compared
  rw [List.mem_filterMap]
  constructor
  · rintro ⟨e, met, is⟩
    cases e with
    | lacks key v here => cases is
    | stops b o here =>
        cases is
        exact ⟨here, met⟩
  · rintro ⟨here, met⟩
    exact ⟨_, met, rfl⟩

/-- What holds of all that is met holds of what is missing and of what is compared. -/
theorem forall_met {bundle : Dict} {p : PyStr × Json → Prop} {q : Json × Json → Prop}
    {P : Meeting PyStr → Prop} (lacks : ∀ key v here, P (.lacks key v here) ↔ p (key, v))
    (stops : ∀ b o here, P (.stops b o here) ↔ q (b, o)) :
    (∀ e ∈ walkMembers pointerSteps bundle d [], P e) ↔
      (∀ m ∈ missing bundle d, p m) ∧ ∀ pair ∈ compared bundle d, q pair := by
  constructor
  · intro each
    constructor
    · intro m member
      obtain ⟨here, met⟩ := mem_missing.mp member
      exact (lacks _ _ here).mp (each _ met)
    · intro pair member
      obtain ⟨here, met⟩ := mem_compared.mp member
      exact (stops _ _ here).mp (each _ met)
  · rintro ⟨absent, beside⟩ e met
    cases e with
    | lacks key v here => exact (lacks key v here).mpr (absent (key, v) (mem_missing.mpr ⟨here, met⟩))
    | stops b o here => exact (stops b o here).mpr (beside (b, o) (mem_compared.mpr ⟨here, met⟩))

/-- Two properties of pairs hold of all of them together exactly when a pair that has one of them alone
never decides. -/
theorem forall_iff_forall {α : Type} {l : List α} {p q : α → Bool} :
    ((∀ x ∈ l, p x = true) ↔ ∀ x ∈ l, q x = true) ↔
      ((∃ x ∈ l, p x = true ∧ q x = false) → ∃ x ∈ l, p x = false) ∧
        ((∃ x ∈ l, p x = false ∧ q x = true) → ∃ x ∈ l, q x = false) := by
  have some_false (r : α → Bool) : (∃ x ∈ l, r x = false) ↔ ¬ ∀ x ∈ l, r x = true := by
    simp
  rw [some_false, some_false]
  constructor
  · intro both
    constructor
    · rintro ⟨x, member, -, differs⟩ all
      rw [both.mp all x member] at differs
      cases differs
    · rintro ⟨x, member, differs, -⟩ all
      rw [both.mpr all x member] at differs
      cases differs
  · rintro ⟨shown, real⟩
    constructor
    · intro all x member
      by_contra differs
      exact shown ⟨x, member, all x member, Bool.eq_false_iff.mpr differs⟩ all
    · intro all x member
      by_contra differs
      exact real ⟨x, member, Bool.eq_false_iff.mpr differs, all x member⟩ all

/-! ### What one pass leaves -/

section
variable [PyRuntime] {truncate : PyStr → Option Int} {bundle overlay overlay' : Dict} {added : List PyStr}

/-- The version hydration reads. -/
def versionRead (hydrated : Dict) : Json :=
  if Dict.has hydrated versionKey then Dict.get hydrated versionKey else .int 0

omit [PyRuntime] in
/-- A value that is hydrated is none that `int` takes, or it stays. -/
theorem hydrateWalk_scalar (b : Json) (notArr : ∀ items, o ≠ .arr items)
    (notObj : ∀ members, o ≠ .obj members) (ptr : PyStr) : (hydrateWalk b o ptr).1 = o := by
  rw [hydrateWalk_of_stops]
  exact ⟨fun _ d both => notObj d both.2, fun _ os _ same => absurd same (notArr os)⟩

theorem intOf_hydrateWalk (b o : Json) (ptr : PyStr) :
    intOf truncate (hydrateWalk b o ptr).1 = intOf truncate o := by
  cases o with
  | arr os =>
      cases b with
      | arr bs =>
          rw [hydrateWalk]
          split <;> rfl
      | null | bool _ | int _ | float _ | str _ | obj _ => rfl
  | obj d =>
      cases b with
      | obj members => rw [hydrateWalk_members]; rfl
      | null | bool _ | int _ | float _ | str _ | arr _ => rfl
  | null | bool _ | int _ | float _ | str _ => rw [hydrateWalk_scalar _ (by simp) (by simp)]

/-- The version that is read is the one from before. -/
theorem intOf_versionRead (distinct : (bundle.map Prod.fst).Nodup) (ptr : PyStr) :
    intOf truncate (versionRead (hydrateMembers bundle overlay ptr).1) =
      intOf truncate (versionBefore bundle overlay) := by
  unfold versionRead versionBefore
  cases known : Dict.has bundle versionKey with
  | true =>
      obtain ⟨has, get⟩ := hydrateMembers_get distinct overlay ptr _ (Dict.mem_of_has known)
      rw [if_pos has, get, hydratedValue]
      dsimp only
      split
      · exact intOf_hydrateWalk _ _ _
      · rfl
  | false =>
      have absent : ∀ m ∈ bundle, m.1 ≠ versionKey := by
        intro m member same
        have has := Dict.has_of_mem member
        rw [same, known] at has
        cases has
      obtain ⟨has, get⟩ := hydrateMembers_other overlay ptr absent
      rw [has, get]
      rfl

/-- The pass adds nothing and leaves the file, or it bumps the version and writes what it has. -/
theorem hydrateOverlay_eq_some :
    hydrateOverlay truncate bundle overlay = some (overlay', added) ↔
      (hydrateMembers bundle overlay []).2 = [] ∧ overlay' = overlay ∧ added = [] ∨
      (hydrateMembers bundle overlay []).2 ≠ [] ∧ added = (hydrateMembers bundle overlay []).2 ∧
        ∃ n, intOf truncate (versionRead (hydrateMembers bundle overlay []).1) = some n ∧
          overlay' = Dict.set (hydrateMembers bundle overlay []).1 versionKey (.int (n + 1)) ∧
          encodableMembers overlay' = true := by
  have opened : hydrateOverlay truncate bundle overlay =
      if (hydrateMembers bundle overlay []).2 = [] then some (overlay, [])
      else (intOf truncate (versionRead (hydrateMembers bundle overlay []).1)).bind fun n =>
        if encodableMembers (Dict.set (hydrateMembers bundle overlay []).1 versionKey (.int (n + 1)))
        then some (Dict.set (hydrateMembers bundle overlay []).1 versionKey (.int (n + 1)),
          (hydrateMembers bundle overlay []).2) else none := rfl
  rw [opened]
  split
  · next nothing =>
    rw [Option.some.injEq, Prod.mk.injEq]
    constructor
    · rintro ⟨rfl, rfl⟩
      exact .inl ⟨nothing, rfl, rfl⟩
    · rintro (⟨-, rfl, rfl⟩ | ⟨something, -⟩)
      · exact ⟨rfl, rfl⟩
      · exact absurd nothing something
  · next something =>
    rw [Option.bind_eq_some_iff]
    constructor
    · rintro ⟨n, read, written⟩
      obtain ⟨text, same⟩ := Option.ite_none_right_eq_some.mp written
      cases same
      exact .inr ⟨something, rfl, n, read, rfl, text⟩
    · rintro (⟨nothing, -⟩ | ⟨-, rfl, n, read, rfl, text⟩)
      · exact absurd nothing something
      · exact ⟨n, read, if_pos text⟩

theorem added_eq_nil_iff (canonical : (Json.obj bundle).Canonical) :
    (hydrateMembers bundle overlay []).2 = [] ↔ missing bundle overlay = [] := by
  have walked := hydrateWalk_added (.obj bundle) (.obj overlay) canonical []
  rw [hydrateWalk_members, walk] at walked
  change (hydrateMembers bundle overlay []).2 = _ at walked
  rw [walked, List.flatMap_eq_nil_iff, forall_met (p := fun _ => False) (q := fun _ => True)
    (fun _ _ _ => by simp [addedAt]) (fun _ _ _ => by simp [addedAt]), List.eq_nil_iff_forall_not_mem]
  exact and_iff_left fun _ _ => trivial

/-! ### The walk over the overlay that is left -/

omit [PyRuntime] in
/-- Below the version, the overlay with its bump has the hydrated values. -/
theorem bumped_get (distinct : (bundle.map Prod.fst).Nodup) (version : Json) :
    ∀ m ∈ withoutVersion bundle,
      Dict.has (Dict.set (hydrateMembers bundle overlay []).1 versionKey version) m.1 = true ∧
        Dict.get (Dict.set (hydrateMembers bundle overlay []).1 versionKey version) m.1 =
          hydratedValue overlay [] m := by
  intro m member
  obtain ⟨part, other⟩ := mem_withoutVersion.mp member
  rw [has_set_of_ne other.symm, Dict.get_set_of_ne _ _ other.symm]
  exact hydrateMembers_get distinct overlay [] m part

theorem walk_bumped (canonical : (Json.obj bundle).Canonical) (version : Json) :
    walkMembers pointerSteps (withoutVersion bundle)
        (Dict.set (hydrateMembers bundle overlay []).1 versionKey version) [] =
      (walkMembers pointerSteps (withoutVersion bundle) overlay []).flatMap hydratedMeeting := by
  rw [canonical_obj_iff] at canonical
  apply walkMembers_hydrated
  · intro m member _
    exact walk_hydrated _ _ (canonical.2 m (mem_withoutVersion.mp member).1) _
  · exact bumped_get canonical.1 version

omit [PyRuntime] in
/-- Where nothing is lacking, the walk meets afterwards what it met before. -/
theorem hydratedMeeting_of_nothing (nothing : missing bundle overlay = []) :
    (walkMembers pointerSteps (withoutVersion bundle) overlay []).flatMap hydratedMeeting =
      walkMembers pointerSteps (withoutVersion bundle) overlay [] := by
  refine Eq.trans ?_ (List.flatMap_singleton' _)
  apply List.flatMap_congr
  intro e met
  cases e with
  | lacks key v here =>
      have member : (key, v) ∈ missing bundle overlay :=
        mem_missing.mpr ⟨here, mem_walk_of_withoutVersion met⟩
      rw [nothing] at member
      cases member
  | stops b o here => rfl

theorem walk_after (canonical : (Json.obj bundle).Canonical)
    (ran : hydrateOverlay truncate bundle overlay = some (overlay', added)) :
    walkMembers pointerSteps (withoutVersion bundle) overlay' [] =
      (walkMembers pointerSteps (withoutVersion bundle) overlay []).flatMap hydratedMeeting := by
  rcases hydrateOverlay_eq_some.mp ran with ⟨nothing, rfl, -⟩ | ⟨-, -, n, -, rfl, -⟩
  · exact (hydratedMeeting_of_nothing ((added_eq_nil_iff canonical).mp nothing)).symm
  · exact walk_bumped canonical _

/-! ### Each part of the claim -/

theorem kept_of_ran (canonical : (Json.obj bundle).Canonical)
    (ran : hydrateOverlay truncate bundle overlay = some (overlay', added)) :
    ∀ k ≠ versionKey, Dict.has overlay k = true →
      Dict.has overlay' k = true ∧ Extends (Dict.get overlay k) (Dict.get overlay' k) := by
  intro k other has
  rcases hydrateOverlay_eq_some.mp ran with ⟨-, rfl, -⟩ | ⟨-, -, n, -, rfl, -⟩
  · exact ⟨has, .same _⟩
  · rw [canonical_obj_iff] at canonical
    rw [has_set_of_ne other.symm, Dict.get_set_of_ne _ _ other.symm]
    apply extends_member canonical.1 _ has
    intro m member _ ptr
    exact extends_hydrateWalk _ _ (canonical.2 m member) ptr

theorem bumped_of_ran (canonical : (Json.obj bundle).Canonical)
    (ran : hydrateOverlay truncate bundle overlay = some (overlay', added)) :
    if added = [] then overlay' = overlay
    else ∃ n, intOf truncate (versionBefore bundle overlay) = some n ∧
      Dict.get overlay' versionKey = .int (n + 1) := by
  rw [canonical_obj_iff] at canonical
  rcases hydrateOverlay_eq_some.mp ran with ⟨-, rfl, rfl⟩ | ⟨something, rfl, n, read, rfl, -⟩
  · exact if_pos rfl ▸ rfl
  · rw [if_neg something, ← intOf_versionRead canonical.1 []]
    exact ⟨n, read, Dict.get_set_self _ _ _⟩

/-- Nothing is lacking from an overlay that has been hydrated. -/
theorem stops_after (canonical : (Json.obj bundle).Canonical) (version : Int) {e : Meeting PyStr}
    (met : e ∈ walkMembers pointerSteps bundle
      (Dict.set (hydrateMembers bundle overlay []).1 versionKey (.int version)) []) :
    addedAt e = [] := by
  have met' := met
  rw [walkMembers_eq] at met'
  obtain ⟨m, member, found⟩ := List.mem_flatMap.mp met'
  by_cases here : m.1 = versionKey
  · -- A number takes nothing from the bundle.
    have has : Dict.has (Dict.set (hydrateMembers bundle overlay []).1 versionKey (.int version)) m.1 = true :=
      (Dict.has_set _ _ _ _).mpr (.inl here.symm)
    have stops : Stops m.2 (.int version) := by
      constructor
      · rintro _ _ ⟨-, ⟨⟩⟩
      · rintro _ _ - ⟨⟩
    rw [if_pos has, here, Dict.get_set_self, walk_of_stops stops, List.mem_singleton] at found
    rw [found]
    rfl
  · have apart : e ∈ walkMembers pointerSteps (withoutVersion bundle)
        (Dict.set (hydrateMembers bundle overlay []).1 versionKey (.int version)) [] := by
      rw [walkMembers_eq]
      exact List.mem_flatMap.mpr ⟨m, mem_withoutVersion.mpr ⟨member, here⟩, found⟩
    rw [walk_bumped canonical] at apart
    obtain ⟨before, metBefore, turned⟩ := List.mem_flatMap.mp apart
    cases before with
    | stops b o here =>
        rw [List.mem_singleton.mp turned]
        rfl
    | lacks key v here =>
        have whole := mem_walk_of_withoutVersion metBefore
        have value : v.Canonical := Json.canonical_first (.obj bundle) (.obj overlay) canonical [] _ whole
        obtain ⟨x, at_, rfl, -, -⟩ := Json.walk_self value here e turned
        rfl

theorem again_of_ran (canonical : (Json.obj bundle).Canonical)
    (ran : hydrateOverlay truncate bundle overlay = some (overlay', added)) :
    hydrateOverlay truncate bundle overlay' = some (overlay', []) := by
  rcases hydrateOverlay_eq_some.mp ran with ⟨nothing, rfl, rfl⟩ | ⟨-, -, n, -, rfl, -⟩
  · exact ran
  · apply hydrateOverlay_eq_some.mpr
    refine .inl ⟨?_, rfl, rfl⟩
    have walked := hydrateWalk_added (.obj bundle)
      (.obj (Dict.set (hydrateMembers bundle overlay []).1 versionKey (.int (n + 1)))) canonical []
    rw [hydrateWalk_members, walk] at walked
    refine Eq.trans walked (List.flatMap_eq_nil_iff.mpr ?_)
    exact fun e met => stops_after canonical _ met

/-- The report is what it was exactly when no NaN was added. -/
theorem report_iff (canonical : (Json.obj bundle).Canonical)
    (ran : hydrateOverlay truncate bundle overlay = some (overlay', added)) :
    overlayDrift bundle overlay' = overlayDrift bundle overlay ↔
      ∀ m ∈ missing (withoutVersion bundle) overlay, exposesNaN m.2 = false := by
  have beside : ∀ b o here, (hydratedMeeting (.stops b o here)).flatMap driftAt = driftAt (.stops b o here) :=
    fun _ _ _ => List.append_nil _
  have shorter : ∀ e ∈ walkMembers pointerSteps (withoutVersion bundle) overlay [],
      (driftAt e).Sublist ((hydratedMeeting e).flatMap driftAt) := by
    intro e _
    cases e with
    | lacks key v here => exact List.nil_sublist _
    | stops b o here => exact (beside b o here).symm ▸ List.Sublist.refl _
  unfold overlayDrift
  rw [driftMembers_eq, driftMembers_eq, walk_after canonical ran, List.flatMap_assoc,
    flatMap_eq_iff shorter]
  constructor
  · intro same m member
    obtain ⟨here, met⟩ := mem_missing.mp member
    have value : m.2.Canonical :=
      Json.canonical_first (.obj bundle) (.obj overlay) canonical [] _ (mem_walk_of_withoutVersion met)
    rw [← drifts_beside_itself_iff value here, driftWalk_eq]
    exact same _ met
  · intro numbers e met
    cases e with
    | stops b o here => exact beside b o here
    | lacks key v here =>
        have value : v.Canonical :=
          Json.canonical_first (.obj bundle) (.obj overlay) canonical [] _ (mem_walk_of_withoutVersion met)
        have clean := (drifts_beside_itself_iff value here).mpr
          (numbers (key, v) (mem_missing.mpr ⟨here, met⟩))
        rw [driftWalk_eq] at clean
        exact clean

theorem sameJson_self (canonical : v.Canonical) : sameJson v v = true := by
  apply Json.deepBy_refl _ canonical
  intro v _ notArr notObj
  cases v with
  | arr items => exact absurd rfl (notArr items)
  | obj members => exact absurd rfl (notObj members)
  | null => rfl
  | bool _ | int _ | float _ | str _ => exact beq_self_eq_true _

/-- The report is empty exactly when all that is compared is equal in Python. -/
theorem overlayDrift_eq_nil_iff :
    overlayDrift bundle overlay = [] ↔
      ∀ pair ∈ compared (withoutVersion bundle) overlay, pyEqual pair.1 pair.2 = true := by
  unfold overlayDrift
  rw [driftMembers_eq, List.flatMap_eq_nil_iff, forall_met (p := fun _ => True)
    (q := fun pair => pyEqual pair.1 pair.2 = true)]
  · exact and_iff_right fun _ _ => trivial
  · exact fun _ _ _ => iff_of_true rfl trivial
  · intro b o here
    rw [driftAt]
    split <;> simp [*]

/-- The overlay that is left carries the bundle exactly when all that was compared is the same JSON. -/
theorem carried_after_iff (canonical : (Json.obj bundle).Canonical)
    (ran : hydrateOverlay truncate bundle overlay = some (overlay', added)) :
    carriedMembers (withoutVersion bundle) overlay' = true ↔
      ∀ pair ∈ compared (withoutVersion bundle) overlay, sameJson pair.1 pair.2 = true := by
  rw [carriedMembers_iff _ _ [], walk_after canonical ran]
  constructor
  · intro each pair member
    obtain ⟨here, met⟩ := mem_compared.mp member
    exact each _ (List.mem_flatMap.mpr ⟨_, met, List.mem_singleton_self _⟩)
  · intro each e turned
    obtain ⟨before, met, found⟩ := List.mem_flatMap.mp turned
    cases before with
    | stops b o here =>
        rw [List.mem_singleton.mp found]
        exact each (b, o) (mem_compared.mpr ⟨here, met⟩)
    | lacks key v here =>
        have value : v.Canonical :=
          Json.canonical_first (.obj bundle) (.obj overlay) canonical [] _ (mem_walk_of_withoutVersion met)
        obtain ⟨x, at_, rfl, part, -⟩ := Json.walk_self value here e found
        exact sameJson_self part

/-- What is written is text when the overlay is, its version apart, and all that it lacked. -/
theorem encodable_bumped_iff (canonical : (Json.obj bundle).Canonical)
    (canonical' : (Json.obj overlay).Canonical) (version : Int) :
    encodableMembers (Dict.set (hydrateMembers bundle overlay []).1 versionKey (.int version)) = true ↔
      encodableMembers (withoutVersion overlay) = true ∧
        ∀ m ∈ missing (withoutVersion bundle) overlay,
          encodableText m.1 = true ∧ encodable m.2 = true := by
  have canonicalMembers := canonical
  rw [canonical_obj_iff] at canonicalMembers canonical'
  have distinct : ((Dict.set (hydrateMembers bundle overlay []).1 versionKey (.int version)).map
      Prod.fst).Nodup := nodup_set (nodup_hydrateMembers canonical'.1 bundle []) _ _
  have bumpText : encodableMembers (Dict.set (hydrateMembers bundle overlay []).1 versionKey (.int version)) =
      true ↔ encodableMembers (withoutVersion
        (Dict.set (hydrateMembers bundle overlay []).1 versionKey (.int version))) = true := by
    rw [encodableMembers_iff_get distinct, encodableMembers_iff_get (nodup_withoutVersion distinct)]
    constructor
    · intro each k has
      have other : k ≠ versionKey := ((Dict.has_del _ _ _).mp has).1.symm
      rw [get_withoutVersion other]
      exact each k ((has_withoutVersion other).symm.trans has)
    · intro each k has
      by_cases here : k = versionKey
      · rw [here, Dict.get_set_self]
        exact ⟨by decide, rfl⟩
      · have there := each k ((has_withoutVersion here).trans has)
        rwa [get_withoutVersion here] at there
  rw [bumpText, encodableMembers_hydrated (nodup_withoutVersion canonical'.1)
    (nodup_withoutVersion distinct), walk_withoutVersion,
    forall_met (p := fun m => encodableText m.1 = true ∧ encodable m.2 = true) (q := fun _ => True)
      (fun _ _ _ => Iff.rfl) (fun _ _ _ => Iff.rfl)]
  · exact and_congr_right fun _ => and_iff_left fun _ _ => trivial
  · intro m member has ptr
    obtain ⟨part, other⟩ := mem_withoutVersion.mp member
    rw [has_withoutVersion other] at has
    rw [get_withoutVersion other]
    exact encodable_hydrateWalk _ _ (canonicalMembers.2 m part)
      (canonical'.2 _ (Dict.mem_of_has has)) ptr
  · intro m member
    have other := (mem_withoutVersion.mp member).2
    have same : hydratedValue (withoutVersion overlay) [] m = hydratedValue overlay [] m := by
      unfold hydratedValue
      rw [has_withoutVersion other, get_withoutVersion other]
    rw [has_withoutVersion other, get_withoutVersion other, same]
    exact bumped_get canonicalMembers.1 _ m member
  · intro k absent
    by_cases here : k = versionKey
    · have gone (d : Dict) : Dict.has (withoutVersion d) k = false ∧ Dict.get (withoutVersion d) k = .null := by
        have lacks : Dict.has (withoutVersion d) k = false := by
          rw [Bool.eq_false_iff]
          intro has
          exact ((Dict.has_del _ _ _).mp has).1 here.symm
        exact ⟨lacks, Dict.get_of_not_has lacks⟩
      rw [(gone _).1, (gone _).2, (gone _).1, (gone _).2]
      exact ⟨rfl, rfl⟩
    · rw [has_withoutVersion here, get_withoutVersion here, has_withoutVersion here,
        get_withoutVersion here, has_set_of_ne (Ne.symm here), Dict.get_set_of_ne _ _ (Ne.symm here)]
      apply hydrateMembers_other
      intro m member same
      exact absent m (mem_withoutVersion.mpr ⟨member, same ▸ here⟩) same

/-! ### The claim -/

/-- The report is right about the overlay that is left exactly when the two equalities are of one mind
about what is compared. -/
theorem complete_iff (canonical : (Json.obj bundle).Canonical)
    (ran : hydrateOverlay truncate bundle overlay = some (overlay', added))
    (report : overlayDrift bundle overlay' = overlayDrift bundle overlay) :
    (overlayDrift bundle overlay' = [] ↔ carriedMembers (withoutVersion bundle) overlay' = true) ↔
      ((∀ pair ∈ compared (withoutVersion bundle) overlay, pyEqual pair.1 pair.2 = true) ↔
        ∀ pair ∈ compared (withoutVersion bundle) overlay, sameJson pair.1 pair.2 = true) := by
  rw [report, overlayDrift_eq_nil_iff, carried_after_iff canonical ran]

/-- The pass returns exactly when it adds nothing, or the version is a number and what it writes is
text. -/
theorem hydrateOverlay_isSome_iff (canonical : (Json.obj bundle).Canonical)
    (canonical' : (Json.obj overlay).Canonical) :
    (∃ overlay' added, hydrateOverlay truncate bundle overlay = some (overlay', added)) ↔
      (missing bundle overlay ≠ [] →
        (intOf truncate (versionBefore bundle overlay)).isSome = true ∧
          encodableMembers (withoutVersion overlay) = true ∧
          ∀ m ∈ missing (withoutVersion bundle) overlay,
            encodableText m.1 = true ∧ encodable m.2 = true) := by
  have distinct := ((canonical_obj_iff _).mp canonical).1
  have nothing : (hydrateMembers bundle overlay []).2 = [] ↔ missing bundle overlay = [] :=
    added_eq_nil_iff canonical
  constructor
  · rintro ⟨overlay', added, ran⟩ something
    rcases hydrateOverlay_eq_some.mp ran with ⟨none_, -⟩ | ⟨-, -, n, read, rfl, text⟩
    · exact absurd (nothing.mp none_) something
    · rw [intOf_versionRead distinct] at read
      rw [encodable_bumped_iff canonical canonical'] at text
      rw [read]
      exact ⟨rfl, text⟩
  · intro writable
    by_cases lacks : missing bundle overlay = []
    · exact ⟨overlay, [], hydrateOverlay_eq_some.mpr (.inl ⟨nothing.mpr lacks, rfl, rfl⟩)⟩
    · obtain ⟨number, text⟩ := writable lacks
      obtain ⟨n, read⟩ := Option.isSome_iff_exists.mp number
      rw [← intOf_versionRead distinct []] at read
      rw [← encodable_bumped_iff canonical canonical' (n + 1)] at text
      exact ⟨_, _, hydrateOverlay_eq_some.mpr
        (.inr ⟨fun none_ => lacks (nothing.mp none_), rfl, n, read, rfl, text⟩)⟩

/-- The startup pass goes through all files exactly when it goes through each: one that raises leaves
those after it as they were. -/
theorem hydrateOverlayAdditions_isSome_iff (files : List ConfigFile) :
    (hydrateOverlayAdditions truncate files).isSome = true ↔
      ∀ file ∈ files, (hydrateFile truncate file).isSome = true := by
  unfold hydrateOverlayAdditions
  rw [Option.isSome_map, mapM_isSome_iff]

end

end GhostPour.Configs
