/-
Module: GhostPour.Configs.Proofs.HydrationWalk
Layer: Proofs
Purpose: The walks of hydration and of the drift report read off one walk of the bundle and the overlay:
  hydration adds what the overlay lacks and leaves everything else, and after it the walk meets what it
  met before, with each value that was lacking beside itself.
Trusted boundary: none
Main exports: pointerSteps, Extends, hydrateMembers_get, hydrateMembers_added, driftMembers_eq,
  walkMembers_hydrated, extends_hydrateWalk, encodable_hydrated, exposesNaN, drifts_beside_itself_iff
-/
import GhostPour.Configs.OverlayHydration
import GhostPour.Library.PyEquality

namespace GhostPour.Configs

open Json (Meeting walk walkMembers walkItems lockstep Stops walk_induction walk_of_stops
  walkMembers_eq)

variable {members d d' : Dict} {b o v : Json} {key k : PyStr} {ptr : PyStr}

/-- The pointers both walks hand down. -/
def pointerSteps : Json.Steps PyStr := ⟨keyPointer, itemPointer⟩

/-- The pointer that is added for a key the overlay lacks. -/
def addedAt : Meeting PyStr → List PyStr
  | .lacks _ _ here => [here]
  | .stops _ _ _ => []

/-- What a meeting turns into once the overlay is hydrated. -/
def hydratedMeeting : Meeting PyStr → List (Meeting PyStr)
  | .lacks _ v here => walk pointerSteps v v here
  | .stops b o here => [.stops b o here]

/-! ### Hydration, key by key -/

/-- The value a key of the bundle has in the hydrated overlay. -/
def hydratedValue (overlay : Dict) (ptr : PyStr) (m : PyStr × Json) : Json :=
  if Dict.has overlay m.1 then (hydrateWalk m.2 (Dict.get overlay m.1) (keyPointer ptr m.1)).1 else m.2

/-- The pointers that are added at a key of the bundle. -/
def hydratedPointers (overlay : Dict) (ptr : PyStr) (m : PyStr × Json) : List PyStr :=
  if Dict.has overlay m.1 then (hydrateWalk m.2 (Dict.get overlay m.1) (keyPointer ptr m.1)).2
  else [keyPointer ptr m.1]

theorem hydrateMembers_cons (m : PyStr × Json) (overlay : Dict) (ptr : PyStr) :
    hydrateMembers (m :: members) overlay ptr =
      ((hydrateMembers members (Dict.set overlay m.1 (hydratedValue overlay ptr m)) ptr).1,
        hydratedPointers overlay ptr m ++
          (hydrateMembers members (Dict.set overlay m.1 (hydratedValue overlay ptr m)) ptr).2) := by
  obtain ⟨key, v⟩ := m
  rw [hydrateMembers]
  unfold hydratedValue hydratedPointers
  cases here : Dict.has overlay key with
  | true => simp only [if_true]
  | false => simp only [Bool.false_eq_true, if_false]

theorem has_set_of_ne (other : key ≠ k) (overlay : Dict) (w : Json) :
    Dict.has (Dict.set overlay key w) k = Dict.has overlay k := by
  rw [Bool.eq_iff_iff, Dict.has_set]
  exact or_iff_right other

theorem hydratedValue_set {m : PyStr × Json} (other : key ≠ m.1) (overlay : Dict) (w : Json)
    (ptr : PyStr) : hydratedValue (Dict.set overlay key w) ptr m = hydratedValue overlay ptr m := by
  unfold hydratedValue
  rw [has_set_of_ne other, Dict.get_set_of_ne _ _ other]

theorem hydratedPointers_set {m : PyStr × Json} (other : key ≠ m.1) (overlay : Dict) (w : Json)
    (ptr : PyStr) :
    hydratedPointers (Dict.set overlay key w) ptr m = hydratedPointers overlay ptr m := by
  unfold hydratedPointers
  rw [has_set_of_ne other, Dict.get_set_of_ne _ _ other]

/-- A key the bundle does not have stays as it is. -/
theorem hydrateMembers_other (overlay : Dict) (ptr : PyStr) (absent : ∀ m ∈ members, m.1 ≠ k) :
    Dict.has (hydrateMembers members overlay ptr).1 k = Dict.has overlay k ∧
      Dict.get (hydrateMembers members overlay ptr).1 k = Dict.get overlay k := by
  induction members generalizing overlay with
  | nil => exact ⟨rfl, rfl⟩
  | cons m members ih =>
      rw [List.forall_mem_cons] at absent
      rw [hydrateMembers_cons]
      obtain ⟨has, get⟩ := ih (Dict.set overlay m.1 (hydratedValue overlay ptr m)) absent.2
      exact ⟨has.trans (has_set_of_ne absent.1 _ _), get.trans (Dict.get_set_of_ne _ _ absent.1)⟩

/-- A key of the bundle is in the hydrated overlay, with its hydrated value. -/
theorem hydrateMembers_get (distinct : (members.map Prod.fst).Nodup) (overlay : Dict) (ptr : PyStr) :
    ∀ m ∈ members, Dict.has (hydrateMembers members overlay ptr).1 m.1 = true ∧
      Dict.get (hydrateMembers members overlay ptr).1 m.1 = hydratedValue overlay ptr m := by
  induction members generalizing overlay with
  | nil =>
      intro m member
      cases member
  | cons m members ih =>
      rw [List.map_cons, List.nodup_cons] at distinct
      have apart : ∀ m' ∈ members, m'.1 ≠ m.1 := by
        intro m' later same
        exact distinct.1 (List.mem_map.mpr ⟨m', later, same⟩)
      rw [hydrateMembers_cons]
      intro m' member
      rcases List.mem_cons.mp member with here | later
      · rw [here]
        obtain ⟨has, get⟩ :=
          hydrateMembers_other (Dict.set overlay m.1 (hydratedValue overlay ptr m)) ptr apart
        rw [has, get, Dict.get_set_self]
        exact ⟨(Dict.has_set _ _ _ _).mpr (.inl rfl), rfl⟩
      · obtain ⟨has, get⟩ := ih distinct.2 (Dict.set overlay m.1 (hydratedValue overlay ptr m)) m' later
        exact ⟨has, get.trans (hydratedValue_set (apart m' later).symm _ _ _)⟩

/-- What is added is added at one key or another. -/
theorem hydrateMembers_added (distinct : (members.map Prod.fst).Nodup) (overlay : Dict) (ptr : PyStr) :
    (hydrateMembers members overlay ptr).2 = members.flatMap (hydratedPointers overlay ptr) := by
  induction members generalizing overlay with
  | nil => rfl
  | cons m members ih =>
      rw [List.map_cons, List.nodup_cons] at distinct
      rw [hydrateMembers_cons, List.flatMap_cons, ih distinct.2]
      dsimp only
      congr 1
      apply List.flatMap_congr
      intro m' later
      apply hydratedPointers_set
      intro same
      exact distinct.1 (List.mem_map.mpr ⟨m', later, same.symm⟩)

theorem hydrateWalk_of_stops (stops : Stops b o) (ptr : PyStr) : hydrateWalk b o ptr = (o, []) := by
  cases b with
  | obj members =>
      cases o with
      | obj d => exact absurd ⟨rfl, rfl⟩ (stops.1 members d)
      | null | bool _ | int _ | float _ | str _ | arr _ => rfl
  | arr bs =>
      cases o with
      | arr os =>
          rw [hydrateWalk, stops.2 bs os rfl rfl]
          rfl
      | null | bool _ | int _ | float _ | str _ | obj _ => rfl
  | null | bool _ | int _ | float _ | str _ => rfl

theorem hydrateWalk_items {bs os : List Json} (level : lockstep bs os = true) (ptr : PyStr) :
    hydrateWalk (.arr bs) (.arr os) ptr =
      (.arr (hydrateItems bs os ptr 0).1, (hydrateItems bs os ptr 0).2) := by
  rw [hydrateWalk, if_pos level]

theorem hydrateWalk_members (members d : Dict) (ptr : PyStr) :
    hydrateWalk (.obj members) (.obj d) ptr =
      (.obj (hydrateMembers members d ptr).1, (hydrateMembers members d ptr).2) := by
  rw [hydrateWalk]

/-! ### What is added -/

theorem hydrateItems_added {bs os : List Json}
    (each : ∀ pair ∈ bs.zip os, ∀ ptr,
      (hydrateWalk pair.1 pair.2 ptr).2 = (walk pointerSteps pair.1 pair.2 ptr).flatMap addedAt)
    (ptr : PyStr) (i : Nat) :
    (hydrateItems bs os ptr i).2 = (walkItems pointerSteps bs os ptr i).flatMap addedAt := by
  induction bs generalizing os i with
  | nil => rfl
  | cons b bs ih =>
      cases os with
      | nil => rfl
      | cons o os =>
          rw [List.zip_cons_cons, List.forall_mem_cons] at each
          rw [hydrateItems, walkItems, List.flatMap_append, ← ih each.2]
          dsimp only
          rw [each.1]
          rfl

/-! ### What the walk meets afterwards -/

/-- Hydration leaves a value of the kind it was. -/
theorem isObj_hydrateWalk (b o : Json) (ptr : PyStr) :
    (hydrateWalk b o ptr).1.isObj = o.isObj := by
  cases b with
  | obj members =>
      cases o with
      | obj d => rw [hydrateWalk_members]; rfl
      | null | bool _ | int _ | float _ | str _ | arr _ => rfl
  | arr bs =>
      cases o with
      | arr os =>
          rw [hydrateWalk]
          split <;> rfl
      | null | bool _ | int _ | float _ | str _ | obj _ => rfl
  | null | bool _ | int _ | float _ | str _ => rfl

theorem lockstep_cons (b o : Json) (bs os : List Json) :
    lockstep (b :: bs) (o :: os) = (b.isObj && o.isObj && lockstep bs os) := by
  have lengths : (bs.length + 1 == os.length + 1) = (bs.length == os.length) := by
    rw [Bool.eq_iff_iff, beq_iff_eq, beq_iff_eq, Nat.add_right_cancel_iff]
  unfold lockstep
  rw [List.zip_cons_cons, List.all_cons, List.length_cons, List.length_cons, lengths]
  ac_rfl

theorem lockstep_self (items : List Json) : lockstep items items = items.all Json.isObj := by
  induction items with
  | nil => rfl
  | cons v items ih => rw [lockstep_cons, ih, Bool.and_self, List.all_cons]

theorem lockstep_hydrateItems (bs os : List Json) (ptr : PyStr) (i : Nat) :
    lockstep bs (hydrateItems bs os ptr i).1 = lockstep bs os := by
  induction bs generalizing os i with
  | nil => rfl
  | cons b bs ih =>
      cases os with
      | nil => rfl
      | cons o os => rw [hydrateItems, lockstep_cons, lockstep_cons, isObj_hydrateWalk, ih]

theorem walkItems_hydrated {bs os : List Json}
    (each : ∀ pair ∈ bs.zip os, ∀ ptr, walk pointerSteps pair.1 (hydrateWalk pair.1 pair.2 ptr).1 ptr =
      (walk pointerSteps pair.1 pair.2 ptr).flatMap hydratedMeeting) (ptr : PyStr) (i : Nat) :
    walkItems pointerSteps bs (hydrateItems bs os ptr i).1 ptr i =
      (walkItems pointerSteps bs os ptr i).flatMap hydratedMeeting := by
  induction bs generalizing os i with
  | nil => rfl
  | cons b bs ih =>
      cases os with
      | nil => rfl
      | cons o os =>
          rw [List.zip_cons_cons, List.forall_mem_cons] at each
          rw [hydrateItems, walkItems, walkItems, List.flatMap_append, ih each.2]
          congr 1
          exact each.1 (itemPointer ptr i)

/-- A dict with the hydrated values of the members is met as the dict before, with each value that was
lacking beside itself. -/
theorem walkMembers_hydrated {ptr : PyStr}
    (each : ∀ m ∈ members, Dict.has d m.1 = true →
      walk pointerSteps m.2 (hydrateWalk m.2 (Dict.get d m.1) (keyPointer ptr m.1)).1 (keyPointer ptr m.1) =
        (walk pointerSteps m.2 (Dict.get d m.1) (keyPointer ptr m.1)).flatMap hydratedMeeting)
    (hydrated : ∀ m ∈ members, Dict.has d' m.1 = true ∧ Dict.get d' m.1 = hydratedValue d ptr m) :
    walkMembers pointerSteps members d' ptr =
      (walkMembers pointerSteps members d ptr).flatMap hydratedMeeting := by
  rw [walkMembers_eq, walkMembers_eq, List.flatMap_assoc]
  apply List.flatMap_congr
  intro m member
  obtain ⟨has, get⟩ := hydrated m member
  rw [if_pos has, get]
  unfold hydratedValue
  split
  · next here => exact each m member here
  · exact (List.append_nil _).symm

/-! ### What can be written -/

/-- The strings that a meeting adds can be written. -/
def EncodableAt : Meeting PyStr → Prop
  | .lacks key v _ => encodableText key = true ∧ encodable v = true
  | .stops _ _ _ => True

theorem encodableMembers_iff :
    encodableMembers members = true ↔
      ∀ m ∈ members, encodableText m.1 = true ∧ encodable m.2 = true := by
  induction members with
  | nil => simp [encodableMembers]
  | cons m members ih =>
      obtain ⟨key, v⟩ := m
      rw [encodableMembers, Bool.and_eq_true, Bool.and_eq_true, ih, List.forall_mem_cons]

theorem encodableMembers_iff_get (distinct : (d.map Prod.fst).Nodup) :
    encodableMembers d = true ↔
      ∀ k, Dict.has d k = true → encodableText k = true ∧ encodable (Dict.get d k) = true := by
  rw [encodableMembers_iff]
  constructor
  · intro each k has
    exact each _ (Dict.mem_of_has has)
  · intro each m member
    have here := each m.1 (Dict.has_of_mem member)
    rwa [Dict.get_of_mem distinct member] at here

theorem nodup_hydrateMembers (distinct : (d.map Prod.fst).Nodup) (members : List (PyStr × Json))
    (ptr : PyStr) : ((hydrateMembers members d ptr).1.map Prod.fst).Nodup := by
  induction members generalizing d with
  | nil => exact distinct
  | cons m members ih =>
      rw [hydrateMembers_cons]
      exact ih (nodup_set distinct _ _)

/-- The hydrated overlay can be written when the overlay can, and all it lacked. -/
theorem encodableMembers_hydrated {ptr : PyStr} (distinct : (d.map Prod.fst).Nodup)
    (distinct' : (d'.map Prod.fst).Nodup)
    (each : ∀ m ∈ members, Dict.has d m.1 = true → ∀ ptr,
      (encodable (hydrateWalk m.2 (Dict.get d m.1) ptr).1 = true ↔
        encodable (Dict.get d m.1) = true ∧
          ∀ e ∈ walk pointerSteps m.2 (Dict.get d m.1) ptr, EncodableAt e))
    (hydrated : ∀ m ∈ members, Dict.has d' m.1 = true ∧ Dict.get d' m.1 = hydratedValue d ptr m)
    (others : ∀ k, (∀ m ∈ members, m.1 ≠ k) →
      Dict.has d' k = Dict.has d k ∧ Dict.get d' k = Dict.get d k) :
    encodableMembers d' = true ↔
      encodableMembers d = true ∧ ∀ e ∈ walkMembers pointerSteps members d ptr, EncodableAt e := by
  rw [encodableMembers_iff_get distinct, encodableMembers_iff_get distinct', walkMembers_eq]
  constructor
  · intro written
    constructor
    · intro k has
      by_cases known : ∃ m ∈ members, m.1 = k
      · obtain ⟨m, member, rfl⟩ := known
        obtain ⟨has', get'⟩ := hydrated m member
        have here := written m.1 has'
        rw [get', hydratedValue, if_pos has, each m member has] at here
        exact ⟨here.1, here.2.1⟩
      · have absent : ∀ m ∈ members, m.1 ≠ k := fun m member same => known ⟨m, member, same⟩
        obtain ⟨has', get'⟩ := others k absent
        rw [← get']
        exact written k (has'.trans has)
    · intro e member
      obtain ⟨m, part, found⟩ := List.mem_flatMap.mp member
      obtain ⟨has', get'⟩ := hydrated m part
      have here := written m.1 has'
      rw [get', hydratedValue] at here
      split at found
      · next has =>
        rw [if_pos has, each m part has] at here
        exact here.2.2 e found
      · next lacks =>
        rw [if_neg lacks] at here
        rw [List.mem_singleton.mp found]
        exact here
  · rintro ⟨written, added⟩ k has'
    by_cases known : ∃ m ∈ members, m.1 = k
    · obtain ⟨m, member, rfl⟩ := known
      have here : ∀ e ∈ (if Dict.has d m.1 then
          walk pointerSteps m.2 (Dict.get d m.1) (pointerSteps.key ptr m.1)
          else [.lacks m.1 m.2 (pointerSteps.key ptr m.1)]), EncodableAt e :=
        fun e found => added e (List.mem_flatMap.mpr ⟨m, member, found⟩)
      rw [(hydrated m member).2, hydratedValue]
      cases has : Dict.has d m.1 with
      | true =>
          rw [if_pos has] at here
          rw [if_pos rfl, each m member has]
          exact ⟨(written m.1 has).1, (written m.1 has).2, here⟩
      | false =>
          rw [has, if_neg Bool.false_ne_true, List.forall_mem_singleton] at here
          rw [if_neg Bool.false_ne_true]
          exact here
    · have absent : ∀ m ∈ members, m.1 ≠ k := fun m member same => known ⟨m, member, same⟩
      obtain ⟨has, get⟩ := others k absent
      rw [get]
      exact written k (has.symm.trans has')

theorem encodableItems_hydrated {bs os : List Json}
    (each : ∀ pair ∈ bs.zip os, ∀ ptr,
      (encodable (hydrateWalk pair.1 pair.2 ptr).1 = true ↔
        encodable pair.2 = true ∧ ∀ e ∈ walk pointerSteps pair.1 pair.2 ptr, EncodableAt e))
    (ptr : PyStr) (i : Nat) :
    encodableItems (hydrateItems bs os ptr i).1 = true ↔
      encodableItems os = true ∧ ∀ e ∈ walkItems pointerSteps bs os ptr i, EncodableAt e := by
  induction bs generalizing os i with
  | nil => simp [hydrateItems, walkItems]
  | cons b bs ih =>
      cases os with
      | nil => simp [hydrateItems, walkItems]
      | cons o os =>
          rw [List.zip_cons_cons, List.forall_mem_cons] at each
          rw [hydrateItems, walkItems, List.forall_mem_append, encodableItems, encodableItems,
            Bool.and_eq_true, Bool.and_eq_true, each.1, ih each.2]
          exact and_and_and_comm

/-! ### What is left alone -/

/-- Every value is where it was, and objects may have gained keys. -/
inductive Extends : Json → Json → Prop
  | same (v : Json) : Extends v v
  | items {xs ys : List Json} (each : List.Forall₂ Extends xs ys) : Extends (.arr xs) (.arr ys)
  | members {d d' : Dict} (has : ∀ k, Dict.has d k = true → Dict.has d' k = true)
      (get : ∀ k, Dict.has d k = true → Extends (Dict.get d k) (Dict.get d' k)) :
      Extends (.obj d) (.obj d')

theorem extends_hydrateItems {bs os : List Json}
    (each : ∀ pair ∈ bs.zip os, ∀ ptr, Extends pair.2 (hydrateWalk pair.1 pair.2 ptr).1)
    (ptr : PyStr) (i : Nat) : List.Forall₂ Extends os (hydrateItems bs os ptr i).1 := by
  induction bs generalizing os i with
  | nil =>
      rw [hydrateItems]
      · exact List.forall₂_same.mpr fun v _ => .same v
      · simp
  | cons b bs ih =>
      cases os with
      | nil => exact .nil
      | cons o os =>
          rw [List.zip_cons_cons, List.forall_mem_cons] at each
          exact .cons (each.1 _) (ih each.2 _)

/-- A key of the overlay is kept, and its value is extended. -/
theorem extends_member (distinct : (members.map Prod.fst).Nodup)
    (each : ∀ m ∈ members, Dict.has d m.1 = true → ∀ ptr,
      Extends (Dict.get d m.1) (hydrateWalk m.2 (Dict.get d m.1) ptr).1)
    (has : Dict.has d k = true) (ptr : PyStr) :
    Dict.has (hydrateMembers members d ptr).1 k = true ∧
      Extends (Dict.get d k) (Dict.get (hydrateMembers members d ptr).1 k) := by
  by_cases known : ∃ m ∈ members, m.1 = k
  · obtain ⟨m, member, rfl⟩ := known
    obtain ⟨has', get'⟩ := hydrateMembers_get distinct d ptr m member
    rw [get', hydratedValue, if_pos has]
    exact ⟨has', each m member has _⟩
  · have absent : ∀ m ∈ members, m.1 ≠ k := fun m member same => known ⟨m, member, same⟩
    obtain ⟨has', get'⟩ := hydrateMembers_other d ptr absent
    rw [has', get']
    exact ⟨has, .same _⟩

/-! ### The whole walk -/

section
variable [PyRuntime]

/-- Hydration adds the keys that the walk finds lacking. -/
theorem hydrateWalk_added (b o : Json) : b.Canonical → ∀ ptr,
    (hydrateWalk b o ptr).2 = (walk pointerSteps b o ptr).flatMap addedAt := by
  induction b, o using walk_induction with
  | stop b o stops =>
      intro _ ptr
      rw [hydrateWalk_of_stops stops, walk_of_stops stops]
      rfl
  | items bs os level ih =>
      intro canonical ptr
      rw [canonical_arr_iff] at canonical
      rw [hydrateWalk_items level, walk, if_pos level]
      apply hydrateItems_added
      intro pair member
      exact ih pair member (canonical _ (List.of_mem_zip member).1)
  | members ms d ih =>
      intro canonical ptr
      rw [canonical_obj_iff] at canonical
      rw [hydrateWalk_members, hydrateMembers_added canonical.1, walk, walkMembers_eq,
        List.flatMap_assoc]
      apply List.flatMap_congr
      intro m member
      unfold hydratedPointers
      split
      · next here => exact ih m member here (canonical.2 m member) _
      · rfl

theorem walk_hydrated (b o : Json) : b.Canonical → ∀ ptr,
    walk pointerSteps b (hydrateWalk b o ptr).1 ptr =
      (walk pointerSteps b o ptr).flatMap hydratedMeeting := by
  induction b, o using walk_induction with
  | stop b o stops =>
      intro _ ptr
      rw [hydrateWalk_of_stops stops, walk_of_stops stops]
      rfl
  | items bs os level ih =>
      intro canonical ptr
      rw [canonical_arr_iff] at canonical
      rw [hydrateWalk_items level, walk, walk, if_pos level, lockstep_hydrateItems, if_pos level]
      apply walkItems_hydrated
      intro pair member
      exact ih pair member (canonical _ (List.of_mem_zip member).1)
  | members ms d ih =>
      intro canonical ptr
      rw [canonical_obj_iff] at canonical
      rw [hydrateWalk_members, walk, walk]
      apply walkMembers_hydrated
      · intro m member here
        exact ih m member here (canonical.2 m member) _
      · exact hydrateMembers_get canonical.1 d ptr

/-! ### The drift report -/

/-- What is reported where the walk stops. -/
def driftAt : Meeting PyStr → List PyStr
  | .lacks _ _ _ => []
  | .stops b o here => if pyEqual b o then [] else [if here = [] then py "/" else here]

theorem driftWalk_of_stops (stops : Stops b o) (ptr : PyStr) :
    driftWalk b o ptr = driftAt (.stops b o ptr) := by
  cases b with
  | obj members =>
      cases o with
      | obj d => exact absurd ⟨rfl, rfl⟩ (stops.1 members d)
      | null | bool _ | int _ | float _ | str _ | arr _ => rfl
  | arr bs =>
      cases o with
      | arr os =>
          rw [driftWalk, stops.2 bs os rfl rfl]
          rfl
      | null | bool _ | int _ | float _ | str _ | obj _ => rfl
  | null | bool _ | int _ | float _ | str _ => rfl

theorem driftMembers_cons (m : PyStr × Json) (members d : Dict) (ptr : PyStr) :
    driftMembers (m :: members) d ptr =
      (if Dict.has d m.1 then driftWalk m.2 (Dict.get d m.1) (keyPointer ptr m.1) else []) ++
        driftMembers members d ptr := by
  obtain ⟨key, v⟩ := m
  rw [driftMembers]

theorem driftMembers_of_each {ptr : PyStr}
    (each : ∀ m ∈ members, Dict.has d m.1 = true →
      driftWalk m.2 (Dict.get d m.1) (keyPointer ptr m.1) =
        (walk pointerSteps m.2 (Dict.get d m.1) (keyPointer ptr m.1)).flatMap driftAt) :
    driftMembers members d ptr = (walkMembers pointerSteps members d ptr).flatMap driftAt := by
  rw [walkMembers_eq, List.flatMap_assoc]
  induction members with
  | nil => rfl
  | cons m members ih =>
      rw [List.forall_mem_cons] at each
      rw [driftMembers_cons, List.flatMap_cons, ih each.2]
      congr 1
      split
      · next here => exact each.1 here
      · rfl

theorem driftItems_of_each {bs os : List Json}
    (each : ∀ pair ∈ bs.zip os, ∀ ptr,
      driftWalk pair.1 pair.2 ptr = (walk pointerSteps pair.1 pair.2 ptr).flatMap driftAt)
    (ptr : PyStr) (i : Nat) :
    driftItems bs os ptr i = (walkItems pointerSteps bs os ptr i).flatMap driftAt := by
  induction bs generalizing os i with
  | nil => rfl
  | cons b bs ih =>
      cases os with
      | nil => rfl
      | cons o os =>
          rw [List.zip_cons_cons, List.forall_mem_cons] at each
          rw [driftItems, walkItems, List.flatMap_append, ih each.2]
          congr 1
          exact each.1 (itemPointer ptr i)

theorem driftWalk_eq (b o : Json) : ∀ ptr,
    driftWalk b o ptr = (walk pointerSteps b o ptr).flatMap driftAt := by
  induction b, o using walk_induction with
  | stop b o stops =>
      intro ptr
      rw [driftWalk_of_stops stops, walk_of_stops stops]
      exact (List.append_nil _).symm
  | items bs os level ih =>
      intro ptr
      rw [driftWalk, walk, if_pos level, if_pos level]
      exact driftItems_of_each ih ptr 0
  | members ms d ih =>
      intro ptr
      rw [driftWalk, walk]
      exact driftMembers_of_each fun m member here => ih m member here _

theorem driftMembers_eq (members d : Dict) (ptr : PyStr) :
    driftMembers members d ptr = (walkMembers pointerSteps members d ptr).flatMap driftAt :=
  driftMembers_of_each fun _ _ _ => driftWalk_eq _ _ _

/-! ### Values beside themselves -/

mutual

/-- The value is NaN, or holds it below objects and lists of objects alone. -/
def exposesNaN : Json → Bool
  | .float t => t == py "NaN"
  | .arr items => items.all Json.isObj && itemsExposeNaN items
  | .obj members => membersExposeNaN members
  | _ => false

def itemsExposeNaN : List Json → Bool
  | [] => false
  | v :: items => exposesNaN v || itemsExposeNaN items

def membersExposeNaN : List (PyStr × Json) → Bool
  | [] => false
  | (_, v) :: members => exposesNaN v || membersExposeNaN members

end

theorem floatIsZero_nan : PyRuntime.floatIsZero (py "NaN") = false := by
  rw [Bool.eq_false_iff]
  intro zero
  have token := PyRuntime.floatEqInt_token _ 0 (PyRuntime.floatEqInt_zero _ zero)
  cases token

/-- A scalar is equal to itself, NaN apart. -/
theorem same_self (notArr : ∀ items, v ≠ .arr items) (notObj : ∀ members, v ≠ .obj members) :
    v.same v = true ↔ exposesNaN v = false := by
  cases v with
  | arr items => exact absurd rfl (notArr items)
  | obj members => exact absurd rfl (notObj members)
  | float t =>
      simp only [Json.same, exposesNaN, beq_self_eq_true, Bool.true_and, Bool.or_eq_true, bne_iff_ne,
        Bool.and_self, beq_eq_false_iff_ne]
      constructor
      · rintro (number | zero)
        · exact number
        · rintro rfl
          rw [floatIsZero_nan] at zero
          cases zero
      · exact .inl
  | null | bool _ | int _ | str _ => simp [Json.same, exposesNaN]

theorem deepBy_sameKey_self (canonical : v.Canonical) : Json.deepBy Json.sameKey v v = true := by
  apply Json.deepBy_refl _ canonical
  intro v _ notArr notObj
  apply Json.sameKey_refl
  cases v with
  | arr items => exact absurd rfl (notArr items)
  | obj members => exact absurd rfl (notObj members)
  | null | bool _ | int _ | float _ | str _ => rfl

/-- A value beside itself drifts exactly when it exposes a NaN. -/
theorem drifts_beside_itself_iff (canonical : v.Canonical) (ptr : PyStr) :
    driftWalk v v ptr = [] ↔ exposesNaN v = false := by
  induction v using Json.induction generalizing ptr with
  | flat v notArr notObj =>
      rw [← same_self notArr notObj]
      have scalar : pyEqual v v = v.same v := by
        cases v with
        | arr items => exact absurd rfl (notArr items)
        | obj members => exact absurd rfl (notObj members)
        | null | bool _ | int _ | float _ | str _ => rfl
      rw [driftWalk_of_stops ⟨fun ms _ both => notObj ms both.1, fun bs _ same => absurd same (notArr bs)⟩,
        driftAt, scalar]
      split <;> simp [*]
  | arr items ih =>
      have values := canonical
      rw [canonical_arr_iff] at values
      rw [driftWalk, lockstep_self, exposesNaN]
      cases objects : items.all Json.isObj with
      | true =>
          rw [if_pos rfl, Bool.true_and]
          clear objects canonical
          generalize 0 = i
          induction items generalizing i with
          | nil => exact iff_of_true rfl rfl
          | cons v items rest =>
              rw [List.forall_mem_cons] at ih values
              have later : driftItems items items ptr (i + 1) = [] ↔ itemsExposeNaN items = false :=
                rest ih.2 values.2 (i + 1)
              rw [driftItems, List.append_eq_nil_iff, itemsExposeNaN, Bool.or_eq_false_iff, later]
              exact and_congr_left fun _ => ih.1 values.1 _
      | false =>
          have equal : pyEqual (.arr items) (.arr items) = true := deepBy_sameKey_self canonical
          rw [if_neg Bool.false_ne_true, if_pos equal]
          exact iff_of_true rfl rfl
  | obj members ih =>
      rw [canonical_obj_iff] at canonical
      obtain ⟨distinct, values⟩ := canonical
      rw [driftWalk, exposesNaN]
      have each : ∀ part ⊆ members,
          (driftMembers part members ptr = [] ↔ membersExposeNaN part = false) := by
        intro part
        induction part with
        | nil => exact fun _ => iff_of_true rfl rfl
        | cons m part rest =>
            intro inside
            obtain ⟨key, v⟩ := m
            have here := inside (List.mem_cons_self ..)
            have has := Dict.has_of_mem here
            rw [driftMembers_cons, List.append_eq_nil_iff, if_pos has, membersExposeNaN,
              Bool.or_eq_false_iff, rest fun m later => inside (List.mem_cons_of_mem _ later),
              Dict.get_of_mem distinct here]
            exact and_congr_left fun _ => ih _ here (values _ here) _
      exact each members (List.Subset.refl _)

theorem extends_hydrateWalk (b o : Json) : b.Canonical → ∀ ptr, Extends o (hydrateWalk b o ptr).1 := by
  induction b, o using walk_induction with
  | stop b o stops =>
      intro _ ptr
      rw [hydrateWalk_of_stops stops]
      exact .same o
  | items bs os level ih =>
      intro canonical ptr
      rw [canonical_arr_iff] at canonical
      rw [hydrateWalk_items level]
      apply Extends.items
      apply extends_hydrateItems
      intro pair member
      exact ih pair member (canonical _ (List.of_mem_zip member).1)
  | members ms d ih =>
      intro canonical ptr
      rw [canonical_obj_iff] at canonical
      have each : ∀ m ∈ ms, Dict.has d m.1 = true → ∀ ptr,
          Extends (Dict.get d m.1) (hydrateWalk m.2 (Dict.get d m.1) ptr).1 :=
        fun m member here => ih m member here (canonical.2 m member)
      rw [hydrateWalk_members]
      apply Extends.members
      · exact fun k has => (extends_member canonical.1 each has ptr).1
      · exact fun k has => (extends_member canonical.1 each has ptr).2

theorem encodable_hydrateWalk (b o : Json) : b.Canonical → o.Canonical → ∀ ptr,
    (encodable (hydrateWalk b o ptr).1 = true ↔
      encodable o = true ∧ ∀ e ∈ walk pointerSteps b o ptr, EncodableAt e) := by
  induction b, o using walk_induction with
  | stop b o stops =>
      intro _ _ ptr
      rw [hydrateWalk_of_stops stops, walk_of_stops stops, List.forall_mem_singleton]
      exact (and_iff_left trivial).symm
  | items bs os level ih =>
      intro canonical canonical' ptr
      rw [canonical_arr_iff] at canonical canonical'
      rw [hydrateWalk_items level, walk, if_pos level, encodable, encodable]
      apply encodableItems_hydrated
      intro pair member
      exact ih pair member (canonical _ (List.of_mem_zip member).1)
        (canonical' _ (List.of_mem_zip member).2)
  | members ms d ih =>
      intro canonical canonical' ptr
      rw [canonical_obj_iff] at canonical canonical'
      rw [hydrateWalk_members, walk, encodable, encodable]
      apply encodableMembers_hydrated canonical'.1 (nodup_hydrateMembers canonical'.1 ms ptr)
      · intro m member has
        exact ih m member has (canonical.2 m member) (canonical'.2 _ (Dict.mem_of_has has))
      · exact hydrateMembers_get canonical.1 d ptr
      · exact fun k absent => hydrateMembers_other d ptr absent

end

end GhostPour.Configs
