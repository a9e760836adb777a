/-
Module: GhostPour.Library.JsonWalk
Layer: Library
Purpose: JSON values compared two at a time: induction on a value, equality that compares scalars in a
  way of its own and takes no notice of the order of keys, and the walk of two documents side by side
  that goes down through objects and through lists of objects of one length. A walk meets the keys that
  the second document lacks and the pairs where it stops, and what a program does on its walk is read
  off these.
Trusted boundary: human-reviewed spec
Main exports: Json.induction, Json.deepBy, Json.deepBy_refl, Json.lockstep, Json.Meeting, Json.walk,
  Json.walk_induction, Json.canonical_first, Json.walk_self, flatMap_eq_iff
-/
import GhostPour.Library.Dicts
import GhostPour.Library.JsonCanonical

namespace GhostPour.Json

/-! ### Induction -/

/-- A property that lists and objects have once their parts do. -/
@[elab_as_elim] theorem induction {motive : Json → Prop}
    (flat : ∀ v, (∀ items, v ≠ .arr items) → (∀ members, v ≠ .obj members) → motive v)
    (arr : ∀ items, (∀ v ∈ items, motive v) → motive (.arr items))
    (obj : ∀ members, (∀ m ∈ members, motive m.2) → motive (.obj members)) : ∀ v, motive v
  | .arr items => arr items fun v _ => induction flat arr obj v
  | .obj members => obj members fun m _ => induction flat arr obj m.2
  | .null => flat _ (by simp) (by simp)
  | .bool _ => flat _ (by simp) (by simp)
  | .int _ => flat _ (by simp) (by simp)
  | .float _ => flat _ (by simp) (by simp)
  | .str _ => flat _ (by simp) (by simp)
termination_by v => sizeOf v
decreasing_by
  · have := List.sizeOf_lt_of_mem ‹_›
    simp_wf
    omega
  · have := List.sizeOf_lt_of_mem ‹_›
    obtain ⟨key, v⟩ := m
    simp_wf
    simp at this
    omega

/-! ### Deep equality -/

mutual

/-- Equality of values, with the scalars compared in a given way. -/
def deepBy (scalar : Json → Json → Bool) : Json → Json → Bool
  | .arr xs, .arr ys => deepItems scalar xs ys
  | .obj xs, .obj ys => xs.length == ys.length && deepMembers scalar xs ys
  | a, b => scalar a b

def deepItems (scalar : Json → Json → Bool) : List Json → List Json → Bool
  | [], [] => true
  | x :: xs, y :: ys => deepBy scalar x y && deepItems scalar xs ys
  | _, _ => false

def deepMembers (scalar : Json → Json → Bool) : List (PyStr × Json) → Dict → Bool
  | [], _ => true
  | (key, v) :: members, d => Dict.has d key && deepBy scalar v (Dict.get d key) && deepMembers scalar members d

end

/-- A value is equal to itself when its scalars are. -/
theorem deepBy_refl [PyRuntime] {scalar : Json → Json → Bool}
    (flat : ∀ v : Json, v.Canonical → (∀ items, v ≠ .arr items) → (∀ members, v ≠ .obj members) →
      scalar v v = true) {v : Json} (canonical : v.Canonical) : deepBy scalar v v = true := by
  induction v using induction with
  | flat v notArr notObj =>
      cases v with
      | arr items => exact absurd rfl (notArr items)
      | obj members => exact absurd rfl (notObj members)
      | null | bool b | int n | float t | str s => exact flat _ canonical notArr notObj
  | arr items ih =>
      rw [canonical_arr_iff] at canonical
      rw [deepBy]
      induction items with
      | nil => rfl
      | cons v items rest =>
          rw [List.forall_mem_cons] at ih canonical
          rw [deepItems, ih.1 canonical.1, rest ih.2 canonical.2]
          rfl
  | obj members ih =>
      rw [canonical_obj_iff] at canonical
      obtain ⟨distinct, values⟩ := canonical
      have each : ∀ front ⊆ members, deepMembers scalar front members = true := by
        intro front
        induction front with
        | nil => exact fun _ => rfl
        | cons m front rest =>
            intro part
            have here := part (List.mem_cons_self ..)
            obtain ⟨key, v⟩ := m
            rw [deepMembers, Dict.get_of_mem distinct here, ih _ here (values _ here),
              rest fun m later => part (List.mem_cons_of_mem _ later)]
            have has := Dict.has_of_mem here
            change Dict.has members key = true at has
            rw [has]
            rfl
      rw [deepBy, each members (List.Subset.refl _)]
      simp

/-! ### The walk of two documents -/

def isObj : Json → Bool
  | .obj _ => true
  | _ => false

/-- Two lists of one length, of objects. -/
def lockstep (bs os : List Json) : Bool :=
  bs.length == os.length && (bs.zip os).all fun pair => pair.1.isObj && pair.2.isObj

/-- How a path goes on to a key or to an element. -/
structure Steps (π : Type) where
  key : π → PyStr → π
  item : π → Nat → π

/-- What a walk meets: a key that the second document lacks, with the value of the first, or a pair at
which it stops. -/
inductive Meeting (π : Type) where
  | lacks (key : PyStr) (v : Json) (here : π)
  | stops (b o : Json) (here : π)

section
variable {π : Type} (steps : Steps π)

mutual

def walk : Json → Json → π → List (Meeting π)
  | .obj members, .obj d, here => walkMembers members d here
  | .arr bs, .arr os, here =>
      if lockstep bs os then walkItems bs os here 0 else [.stops (.arr bs) (.arr os) here]
  | b, o, here => [.stops b o here]

def walkMembers : List (PyStr × Json) → Dict → π → List (Meeting π)
  | [], _, _ => []
  | (key, v) :: members, d, here =>
      (if Dict.has d key then walk v (Dict.get d key) (steps.key here key)
        else [.lacks key v (steps.key here key)]) ++ walkMembers members d here

def walkItems : List Json → List Json → π → Nat → List (Meeting π)
  | b :: bs, o :: os, here, i => walk b o (steps.item here i) ++ walkItems bs os here (i + 1)
  | _, _, _, _ => []

end

/-- The walk goes no further down than this pair. -/
def Stops (b o : Json) : Prop :=
  (∀ members d, ¬ (b = .obj members ∧ o = .obj d)) ∧
    ∀ bs os, b = .arr bs → o = .arr os → lockstep bs os = false

variable {steps}

theorem walk_of_stops {b o : Json} (stops : Stops b o) (here : π) :
    walk steps b o here = [.stops b o here] := by
  cases b with
  | obj members =>
      cases o with
      | obj d => exact absurd ⟨rfl, rfl⟩ (stops.1 members d)
      | null | bool _ | int _ | float _ | str _ | arr _ => rfl
  | arr bs =>
      cases o with
      | arr os =>
          rw [walk, stops.2 bs os rfl rfl]
          rfl
      | null | bool _ | int _ | float _ | str _ | obj _ => rfl
  | null | bool _ | int _ | float _ | str _ => rfl

/-- A property of the pairs a walk goes through. -/
theorem walk_induction {motive : Json → Json → Prop}
    (stop : ∀ b o, Stops b o → motive b o)
    (items : ∀ bs os, lockstep bs os = true → (∀ pair ∈ bs.zip os, motive pair.1 pair.2) →
      motive (.arr bs) (.arr os))
    (members : ∀ ms d, (∀ m ∈ ms, Dict.has d m.1 = true → motive m.2 (Dict.get d m.1)) →
      motive (.obj ms) (.obj d)) (b o : Json) : motive b o := by
  induction b using induction generalizing o with
  | flat v notArr notObj =>
      apply stop
      exact ⟨fun ms _ both => notObj ms both.1, fun bs _ same => absurd same (notArr bs)⟩
  | arr bs ih =>
      cases o with
      | arr os =>
          cases level : lockstep bs os with
          | true =>
              apply items bs os level
              intro pair member
              exact ih pair.1 (List.of_mem_zip member).1 pair.2
          | false =>
              apply stop
              constructor
              · rintro _ _ ⟨impossible, -⟩
                cases impossible
              · rintro _ _ ⟨⟩ ⟨⟩
                exact level
      | null | bool _ | int _ | float _ | str _ | obj _ =>
          apply stop
          constructor
          · rintro _ _ ⟨impossible, -⟩
            cases impossible
          · rintro _ _ - ⟨⟩
  | obj ms ih =>
      cases o with
      | obj d => exact members ms d fun m member _ => ih m member _
      | null | bool _ | int _ | float _ | str _ | arr _ =>
          apply stop
          constructor
          · rintro _ _ ⟨-, ⟨⟩⟩
          · rintro _ _ ⟨⟩

theorem walkMembers_eq (ms : List (PyStr × Json)) (d : Dict) (here : π) :
    walkMembers steps ms d here = ms.flatMap fun m =>
      if Dict.has d m.1 then walk steps m.2 (Dict.get d m.1) (steps.key here m.1)
      else [.lacks m.1 m.2 (steps.key here m.1)] := by
  induction ms with
  | nil => rfl
  | cons m ms ih =>
      obtain ⟨key, v⟩ := m
      rw [walkMembers, ih, List.flatMap_cons]

theorem mem_walkItems {bs os : List Json} {here : π} {i : Nat} {e : Meeting π} :
    e ∈ walkItems steps bs os here i →
      ∃ pair ∈ bs.zip os, ∃ j, e ∈ walk steps pair.1 pair.2 (steps.item here j) := by
  induction bs generalizing os i with
  | nil =>
      intro member
      cases member
  | cons b bs ih =>
      cases os with
      | nil =>
          intro member
          cases member
      | cons o os =>
          intro member
          rcases List.mem_append.mp member with first | later
          · exact ⟨(b, o), List.mem_cons_self .., i, first⟩
          · obtain ⟨pair, paired, j, found⟩ := ih later
            exact ⟨pair, List.mem_cons_of_mem _ paired, j, found⟩

/-- The value of the first document at a meeting. -/
def Meeting.first : Meeting π → Json
  | .lacks _ v _ => v
  | .stops b _ _ => b

theorem canonical_first [PyRuntime] (b o : Json) : b.Canonical → ∀ here : π,
    ∀ e ∈ walk steps b o here, e.first.Canonical := by
  induction b, o using walk_induction with
  | stop b o stops =>
      intro canonical here e member
      rw [walk_of_stops stops, List.mem_singleton] at member
      rw [member]
      exact canonical
  | items bs os level ih =>
      intro canonical here e member
      rw [canonical_arr_iff] at canonical
      rw [walk, if_pos level] at member
      obtain ⟨pair, paired, j, found⟩ := mem_walkItems member
      exact ih pair paired (canonical _ (List.of_mem_zip paired).1) _ e found
  | members ms d ih =>
      intro canonical here e member
      rw [canonical_obj_iff] at canonical
      rw [walk, walkMembers_eq] at member
      obtain ⟨m, part, found⟩ := List.mem_flatMap.mp member
      split at found
      · next has => exact ih m part has (canonical.2 m part) _ e found
      · rw [List.mem_singleton.mp found]
        exact canonical.2 m part

/-- What is met depends on the keys of the members alone. -/
theorem walkMembers_congr {ms : List (PyStr × Json)} {d d' : Dict}
    (same : ∀ m ∈ ms, Dict.has d m.1 = Dict.has d' m.1 ∧ Dict.get d m.1 = Dict.get d' m.1) (here : π) :
    walkMembers steps ms d here = walkMembers steps ms d' here := by
  rw [walkMembers_eq, walkMembers_eq]
  apply List.flatMap_congr
  intro m member
  rw [(same m member).1, (same m member).2]

/-- A value beside itself is met in equal pairs only. -/
theorem walk_self [PyRuntime] {v : Json} (canonical : v.Canonical) (here : π) :
    ∀ e ∈ walk steps v v here, ∃ x at_, e = .stops x x at_ ∧ x.Canonical ∧ Stops x x := by
  induction v using induction generalizing here with
  | flat v notArr notObj =>
      have stops : Stops v v :=
        ⟨fun ms _ both => notObj ms both.1, fun bs _ same => absurd same (notArr bs)⟩
      rw [walk_of_stops stops]
      intro e member
      exact ⟨v, here, List.mem_singleton.mp member, canonical, stops⟩
  | arr items ih =>
      have values := canonical
      rw [canonical_arr_iff] at values
      intro e member
      rw [walk] at member
      split at member
      · obtain ⟨pair, paired, j, found⟩ := mem_walkItems member
        have same : pair.1 = pair.2 := by
          rw [List.zip_eq_zipWith, List.zipWith_self] at paired
          obtain ⟨x, -, rfl⟩ := List.mem_map.mp paired
          rfl
        rw [← same] at found
        have part := (List.of_mem_zip paired).1
        exact ih pair.1 part (values _ part) _ e found
      · next level =>
        refine ⟨.arr items, here, List.mem_singleton.mp member, canonical, ?_, ?_⟩
        · rintro _ _ ⟨impossible, -⟩
          cases impossible
        · rintro _ _ ⟨⟩ ⟨⟩
          exact Bool.eq_false_iff.mpr level
  | obj members ih =>
      rw [canonical_obj_iff] at canonical
      obtain ⟨distinct, values⟩ := canonical
      intro e member
      rw [walk, walkMembers_eq, List.mem_flatMap] at member
      obtain ⟨⟨key, v⟩, part, found⟩ := member
      have has := Dict.has_of_mem part
      change Dict.has members key = true at has
      dsimp only at found
      rw [if_pos has, Dict.get_of_mem distinct part] at found
      exact ih _ part (values _ part) _ e found

end

end GhostPour.Json

namespace GhostPour

/-- Parts that are cut short leave the whole as it was exactly when none of them is. -/
theorem flatMap_eq_iff {α β : Type} {l : List α} {f g : α → List β}
    (shorter : ∀ x ∈ l, (g x).Sublist (f x)) : l.flatMap f = l.flatMap g ↔ ∀ x ∈ l, f x = g x := by
  induction l with
  | nil => simp
  | cons x l ih =>
      rw [List.forall_mem_cons] at shorter ⊢
      rw [List.flatMap_cons, List.flatMap_cons, ← ih shorter.2]
      have rest : (l.flatMap g).Sublist (l.flatMap f) := by
        clear ih
        have each := shorter.2
        clear shorter
        induction l with
        | nil => exact List.Sublist.refl _
        | cons y l ih =>
            rw [List.forall_mem_cons] at each
            rw [List.flatMap_cons, List.flatMap_cons]
            exact each.1.append (ih each.2)
      constructor
      · intro same
        have lengths := congrArg List.length same
        rw [List.length_append, List.length_append] at lengths
        have first := shorter.1.length_le
        have later := rest.length_le
        exact ⟨(shorter.1.eq_of_length (by omega)).symm, (rest.eq_of_length (by omega)).symm⟩
      · rintro ⟨first, later⟩
        rw [first, later]

end GhostPour
