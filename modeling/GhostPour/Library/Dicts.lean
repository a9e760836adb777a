/-
Module: GhostPour.Library.Dicts
Layer: Library
Purpose: What a Python `dict` from strings holds after an assignment. What a lookup in a dict finds after a
  key has been set or deleted.
Trusted boundary: none
Main exports: Assoc.mem_set, Assoc.mem_of_get, Assoc.get_set_self, Assoc.get_set_of_ne, Assoc.nodup_set,
  Assoc.get_of_mem, Dict.get_set, Dict.has_set, Dict.get_del, Dict.has_del, Dict.mem_of_has, Dict.get_of_mem
-/
import GhostPour.Library.Json
import GhostPour.Library.PyValue

namespace GhostPour.Assoc

variable {α : Type}

/-- An assignment adds one value at most. -/
theorem mem_set {d : Assoc α} {key k : PyStr} {v w : α} (member : (k, w) ∈ d.set key v) :
    (k, w) ∈ d ∨ w = v := by
  induction d with
  | nil =>
      cases List.mem_singleton.mp member
      exact .inr rfl
  | cons m d ih =>
      obtain ⟨k', u⟩ := m
      rw [set] at member
      split at member
      · rcases List.mem_cons.mp member with here | later
        · cases here
          exact .inr rfl
        · exact .inl (List.mem_cons_of_mem _ later)
      · rcases List.mem_cons.mp member with here | later
        · rw [here]
          exact .inl List.mem_cons_self
        · rcases ih later with old | new
          · exact .inl (List.mem_cons_of_mem _ old)
          · exact .inr new

theorem mem_of_get {d : Assoc α} {key : PyStr} {v : α} (found : d.get key = some v) :
    (key, v) ∈ d := by
  induction d with
  | nil => cases found
  | cons m d ih =>
      obtain ⟨k, w⟩ := m
      rw [get] at found
      split at found
      · next same =>
        cases found
        rw [same]
        exact List.mem_cons_self
      · exact List.mem_cons_of_mem _ (ih found)

theorem get_set (d : Assoc α) (key k : PyStr) (v : α) :
    (d.set key v).get k = if key = k then some v else d.get k := by
  induction d with
  | nil => rfl
  | cons m d ih =>
      obtain ⟨k', w⟩ := m
      rw [set]
      by_cases here : k' = key
      · rw [if_pos here, get, get, here]
        split <;> rfl
      · rw [if_neg here, get, get, ih]
        by_cases there : k' = k
        · rw [if_pos there, if_pos there, if_neg fun same => here (there.trans same.symm)]
        · rw [if_neg there, if_neg there]

@[simp] theorem get_set_self (d : Assoc α) (key : PyStr) (v : α) : (d.set key v).get key = some v := by
  rw [get_set, if_pos rfl]

theorem get_set_of_ne {key k : PyStr} (other : k ≠ key) (d : Assoc α) (v : α) :
    (d.set key v).get k = d.get k := by
  rw [get_set, if_neg other.symm]

theorem keys_set (d : Assoc α) (key : PyStr) (v : α) :
    (d.set key v).map Prod.fst =
      if key ∈ d.map Prod.fst then d.map Prod.fst else d.map Prod.fst ++ [key] := by
  induction d with
  | nil => rfl
  | cons m d ih =>
      obtain ⟨k, w⟩ := m
      rw [set]
      by_cases same : k = key
      · rw [if_pos same, List.map_cons, List.map_cons, if_pos (by simp [same])]
      · rw [if_neg same, List.map_cons, List.map_cons, ih]
        have other : key ≠ k := fun h => same h.symm
        by_cases later : key ∈ d.map Prod.fst
        · rw [if_pos later, if_pos (List.mem_cons_of_mem _ later)]
        · rw [if_neg later, if_neg (by simp [other, later]), List.cons_append]

theorem nodup_set {d : Assoc α} (distinct : (d.map Prod.fst).Nodup) (key : PyStr) (v : α) :
    ((d.set key v).map Prod.fst).Nodup := by
  rw [keys_set]
  split
  · exact distinct
  · next fresh =>
    rw [List.nodup_append]
    refine ⟨distinct, List.nodup_singleton key, ?_⟩
    rintro a member b last rfl
    exact fresh (List.mem_singleton.mp last ▸ member)

/-- A dict has one value for a key. -/
theorem get_of_mem {d : Assoc α} (distinct : (d.map Prod.fst).Nodup) {key : PyStr} {v : α}
    (member : (key, v) ∈ d) : d.get key = some v := by
  induction d with
  | nil => cases member
  | cons m d ih =>
      obtain ⟨k, w⟩ := m
      rw [List.map_cons, List.nodup_cons] at distinct
      rw [get]
      rcases List.mem_cons.mp member with here | later
      · cases here
        rw [if_pos rfl]
      · have listed : key ∈ d.map Prod.fst := List.mem_map.mpr ⟨_, later, rfl⟩
        have other : k ≠ key := by
          rintro rfl
          exact distinct.1 listed
        rw [if_neg other]
        exact ih distinct.2 later

end GhostPour.Assoc

namespace GhostPour.Dict

theorem get_set (d : Dict) (key k : PyStr) (v : Json) :
    (d.set key v).get k = if key = k then v else d.get k := by
  induction d with
  | nil => rfl
  | cons m d ih =>
      obtain ⟨k', w⟩ := m
      rw [set]
      by_cases here : k' = key
      · rw [if_pos here, get, get, here]
        split <;> rfl
      · rw [if_neg here, get, get, ih]
        by_cases found : k' = k
        · rw [if_pos found, if_pos found, if_neg fun same => here (found.trans same.symm)]
        · rw [if_neg found, if_neg found]

theorem get_set_self (d : Dict) (key : PyStr) (v : Json) : (d.set key v).get key = v := by
  rw [get_set, if_pos rfl]

theorem get_set_of_ne (d : Dict) {key k : PyStr} (v : Json) (other : key ≠ k) :
    (d.set key v).get k = d.get k := by
  rw [get_set, if_neg other]

theorem set_set (d : Dict) (key : PyStr) (v w : Json) : (d.set key v).set key w = d.set key w := by
  induction d with
  | nil => exact if_pos rfl
  | cons m d ih =>
      obtain ⟨k, u⟩ := m
      rw [set, set]
      split
      · next same => rw [set, if_pos same]
      · next other => rw [set, if_neg other, ih]

theorem has_cons (m : PyStr × Json) (d : Dict) (k : PyStr) :
    Dict.has (m :: d) k = true ↔ m.1 = k ∨ d.has k = true := by
  rw [has, Bool.or_eq_true, beq_iff_eq]

theorem has_set (d : Dict) (key k : PyStr) (v : Json) :
    (d.set key v).has k = true ↔ key = k ∨ d.has k = true := by
  induction d with
  | nil => rw [set, has_cons]
  | cons m d ih =>
      obtain ⟨k', w⟩ := m
      rw [set]
      split
      · next same =>
        rw [has_cons, has_cons, same]
        tauto
      · rw [has_cons, has_cons, ih]
        tauto

theorem get_of_not_has {d : Dict} {key : PyStr} (absent : d.has key = false) :
    d.get key = .null := by
  induction d with
  | nil => rfl
  | cons m d ih =>
      obtain ⟨k, v⟩ := m
      rw [has, Bool.or_eq_false_iff, beq_eq_false_iff_ne] at absent
      rw [get, if_neg absent.1, ih absent.2]

theorem has_del (d : Dict) (key k : PyStr) :
    (d.del key).has k = true ↔ key ≠ k ∧ d.has k = true := by
  induction d with
  | nil => simp [del, has]
  | cons m d ih =>
      obtain ⟨k', w⟩ := m
      unfold del at ih ⊢
      rw [List.filter_cons, has_cons]
      by_cases here : k' = key
      · subst here
        rw [if_neg (by simp), ih]
        tauto
      · rw [if_pos (by simpa using here), has_cons, ih]
        constructor
        · rintro (found | ⟨other, rest⟩)
          · exact ⟨fun same => here (found.trans same.symm), .inl found⟩
          · exact ⟨other, .inr rest⟩
        · rintro ⟨other, found | rest⟩
          · exact .inl found
          · exact .inr ⟨other, rest⟩

theorem get_del (d : Dict) (key k : PyStr) :
    (d.del key).get k = if key = k then .null else d.get k := by
  induction d with
  | nil => simp [del, get]
  | cons m d ih =>
      obtain ⟨k', w⟩ := m
      unfold del at ih ⊢
      rw [List.filter_cons]
      by_cases here : k' = key
      · subst here
        rw [if_neg (by simp), ih, get]
        by_cases found : k' = k <;> simp [found]
      · rw [if_pos (by simpa using here), get, get, ih]
        by_cases found : k' = k
        · rw [if_pos found, if_pos found, if_neg fun same => here (found.trans same.symm)]
        · rw [if_neg found, if_neg found]

theorem mem_of_has {d : Dict} {key : PyStr} (here : d.has key = true) : (key, d.get key) ∈ d := by
  induction d with
  | nil => cases here
  | cons m d ih =>
      obtain ⟨k, v⟩ := m
      by_cases same : k = key
      · rw [Dict.get, if_pos same, same]
        exact List.mem_cons_self
      · rw [Dict.has, beq_false_of_ne same, Bool.false_or] at here
        rw [Dict.get, if_neg same]
        exact List.mem_cons_of_mem _ (ih here)

theorem has_of_mem {d : Dict} {m : PyStr × Json} (member : m ∈ d) : d.has m.1 = true := by
  induction d with
  | nil => cases member
  | cons m' d ih =>
      rw [has_cons]
      rcases List.mem_cons.mp member with same | later
      · exact .inl (congrArg Prod.fst same.symm)
      · exact .inr (ih later)

theorem get_of_mem {d : Dict} (distinct : (d.map Prod.fst).Nodup) {key : PyStr} {v : Json}
    (member : (key, v) ∈ d) : d.get key = v := by
  induction d with
  | nil => cases member
  | cons m d ih =>
      obtain ⟨k, w⟩ := m
      rw [List.map_cons, List.nodup_cons] at distinct
      rcases List.mem_cons.mp member with same | later
      · cases same
        rw [Dict.get, if_pos rfl]
      · have other : k ≠ key := by
          rintro rfl
          exact distinct.1 (List.mem_map.mpr ⟨_, later, rfl⟩)
        rw [Dict.get, if_neg other, ih distinct.2 later]

end GhostPour.Dict
