/-
Module: GhostPour.Library.Pieces
Layer: Library
Purpose: Items that have a record each, in a list that may hold more: the records split into one for each item
  and the rest. What is read off an item is read off its record, so both can be counted and filtered together.
  What is left of a list when runs of equal elements collapse into one: its last element, and the neighbours
  that differ. Two texts made piece by piece from one another. A relation says which piece can stand for
  which; two texts are aligned when they are such pieces put together. At an element that only stands for
  itself an aligned text splits, and so does the other one.
Trusted boundary: none
Main exports: OwnRecords, OwnRecords.filter, OwnRecords.countP, OwnRecords.exists_record, getLast?_destutter,
  isChain_destutter_iff, destutter_append_last, Aligned, Aligned.append, Aligned.mono, Aligned.flatMap,
  Aligned.count, Stands, Aligned.split_at, Aligned.split_run
-/
import Mathlib

namespace GhostPour

variable {α β : Type}

/-- The records split into one for each item, in the order of the items, and the rest. -/
structure OwnRecords (R : α → β → Prop) (items : List α) (records own rest : List β) : Prop where
  perm : records.Perm (own ++ rest)
  each : List.Forall₂ R items own

namespace OwnRecords

variable {R : α → β → Prop} {items : List α} {records own rest : List β}

theorem forall₂_filter {p : α → Bool} {q : β → Bool} (agree : ∀ a b, R a b → p a = q b)
    (each : List.Forall₂ R items own) : List.Forall₂ R (items.filter p) (own.filter q) := by
  induction each with
  | nil => exact .nil
  | @cons a b _ _ here _ ih =>
      rw [List.filter_cons, List.filter_cons, agree a b here]
      split
      · exact .cons here ih
      · exact ih

/-- A test that an item passes exactly when its record does leaves each item that passes its record. -/
theorem filter {p : α → Bool} {q : β → Bool} (own_ : OwnRecords R items records own rest)
    (agree : ∀ a b, R a b → p a = q b) :
    OwnRecords R (items.filter p) (records.filter q) (own.filter q) (rest.filter q) where
  perm := by
    rw [← List.filter_append]
    exact own_.perm.filter q
  each := forall₂_filter agree own_.each

/-- As many records pass the test as items do, and as many more as are no item's. -/
theorem countP {p : α → Bool} {q : β → Bool} (own_ : OwnRecords R items records own rest)
    (agree : ∀ a b, R a b → p a = q b) :
    records.countP q = items.countP p + rest.countP q := by
  have same : items.countP p = own.countP q := by
    rw [List.countP_eq_length_filter, List.countP_eq_length_filter]
    exact (forall₂_filter agree own_.each).length_eq
  rw [own_.perm.countP_eq, List.countP_append, same]

/-- An item has a record. -/
theorem exists_record (own_ : OwnRecords R items records own rest) {a : α} (member : a ∈ items) :
    ∃ b ∈ records, R a b := by
  obtain ⟨b, listed, here⟩ : ∃ b ∈ own, R a b := by
    have each := own_.each
    clear own_
    induction each with
    | nil => cases member
    | @cons a' b' _ _ here _ ih =>
        rcases List.mem_cons.mp member with rfl | later
        · exact ⟨b', List.mem_cons_self, here⟩
        · obtain ⟨b, listed, here⟩ := ih later
          exact ⟨b, List.mem_cons_of_mem _ listed, here⟩
  exact ⟨b, own_.perm.mem_iff.mpr (List.mem_append_left _ listed), here⟩

end OwnRecords

end GhostPour

namespace GhostPour

variable {α : Type} [DecidableEq α]

theorem destutter'_eq_cons (a : α) (l : List α) :
    ∃ rest, l.destutter' (fun a b => b ≠ a) a = a :: rest := by
  induction l with
  | nil => exact ⟨[], rfl⟩
  | cons b l ih =>
      by_cases same : b = a
      · rw [List.destutter'_cons_neg _ (not_not.mpr same)]
        exact ih
      · rw [List.destutter'_cons_pos _ same]
        exact ⟨_, rfl⟩

/-- The last of a list stays last when its runs collapse. -/
theorem getLast?_destutter (l : List α) : (l.destutter fun a b => b ≠ a).getLast? = l.getLast? := by
  cases l with
  | nil => rfl
  | cons a l =>
      rw [List.destutter_cons']
      induction l generalizing a with
      | nil => rfl
      | cons b l ih =>
          by_cases same : b = a
          · subst same
            rw [List.destutter'_cons_neg _ (not_not.mpr rfl), ih, List.getLast?_cons_cons]
          · obtain ⟨rest, more⟩ := destutter'_eq_cons b l
            rw [List.destutter'_cons_pos _ same, List.getLast?_cons_cons, ← ih, more,
              List.getLast?_cons_cons]

/-- Neighbours after the collapse are the neighbours before it that differ. -/
theorem isChain_destutter_iff {R : α → α → Prop} {l : List α} :
    (l.destutter fun a b => b ≠ a).IsChain R ↔ l.IsChain fun a b => a ≠ b → R a b := by
  cases l with
  | nil => simp
  | cons a l =>
      rw [List.destutter_cons']
      induction l generalizing a with
      | nil => simp
      | cons b l ih =>
          rw [List.isChain_cons_cons, ← ih]
          by_cases same : b = a
          · subst same
            rw [List.destutter'_cons_neg _ (not_not.mpr rfl)]
            exact (and_iff_right fun differ => absurd rfl differ).symm
          · obtain ⟨rest, more⟩ := destutter'_eq_cons b l
            rw [List.destutter'_cons_pos _ same, more, List.isChain_cons_cons]
            exact and_congr_left fun _ => ⟨fun rel _ => rel, fun rel => rel (Ne.symm same)⟩

/-- Repeating the last element changes nothing. -/
theorem destutter_append_last {l : List α} {a : α} (last : l.getLast? = some a) :
    (l ++ [a]).destutter (fun a b => b ≠ a) = l.destutter fun a b => b ≠ a := by
  cases l with
  | nil => cases last
  | cons b l =>
      rw [List.cons_append, List.destutter_cons', List.destutter_cons']
      induction l generalizing b with
      | nil =>
          cases last
          exact List.destutter'_cons_neg _ (not_not.mpr rfl)
      | cons c l ih =>
          rw [List.getLast?_cons_cons] at last
          rw [List.cons_append]
          by_cases same : c = b
          · subst same
            rw [List.destutter'_cons_neg _ (not_not.mpr rfl),
              List.destutter'_cons_neg _ (not_not.mpr rfl), ih c last]
          · rw [List.destutter'_cons_pos _ same, List.destutter'_cons_pos _ same, ih c last]

end GhostPour

namespace GhostPour

variable {α : Type}

/-- Pieces of one text, one after the other, and what stands for them in the other. -/
inductive Aligned (R : List α → List α → Prop) : List α → List α → Prop
  | nil : Aligned R [] []
  | piece {u v s t : List α} (related : R u v) (later : Aligned R s t) : Aligned R (u ++ s) (v ++ t)

namespace Aligned

variable {R Q : List α → List α → Prop} {s t s' t' : List α}

theorem single {u v : List α} (related : R u v) : Aligned R u v := by
  have alone := Aligned.piece related .nil
  rwa [List.append_nil, List.append_nil] at alone

theorem append (front : Aligned R s t) (back : Aligned R s' t') : Aligned R (s ++ s') (t ++ t') := by
  induction front with
  | nil => exact back
  | piece related later ih =>
      rw [List.append_assoc, List.append_assoc]
      exact .piece related ih

/-- A text and its image, element by element. -/
theorem flatMap {f : α → List α} (related : ∀ c, R [c] (f c)) (s : List α) : Aligned R s (s.flatMap f) := by
  induction s with
  | nil => exact .nil
  | cons c s ih =>
      rw [List.flatMap_cons]
      exact .piece (related c) ih

/-- Elements that every piece has as often as what stands for it. -/
theorem count [BEq α] {c : α} (same : ∀ u v, R u v → u.count c = v.count c) (aligned : Aligned R s t) :
    s.count c = t.count c := by
  induction aligned with
  | nil => rfl
  | piece related later ih => rw [List.count_append, List.count_append, same _ _ related, ih]

end Aligned

/-- An element that only stands for itself. -/
def Stands (R : List α → List α → Prop) (c : α) : Prop := ∀ u v, R u v → c ∈ v → u = [c] ∧ v = [c]

namespace Aligned

variable {R : List α → List α → Prop}

/-- At such an element, both texts split. -/
theorem split_at {c : α} (stands : Stands R c) {s t : List α} (aligned : Aligned R s t) :
    ∀ {x y : List α}, t = x ++ c :: y →
      ∃ p q, s = p ++ c :: q ∧ Aligned R p x ∧ Aligned R q y := by
  induction aligned with
  | nil =>
      intro x y split
      simp at split
  | @piece u v s t related later ih =>
      intro x y split
      rcases List.append_eq_append_iff.mp split with ⟨a, rfl, rest⟩ | ⟨a, rfl, rest⟩
      · obtain ⟨p, q, rfl, front, back⟩ := ih rest
        exact ⟨u ++ p, q, (List.append_assoc _ _ _).symm, .piece related front, back⟩
      · cases a with
        | nil =>
            rw [List.append_nil] at related
            obtain ⟨p, q, rfl, front, back⟩ := ih (x := []) rest.symm
            have joined := Aligned.piece related front
            rw [List.append_nil] at joined
            exact ⟨u ++ p, q, (List.append_assoc _ _ _).symm, joined, back⟩
        | cons b a =>
            obtain ⟨rfl, rfl⟩ := List.cons.inj rest
            obtain ⟨rfl, single⟩ := stands u _ related (by simp)
            have lengths := congrArg List.length single
            rw [List.length_append, List.length_cons, List.length_singleton] at lengths
            have front : x = [] := List.length_eq_zero_iff.mp (by omega)
            have back : a = [] := List.length_eq_zero_iff.mp (by omega)
            rw [front, back]
            exact ⟨[], s, rfl, .nil, later⟩

/-- Nothing stands for no element, where every piece has one. -/
theorem eq_nil (some_ : ∀ u v, R u v → v ≠ []) {s t : List α} (aligned : Aligned R s t) (empty : t = []) :
    s = [] := by
  cases aligned with
  | nil => rfl
  | piece related later => exact absurd (List.append_eq_nil_iff.mp empty).1 (some_ _ _ related)

/-- At a run of such elements, too. -/
theorem split_run (some_ : ∀ u v, R u v → v ≠ []) {c : α} {m : List α}
    (stands : ∀ d ∈ c :: m, Stands R d) : ∀ {s x y : List α}, Aligned R s (x ++ (c :: m ++ y)) →
      ∃ p q, s = p ++ (c :: m ++ q) ∧ Aligned R p x ∧ Aligned R q y := by
  induction m generalizing c with
  | nil => exact fun aligned => aligned.split_at (stands c List.mem_cons_self) rfl
  | cons d m ih =>
      intro s x y aligned
      rw [List.forall_mem_cons] at stands
      obtain ⟨p, q, rfl, front, back⟩ := aligned.split_at stands.1 rfl
      obtain ⟨p', q', rfl, none_, back⟩ := ih stands.2 (x := []) back
      rw [none_.eq_nil some_ rfl]
      exact ⟨p, q', rfl, front, back⟩

end Aligned

end GhostPour
