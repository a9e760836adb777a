/-
Module: GhostPour.Library.Sums
Layer: Library
Purpose: `SELECT SUM(..) WHERE ..` over rows, and how the sum moves when rows are added, deleted or
  changed. A row whose summand is zero never matters.
Trusted boundary: none
Main exports: sumWhere, sumWhere_append, sumWhere_congr, sumWhere_perm, sumWhere_delete,
  sumWhere_le, Table.sumWhere_deleteKeys, Table.sumWhere_upsert
-/
import GhostPour.Library.Table

namespace GhostPour

variable {α M : Type} [AddCommMonoid M]

/-- The sum of `f` over the rows that meet `p`. -/
def sumWhere (p : α → Bool) (f : α → M) (rows : List α) : M := ((rows.filter p).map f).sum

section
variable (p q : α → Bool) (f : α → M)

@[simp] theorem sumWhere_nil : sumWhere p f [] = 0 := rfl

theorem sumWhere_cons (a : α) (rows : List α) :
    sumWhere p f (a :: rows) = (if p a then f a else 0) + sumWhere p f rows := by
  unfold sumWhere
  rw [List.filter_cons]
  split
  · rw [List.map_cons, List.sum_cons]
  · rw [zero_add]

theorem sumWhere_append (front back : List α) :
    sumWhere p f (front ++ back) = sumWhere p f front + sumWhere p f back := by
  simp [sumWhere]

@[simp] theorem sumWhere_singleton (a : α) : sumWhere p f [a] = if p a then f a else 0 := by
  rw [sumWhere_cons, sumWhere_nil, add_zero]

variable {p q f}

/-- The sum depends only on which of the rows that count are taken. -/
theorem sumWhere_congr {rows : List α} (same : ∀ a ∈ rows, f a ≠ 0 → p a = q a) :
    sumWhere p f rows = sumWhere q f rows := by
  induction rows with
  | nil => rfl
  | cons a rows ih =>
      rw [sumWhere_cons, sumWhere_cons, ih fun b member => same b (List.mem_cons_of_mem a member)]
      by_cases zero : f a = 0
      · rw [zero, ite_self, ite_self]
      · rw [same a List.mem_cons_self zero]

/-- The order of the rows does not matter. -/
theorem sumWhere_perm {rows rows' : List α} (same : rows.Perm rows') :
    sumWhere p f rows = sumWhere p f rows' :=
  ((same.filter p).map f).sum_eq

theorem sumWhere_eq_zero {rows : List α} (none : ∀ a ∈ rows, p a = true → f a = 0) :
    sumWhere p f rows = 0 := by
  induction rows with
  | nil => rfl
  | cons a rows ih =>
      rw [sumWhere_cons, ih fun b member => none b (List.mem_cons_of_mem a member), add_zero]
      split
      · next taken => exact none a List.mem_cons_self taken
      · rfl

variable (p q f)

/-- What a delete leaves, and what it takes. -/
theorem sumWhere_delete (rows : List α) :
    sumWhere p f (rows.filter fun a => !q a) + sumWhere (fun a => q a && p a) f rows =
      sumWhere p f rows := by
  induction rows with
  | nil => simp
  | cons a rows ih =>
      rw [sumWhere_cons, sumWhere_cons, ← ih, List.filter_cons]
      rcases q a with _ | _
      · simp only [Bool.not_false, if_true, Bool.false_and, Bool.false_eq_true, if_false,
          sumWhere_cons, zero_add]
        exact add_assoc _ _ _
      · simp only [Bool.not_true, Bool.false_eq_true, if_false, Bool.true_and]
        exact add_left_comm _ _ _

end

/-- Rows that count nothing negative sum to nothing negative. -/
theorem sumWhere_nonneg [Preorder M] [AddLeftMono M] {p : α → Bool} {f : α → M} {rows : List α}
    (positive : ∀ a ∈ rows, 0 ≤ f a) : 0 ≤ sumWhere p f rows := by
  apply List.sum_nonneg
  intro x member
  obtain ⟨a, taken, rfl⟩ := List.mem_map.mp member
  exact positive a (List.mem_of_mem_filter taken)

/-- A wider condition sums to more. -/
theorem sumWhere_le {p q : α → Bool} {f : α → Nat} {rows : List α}
    (wider : ∀ a ∈ rows, p a = true → q a = true) : sumWhere p f rows ≤ sumWhere q f rows := by
  induction rows with
  | nil => exact Nat.le_refl 0
  | cons a rows ih =>
      have later := ih fun b member => wider b (List.mem_cons_of_mem a member)
      rw [sumWhere_cons, sumWhere_cons]
      by_cases here : p a = true
      · rw [if_pos here, if_pos (wider a List.mem_cons_self here)]
        exact Nat.add_le_add_left later _
      · rw [if_neg here, zero_add]
        exact Nat.le_add_left_of_le later

/-- If a sum of such rows is zero, each of them is. -/
theorem eq_zero_of_sumWhere {M : Type} [AddCommMonoid M] [PartialOrder M] [IsOrderedAddMonoid M]
    {p : α → Bool} {f : α → M} {rows : List α} (positive : ∀ a ∈ rows, 0 ≤ f a)
    (zero : sumWhere p f rows = 0) : ∀ a ∈ rows, p a = true → f a = 0 := by
  induction rows with
  | nil => intro a member; cases member
  | cons b rows ih =>
      have tail : ∀ a ∈ rows, 0 ≤ f a := fun a member => positive a (List.mem_cons_of_mem b member)
      have head : 0 ≤ if p b then f b else 0 := by
        split
        · exact positive b List.mem_cons_self
        · exact le_refl _
      rw [sumWhere_cons, add_eq_zero_iff_of_nonneg head (sumWhere_nonneg tail)] at zero
      intro a member taken
      rcases List.mem_cons.mp member with rfl | later
      · simpa [taken] using zero.1
      · exact ih tail zero.2 a later taken

/-! ### Sums over a table -/

namespace Table

variable {κ β : Type} [DecidableEq κ]

/-- The row of a key stands once, among rows of other keys. -/
theorem split_of_get {t : Table κ β} {k : κ} {b : β} (stored : t.get k = some b) :
    ∃ front back, t.rows = front ++ (k, b) :: back ∧ (∀ r ∈ front, r.1 ≠ k) ∧
      ∀ r ∈ back, r.1 ≠ k := by
  obtain ⟨⟨key, value⟩, found, rfl⟩ := Option.map_eq_some_iff.mp stored
  obtain ⟨here, front, back, split, before⟩ := List.find?_eq_some_iff_append.mp found
  have key_eq : key = k := by simpa using here
  subst key_eq
  have distinct := t.nodup
  rw [split, List.map_append, List.map_cons, List.nodup_append, List.nodup_cons] at distinct
  refine ⟨front, back, split, fun r member => by simpa using before r member, ?_⟩
  intro r member same
  exact distinct.2.1.1 (List.mem_map.mpr ⟨r, member, same⟩)

/-- What a delete of some stored rows leaves, and what they sum to. -/
theorem sumWhere_deleteKeys (t : Table κ β) {chosen : List (κ × β)}
    (distinct : (chosen.map Prod.fst).Nodup) (stored : ∀ r ∈ chosen, r ∈ t.rows)
    {q : κ → β → Bool} (exactly : ∀ k b, q k b = true ↔ k ∈ chosen.map Prod.fst)
    (p : κ × β → Bool) (f : κ × β → M) :
    sumWhere p f (t.deleteWhere q).rows + sumWhere p f chosen = sumWhere p f t.rows := by
  have taken : (t.rows.filter fun r => q r.1 r.2).Perm chosen := by
    apply (List.perm_ext_iff_of_nodup (t.nodup.of_map.filter _) distinct.of_map).mpr
    intro r
    rw [List.mem_filter, exactly]
    constructor
    · rintro ⟨member, listed⟩
      obtain ⟨r', here, same⟩ := List.mem_map.mp listed
      have value : t.get r'.1 = some r'.2 := get_of_mem (stored r' here)
      rw [same, get_of_mem member, Option.some.injEq] at value
      rwa [Prod.ext same.symm value]
    · intro here
      exact ⟨stored r here, List.mem_map_of_mem here⟩
  rw [← sumWhere_delete p (fun r => q r.1 r.2) f t.rows, ← sumWhere_perm taken]
  simp only [sumWhere, List.filter_filter, deleteWhere, Bool.and_comm]

/-- An update of a key leaves the rows of other keys. -/
theorem updateRow_others {k : κ} {g : β → β} {rows : List (κ × β)} (others : ∀ r ∈ rows, r.1 ≠ k) :
    rows.map (updateRow (fun k' _ => k' = k) g) = rows := by
  conv_rhs => rw [← List.map_id rows]
  apply List.map_congr_left
  intro r member
  rw [updateRow, if_neg (by simpa using others r member), id]

/-- The row of a key after an upsert, and what the table counts before and after. -/
theorem sumWhere_upsert (t : Table κ β) (k : κ) (new : β) (g : β → β) (p : κ × β → Bool)
    (f : κ × β → M) :
    sumWhere p f (t.upsert k new g).rows + sumWhere p f ((t.get k).toList.map fun b => (k, b)) =
      sumWhere p f t.rows + sumWhere p f [(k, ((t.get k).map g).getD new)] := by
  rcases stored : t.get k with _ | b
  · have rows : (t.upsert k new g).rows = t.rows ++ [(k, new)] := by rw [upsert, dif_pos stored]
    rw [rows, sumWhere_append]
    simp
  · obtain ⟨front, back, split, before, after⟩ := split_of_get stored
    have rows : (t.upsert k new g).rows = front ++ (k, g b) :: back := by
      rw [upsert, dif_neg (by simp [stored])]
      show t.rows.map _ = _
      rw [split, List.map_append, List.map_cons, updateRow_others before, updateRow_others after,
        updateRow, if_pos (by simp)]
    rw [rows, split, sumWhere_append, sumWhere_append, sumWhere_cons, sumWhere_cons]
    simp only [Option.toList_some, List.map_cons, List.map_nil, Option.map_some, Option.getD_some,
      sumWhere_singleton]
    ac_rfl

end Table

end GhostPour
