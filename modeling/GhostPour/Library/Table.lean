/-
Module: GhostPour.Library.Table
Layer: Library
Purpose: A database table with a primary key: the rows in storage order, no two with one key. The operations
  are the SQL statements programs run on one table; no statement can change a key or repeat one. The rows of a
  table in the order of their keys, as `sorted` gives those of a dict. They do not depend on the order in
  which the table was filled. A table filled key by key, as a dict comprehension fills a dict: a later pair
  replaces the value of an earlier one. Pairs with distinct keys are the rows of the table.
Trusted boundary: none
Main exports: Table, Table.get, Table.first, Table.updateWhere, Table.update, Table.upsert, Table.inOrder,
  Table.mem_inOrder, Table.inOrder_pairwise, Table.inOrder_congr, Table.inOrder_map_snd, Table.ofList,
  Table.ofList_rows, Table.get_ofList, Table.isSome_get_ofList, Table.replaceAll, Table.get_replaceAll_of_mem,
  Table.get_replaceAll_of_not_mem
-/
import Mathlib

namespace GhostPour

/-- Rows with their primary keys, in storage order. -/
structure Table (κ α : Type) where
  rows : List (κ × α)
  nodup : (rows.map Prod.fst).Nodup

namespace Table

variable {κ α : Type}

/-- A table without rows. -/
def empty : Table κ α := ⟨[], List.nodup_nil⟩

/-- A table of one row. -/
def single (k : κ) (a : α) : Table κ α := ⟨[(k, a)], by simp⟩

variable [DecidableEq κ]

/-- `SELECT .. WHERE key = k`. -/
def get (t : Table κ α) (k : κ) : Option α := (t.rows.find? (·.1 = k)).map Prod.snd

/-- The first row of `SELECT .. WHERE p`. -/
def first (t : Table κ α) (p : κ → α → Bool) : Option (κ × α) := t.rows.find? fun r => p r.1 r.2

/-- Every row of `SELECT .. WHERE p`. -/
def select (t : Table κ α) (p : κ → α → Bool) : List (κ × α) := t.rows.filter fun r => p r.1 r.2

/-- The row a conditional update leaves. -/
def updateRow (p : κ → α → Bool) (f : α → α) (r : κ × α) : κ × α :=
  if p r.1 r.2 then (r.1, f r.2) else r

omit [DecidableEq κ] in
@[simp] theorem updateRow_fst (p : κ → α → Bool) (f : α → α) (r : κ × α) :
    (updateRow p f r).1 = r.1 := by
  unfold updateRow
  split <;> rfl

/-- `UPDATE .. WHERE p`. -/
def updateWhere (t : Table κ α) (p : κ → α → Bool) (f : α → α) : Table κ α where
  rows := t.rows.map (updateRow p f)
  nodup := by
    rw [List.map_map, show Prod.fst ∘ updateRow p f = Prod.fst from funext fun r => by simp]
    exact t.nodup

/-- `UPDATE .. WHERE key = k`. -/
def update (t : Table κ α) (k : κ) (f : α → α) : Table κ α := t.updateWhere (fun k' _ => k' = k) f

theorem get_eq_none_iff (t : Table κ α) (k : κ) : t.get k = none ↔ k ∉ t.rows.map Prod.fst := by
  simp only [get, Option.map_eq_none_iff, List.find?_eq_none, List.mem_map, not_exists, not_and,
    decide_eq_true_eq]

/-- `INSERT .. ON CONFLICT DO UPDATE`: insert a row, or change the one the key already has. -/
def upsert (t : Table κ α) (k : κ) (new : α) (f : α → α) : Table κ α :=
  if absent : t.get k = none then
    { rows := t.rows ++ [(k, new)]
      nodup := by
        rw [List.map_append, List.nodup_append]
        refine ⟨t.nodup, by simp, ?_⟩
        rintro a member b last rfl
        rw [List.map_singleton, List.mem_singleton] at last
        subst last
        exact (t.get_eq_none_iff _).mp absent member }
  else t.update k f

/-- `DELETE .. WHERE p`. -/
def deleteWhere (t : Table κ α) (p : κ → α → Bool) : Table κ α where
  rows := t.rows.filter fun r => !p r.1 r.2
  nodup := t.nodup.sublist ((List.filter_sublist (p := _)).map Prod.fst)

/-- `DELETE .. WHERE key = k`. -/
def delete (t : Table κ α) (k : κ) : Table κ α := t.deleteWhere fun k' _ => k' = k

/-! ### What a statement changes -/

/-- A conditional update changes the rows that meet the condition and no other. -/
theorem get_updateWhere (t : Table κ α) (p : κ → α → Bool) (f : α → α) (k : κ) :
    (t.updateWhere p f).get k = (t.get k).map fun a => if p k a then f a else a := by
  obtain ⟨rows, nodup⟩ := t
  simp only [get, updateWhere]
  clear nodup
  induction rows with
  | nil => rfl
  | cons r rows ih =>
      by_cases here : r.1 = k
      · subst here
        simp only [List.map_cons, List.find?_cons, updateRow_fst, decide_true, Option.map_some]
        unfold updateRow
        split <;> rfl
      · simpa [List.find?_cons, here] using ih

@[simp] theorem get_update_self (t : Table κ α) (k : κ) (f : α → α) :
    (t.update k f).get k = (t.get k).map f := by
  simp [update, get_updateWhere]

theorem get_update_of_ne (t : Table κ α) {k k' : κ} (f : α → α) (other : k' ≠ k) :
    (t.update k f).get k' = t.get k' := by
  simp [update, get_updateWhere, other]

theorem get_update (t : Table κ α) (k k' : κ) (f : α → α) :
    (t.update k f).get k' = if k' = k then (t.get k').map f else t.get k' := by
  split
  · next same => rw [same, get_update_self]
  · next other => exact get_update_of_ne t f other

theorem get_upsert_self (t : Table κ α) (k : κ) (new : α) (f : α → α) :
    (t.upsert k new f).get k = some (((t.get k).map f).getD new) := by
  unfold upsert
  split
  · next absent =>
    have none : t.rows.find? (fun r => decide (r.1 = k)) = Option.none := by
      simpa [get] using absent
    simp [get, List.find?_append, none]
  · next present =>
    obtain ⟨a, stored⟩ := Option.ne_none_iff_exists'.mp present
    simp [stored]

/-- `INSERT OR REPLACE` leaves the new row. -/
theorem get_replace_self (t : Table κ α) (k : κ) (a : α) :
    (t.upsert k a fun _ => a).get k = some a := by
  rw [get_upsert_self]
  cases t.get k <;> rfl

theorem get_upsert_of_ne (t : Table κ α) {k k' : κ} (new : α) (f : α → α) (other : k' ≠ k) :
    (t.upsert k new f).get k' = t.get k' := by
  unfold upsert
  split
  · simp [get, List.find?_append, other.symm]
  · exact get_update_of_ne t f other

/-- A row that is stored is the row of its key. -/
theorem get_of_mem {t : Table κ α} {k : κ} {a : α} (member : (k, a) ∈ t.rows) :
    t.get k = some a := by
  have distinct := t.nodup
  unfold get
  revert member distinct
  induction t.rows with
  | nil => simp
  | cons r rows ih =>
      intro member distinct
      rw [List.map_cons, List.nodup_cons] at distinct
      rcases List.mem_cons.mp member with here | later
      · simp [← here]
      · have notHere : r.1 ≠ k := by
          rintro rfl
          exact distinct.1 (List.mem_map.mpr ⟨_, later, rfl⟩)
        simpa [List.find?_cons, notHere] using ih later distinct.2

theorem mem_of_get {t : Table κ α} {k : κ} {a : α} (stored : t.get k = some a) :
    (k, a) ∈ t.rows := by
  obtain ⟨r, found, rfl⟩ := Option.map_eq_some_iff.mp stored
  have key : r.1 = k := by simpa using List.find?_some found
  rw [← key]
  exact List.mem_of_find?_eq_some found

/-- A delete takes the rows that meet the condition and no other. -/
theorem get_deleteWhere (t : Table κ α) (p : κ → α → Bool) (k : κ) :
    (t.deleteWhere p).get k = (t.get k).filter fun a => !p k a := by
  rcases after : (t.deleteWhere p).get k with _ | a
  · rcases before : t.get k with _ | a
    · rfl
    · rcases taken : p k a with _ | _
      · have kept : (k, a) ∈ (t.deleteWhere p).rows :=
          List.mem_filter.mpr ⟨mem_of_get before, by simp [taken]⟩
        rw [get_of_mem kept] at after
        cases after
      · rw [Option.filter_some, taken]
        rfl
  · obtain ⟨member, kept⟩ := List.mem_filter.mp (mem_of_get after)
    rw [get_of_mem member, Option.filter_some, if_pos kept]

theorem get_delete (t : Table κ α) (k k' : κ) :
    (t.delete k).get k' = if k' = k then none else t.get k' := by
  rw [delete, get_deleteWhere]
  split
  · next same => simp [same]
  · next other => cases t.get k' <;> simp [other]

/-- A row found by a condition is the row of its key, and meets the condition. -/
theorem first_some {t : Table κ α} {p : κ → α → Bool} {k : κ} {a : α}
    (found : t.first p = some (k, a)) : t.get k = some a ∧ p k a = true :=
  ⟨get_of_mem (List.mem_of_find?_eq_some found), by simpa using List.find?_some found⟩

omit [DecidableEq κ] in
/-- An update that does not touch what a condition reads does not change which row it finds. -/
theorem first_updateWhere (t : Table κ α) (q : κ → α → Bool) {p : κ → α → Bool} {f : α → α}
    (blind : ∀ k a, p k (f a) = p k a) :
    (t.updateWhere q f).first p = (t.first p).map (updateRow q f) := by
  have same : ((fun r : κ × α => p r.1 r.2) ∘ updateRow q f) = fun r => p r.1 r.2 := by
    funext r
    unfold updateRow
    simp only [Function.comp_apply]
    split <;> simp [blind]
  simp only [first, updateWhere, List.find?_map, same]

/-- A condition no row meets finds nothing. -/
theorem first_none_iff (t : Table κ α) (p : κ → α → Bool) :
    t.first p = none ↔ ∀ k a, t.get k = some a → p k a = false := by
  constructor
  · intro none k a stored
    obtain ⟨r, found, rfl⟩ := Option.map_eq_some_iff.mp stored
    have key : r.1 = k := by simpa using List.find?_some found
    have unmet := List.find?_eq_none.mp none r (List.mem_of_find?_eq_some found)
    simpa [key] using unmet
  · intro unmet
    by_contra found
    obtain ⟨⟨k, a⟩, some⟩ := Option.ne_none_iff_exists'.mp found
    have := first_some some
    simp [unmet k a this.1] at this

end Table

end GhostPour

namespace GhostPour.Table

variable {κ α : Type} [LinearOrder κ]

/-- The rows, by key. -/
def inOrder (t : Table κ α) : List (κ × α) := t.rows.mergeSort fun a b => a.1 ≤ b.1

theorem inOrder_perm (t : Table κ α) : t.inOrder.Perm t.rows := List.mergeSort_perm _ _

theorem mem_inOrder {t : Table κ α} {r : κ × α} : r ∈ t.inOrder ↔ t.get r.1 = some r.2 := by
  rw [inOrder, List.mem_mergeSort]
  exact ⟨get_of_mem, mem_of_get⟩

/-- The keys are strictly increasing. -/
theorem inOrder_pairwise (t : Table κ α) : t.inOrder.Pairwise fun a b => a.1 < b.1 := by
  have sorted := @List.pairwise_mergeSort _ (fun a b : κ × α => decide (a.1 ≤ b.1))
    (fun a b c first second => decide_eq_true
      ((of_decide_eq_true first).trans (of_decide_eq_true second)))
    (fun a b => by
      rw [Bool.or_eq_true, decide_eq_true_eq, decide_eq_true_eq]
      exact le_total a.1 b.1)
    t.rows
  have distinct : t.inOrder.Pairwise fun a b => a.1 ≠ b.1 :=
    List.pairwise_map.mp (((inOrder_perm t).map Prod.fst).nodup_iff.mpr t.nodup)
  exact sorted.imp₂ (fun a b le ne => (of_decide_eq_true le).lt_of_ne ne) distinct

/-- Lists with increasing keys are equal when their members are. -/
theorem eq_of_mem_iff {rows rows' : List (κ × α)} (sorted : rows.Pairwise fun a b => a.1 < b.1)
    (sorted' : rows'.Pairwise fun a b => a.1 < b.1) (same : ∀ r, r ∈ rows ↔ r ∈ rows') :
    rows = rows' := by
  have nodup : ∀ l : List (κ × α), l.Pairwise (fun a b => a.1 < b.1) → l.Nodup := fun l sorted =>
    sorted.imp fun lt equal => (equal ▸ lt).false
  exact List.Perm.eq_of_pairwise (fun a b _ _ lt gt => absurd gt lt.asymm) sorted sorted'
    ((List.perm_ext_iff_of_nodup (nodup _ sorted) (nodup _ sorted')).mpr same)

/-- Tables with the same values have the same rows in order. -/
theorem inOrder_congr {t u : Table κ α} (same : ∀ k, t.get k = u.get k) : t.inOrder = u.inOrder :=
  eq_of_mem_iff (inOrder_pairwise t) (inOrder_pairwise u) fun r => by
    rw [mem_inOrder, mem_inOrder, same]

/-- The values in order, looked up key by key over any increasing list that has all the keys. -/
theorem inOrder_map_snd {t : Table κ α} {keys : List κ} (increasing : keys.Pairwise (· < ·))
    (all_ : ∀ k, (t.get k).isSome → k ∈ keys) : t.inOrder.map Prod.snd = keys.filterMap t.get := by
  have sorted : (keys.filterMap fun k => (t.get k).map fun a => (k, a)).Pairwise
      fun a b => a.1 < b.1 := by
    refine increasing.filterMap _ fun k k' lt r stored r' stored' => ?_
    obtain ⟨a, _, rfl⟩ := Option.map_eq_some_iff.mp stored
    obtain ⟨a', _, rfl⟩ := Option.map_eq_some_iff.mp stored'
    exact lt
  have rows : t.inOrder = keys.filterMap fun k => (t.get k).map fun a => (k, a) := by
    refine eq_of_mem_iff (inOrder_pairwise t) sorted fun r => ?_
    rw [mem_inOrder, List.mem_filterMap]
    constructor
    · intro stored
      exact ⟨r.1, all_ r.1 (stored ▸ rfl), by rw [stored]; rfl⟩
    · rintro ⟨k, _, stored⟩
      obtain ⟨a, kept, rfl⟩ := Option.map_eq_some_iff.mp stored
      exact kept
  rw [rows, List.map_filterMap]
  refine List.filterMap_congr fun k _ => ?_
  cases t.get k <;> rfl

end GhostPour.Table

namespace GhostPour.Table

variable {κ α : Type} [DecidableEq κ]

/-- `{k: a for (k, a) in pairs}`. -/
def ofList (pairs : List (κ × α)) : Table κ α :=
  pairs.foldl (fun t r => t.upsert r.1 r.2 fun _ => r.2) empty

/-- A key that is new goes to the end. -/
theorem upsert_rows {t : Table κ α} {k : κ} (absent : t.get k = none) (new : α) (f : α → α) :
    (t.upsert k new f).rows = t.rows ++ [(k, new)] := by
  unfold upsert
  rw [dif_pos absent]

theorem foldl_upsert_rows (t : Table κ α) (pairs : List (κ × α))
    (distinct : ((t.rows ++ pairs).map Prod.fst).Nodup) :
    (pairs.foldl (fun t r => t.upsert r.1 r.2 fun _ => r.2) t).rows = t.rows ++ pairs := by
  induction pairs generalizing t with
  | nil => exact (List.append_nil _).symm
  | cons r pairs ih =>
      have absent : t.get r.1 = none := by
        rw [get_eq_none_iff]
        intro old
        rw [List.map_append, List.nodup_append] at distinct
        exact distinct.2.2 _ old _ List.mem_cons_self rfl
      have grown := upsert_rows absent r.2 fun _ => r.2
      rw [List.foldl_cons, ih]
      · rw [grown, List.append_assoc]
        rfl
      · rw [grown, List.append_assoc]
        exact distinct

/-- Pairs with distinct keys are the rows. -/
theorem ofList_rows {pairs : List (κ × α)} (distinct : (pairs.map Prod.fst).Nodup) :
    (ofList pairs).rows = pairs :=
  foldl_upsert_rows empty pairs distinct

theorem get_ofList {pairs : List (κ × α)} (distinct : (pairs.map Prod.fst).Nodup) {k : κ} {a : α} :
    (ofList pairs).get k = some a ↔ (k, a) ∈ pairs := by
  constructor
  · intro stored
    exact ofList_rows distinct ▸ mem_of_get stored
  · intro member
    exact get_of_mem ((ofList_rows distinct).symm ▸ member)

theorem isSome_get_upsert (t : Table κ α) (k k' : κ) (new : α) (f : α → α) :
    ((t.upsert k new f).get k').isSome = (k' = k ∨ (t.get k').isSome) := by
  by_cases same : k' = k
  · subst same
    simp [get_upsert_self]
  · rw [get_upsert_of_ne t new f same]
    simp [same]

/-- The keys of the pairs, repeated or not, are those with a value. -/
theorem isSome_get_ofList {pairs : List (κ × α)} {k : κ} :
    ((ofList pairs).get k).isSome ↔ k ∈ pairs.map Prod.fst := by
  have filled : ∀ (pairs : List (κ × α)) (t : Table κ α),
      ((pairs.foldl (fun t r => t.upsert r.1 r.2 fun _ => r.2) t).get k).isSome ↔
        (t.get k).isSome ∨ k ∈ pairs.map Prod.fst := by
    intro pairs
    induction pairs with
    | nil => simp
    | cons r pairs ih =>
        intro t
        rw [List.foldl_cons, ih, isSome_get_upsert, List.map_cons, List.mem_cons]
        tauto
  rw [ofList, filled]
  simp [get, empty]

/-! ### Pair after pair into a table that has rows -/

/-- `INSERT OR REPLACE` of each pair in turn. -/
def replaceAll (t : Table κ α) (pairs : List (κ × α)) : Table κ α :=
  pairs.foldl (fun t r => t.upsert r.1 r.2 fun _ => r.2) t

theorem replaceAll_cons (t : Table κ α) (r : κ × α) (pairs : List (κ × α)) :
    t.replaceAll (r :: pairs) = (t.upsert r.1 r.2 fun _ => r.2).replaceAll pairs := rfl

theorem get_replaceAll_of_not_mem {t : Table κ α} {pairs : List (κ × α)} {k : κ}
    (other : k ∉ pairs.map Prod.fst) : (t.replaceAll pairs).get k = t.get k := by
  induction pairs generalizing t with
  | nil => rfl
  | cons r pairs ih =>
      rw [List.map_cons, List.mem_cons, not_or] at other
      rw [replaceAll_cons, ih other.2, get_upsert_of_ne t _ _ other.1]

/-- A key that is given one value, however often, has that value. -/
theorem get_replaceAll_of_mem {t : Table κ α} {pairs : List (κ × α)} {k : κ} {a : α}
    (given : k ∈ pairs.map Prod.fst) (one : ∀ r ∈ pairs, r.1 = k → r.2 = a) :
    (t.replaceAll pairs).get k = some a := by
  induction pairs generalizing t with
  | nil => cases given
  | cons r pairs ih =>
      rw [replaceAll_cons]
      by_cases again : k ∈ pairs.map Prod.fst
      · exact ih again fun r later => one r (List.mem_cons_of_mem _ later)
      · have here : k = r.1 := (List.mem_cons.mp given).resolve_right again
        rw [get_replaceAll_of_not_mem again, here, get_replace_self, one r List.mem_cons_self here.symm]

end GhostPour.Table
