/-
Module: GhostPour.Documents.Proofs.GanttRows
Layer: Proofs
Purpose: The rows of the Gantt View. Drawing goes through the slots of the row pre-pass one by one,
  so a build succeeds exactly when every slot's row is the one its id was given, which distinct ids
  make true and a repeated id makes false. Then the slots are the items, each once.
Trusted boundary: none
Main exports: slotCells, drawnSheet, Placed, buildGanttWb_eq, slots_perm, placed_iff, OneRowEach,
  itemsOnOneRow_iff
-/
import GhostPour.Documents.GanttSheet

namespace GhostPour.Documents

/-! ### Drawing slot by slot -/

section Drawing

variable (tasks : List Dated) (first : Nat)

/-- The formulas of the item in a slot: rollups for a phase, dependencies for the others. -/
def slotFormulas (s : Dated × Nat) : Option (Formula Cell × Formula Cell) :=
  if s.1.kind = .phase then phaseFormulas tasks s.2 (children tasks s.1.id)
  else depFormulas tasks first s.1

/-- The Start and End cells of a slot. -/
def slotCells (s : Dated × Nat) : List (Cell × Formula Cell) :=
  dateCells s.2 s.1.start s.1.finish (slotFormulas tasks first s)

/-- The Predecessors cell of a slot. -/
def slotCodes (s : Dated × Nat) : List (Nat × List (Nat × DepCode)) :=
  if s.1.kind = .phase ∨ (predecessorCodes tasks first s.1).isEmpty then []
  else [(s.2, predecessorCodes tasks first s.1)]

/-- A drawing with slots added, whatever their kind. -/
def Drawing.add (s : Drawing) (drawn : List (Dated × Nat)) : Drawing where
  row := s.row + drawn.length
  sheet := {
    rows := s.sheet.rows ++ drawn.map Prod.swap
    predecessors := s.sheet.predecessors ++ drawn.flatMap (slotCodes tasks first)
    cells := s.sheet.cells ++ drawn.flatMap (slotCells tasks first) }

/-- Every item is drawn on the row its id was given. -/
def Placed (items : List Dated) (row : Nat) : Prop :=
  ∀ s ∈ items.zipIdx row, (rowOf tasks first).get s.1.id = some s.2

instance (items : List Dated) (row : Nat) : Decidable (Placed tasks first items row) :=
  inferInstanceAs (Decidable (∀ s ∈ items.zipIdx row, _))

/-- One slot, whatever its kind. -/
def renderSlot (s : Drawing) (t : Dated) : Except BuildError Drawing :=
  if (rowOf tasks first).get t.id = some s.row then .ok (s.add tasks first [(t, s.row)])
  else .error .rowMismatch

variable {tasks first}

theorem renderTask_eq (s : Drawing) {t : Dated} (real : t.kind ≠ .phase) :
    renderTask tasks first s t = renderSlot tasks first s t := by
  unfold renderTask renderSlot
  by_cases here : (rowOf tasks first).get t.id = some s.row
  · rw [if_neg (not_not.mpr here), if_pos here]
    simp [Drawing.add, slotCodes, slotCells, slotFormulas, real]
  · rw [if_pos here, if_neg here]

theorem foldlM_renderTask {items : List Dated} (real : ∀ t ∈ items, t.kind ≠ .phase) (s : Drawing) :
    items.foldlM (renderTask tasks first) s = items.foldlM (renderSlot tasks first) s := by
  induction items generalizing s with
  | nil => rfl
  | cons t items ih =>
      rw [List.foldlM_cons, List.foldlM_cons, renderTask_eq s (real t List.mem_cons_self)]
      exact congrArg (renderSlot tasks first s t >>= ·)
        (funext fun after => ih (fun u later => real u (List.mem_cons_of_mem _ later)) after)

/-- A phase is drawn as its slot and those of its children. -/
theorem renderPhase_eq (s : Drawing) {p : Dated} (phase : p.kind = .phase) :
    renderPhase tasks first s p =
      (p :: children tasks p.id).foldlM (renderSlot tasks first) s := by
  have real : ∀ t ∈ children tasks p.id, t.kind ≠ .phase := fun t kid =>
    (of_decide_eq_true (List.mem_filter.mp kid).2).1
  rw [List.foldlM_cons]
  unfold renderPhase renderSlot
  by_cases here : (rowOf tasks first).get p.id = some s.row
  · rw [if_neg (not_not.mpr here), if_pos here]
    simp only [foldlM_renderTask real]
    change _ = (children tasks p.id).foldlM (renderSlot tasks first) (s.add tasks first [(p, s.row)])
    congr 1
    simp [Drawing.add, slotCodes, slotCells, slotFormulas, phase]
  · rw [if_pos here, if_neg here]
    rfl

theorem foldlM_renderPhase {among : List Dated} (allPhases : ∀ p ∈ among, p.kind = .phase)
    (s : Drawing) :
    among.foldlM (renderPhase tasks first) s =
      (among.flatMap fun p => p :: children tasks p.id).foldlM (renderSlot tasks first) s := by
  induction among generalizing s with
  | nil => rfl
  | cons p among ih =>
      rw [List.foldlM_cons, List.flatMap_cons, List.foldlM_append,
        renderPhase_eq s (allPhases p List.mem_cons_self)]
      exact congrArg ((p :: children tasks p.id).foldlM (renderSlot tasks first) s >>= ·)
        (funext fun after => ih (fun q later => allPhases q (List.mem_cons_of_mem _ later)) after)

theorem Drawing.add_add (s : Drawing) (drawn more : List (Dated × Nat)) :
    (s.add tasks first drawn).add tasks first more = s.add tasks first (drawn ++ more) := by
  simp [Drawing.add, Nat.add_assoc]

/-- Slots are drawn down the sheet, or the first one that is not on its row stops the build. -/
theorem foldlM_renderSlot (items : List Dated) (s : Drawing) :
    items.foldlM (renderSlot tasks first) s =
      if Placed tasks first items s.row then .ok (s.add tasks first (items.zipIdx s.row))
      else .error .rowMismatch := by
  induction items generalizing s with
  | nil =>
      rw [if_pos (by simp [Placed])]
      simp [Drawing.add, pure, Except.pure]
  | cons t items ih =>
      have split : Placed tasks first (t :: items) s.row ↔
          (rowOf tasks first).get t.id = some s.row ∧ Placed tasks first items (s.row + 1) := by
        simp [Placed]
      rw [List.foldlM_cons]
      unfold renderSlot
      by_cases here : (rowOf tasks first).get t.id = some s.row
      · rw [if_pos here]
        change items.foldlM (renderSlot tasks first) (s.add tasks first [(t, s.row)]) = _
        rw [ih, Drawing.add_add]
        change (if Placed tasks first items (s.row + 1) then _ else _) = _
        by_cases rest : Placed tasks first items (s.row + 1)
        · rw [if_pos rest, if_pos (split.mpr ⟨here, rest⟩)]
          rfl
        · rw [if_neg rest, if_neg fun all => rest (split.mp all).2]
      · rw [if_neg here, if_neg fun all => here (split.mp all).1]
        rfl

end Drawing

/-! ### The build -/

/-- What a build that succeeds has drawn. -/
def drawnSheet (detailCols : Bool) (tasks : List Dated) : Worksheet :=
  let first := firstBarRow detailCols
  let drawn := (slots tasks).zipIdx (first + 1)
  { rows := drawn.map Prod.swap
    predecessors := drawn.flatMap (slotCodes tasks first)
    cells :=
      dateCells first (earliestStart tasks) (latestEnd tasks) (projectFormulas tasks first) ++
        (drawn.flatMap (slotCells tasks first) ++ if detailCols then floatCells tasks first else []) }

theorem buildGanttWb_eq (detailCols : Bool) {tasks : List Dated} (some_ : tasks ≠ []) :
    buildGanttWb detailCols tasks =
      if Placed tasks (firstBarRow detailCols) (slots tasks) (firstBarRow detailCols + 1) then
        .ok (drawnSheet detailCols tasks)
      else .error .rowMismatch := by
  have allPhases : ∀ p ∈ phases tasks, p.kind = .phase := fun p member =>
    of_decide_eq_true (List.mem_filter.mp member).2
  have real : ∀ t ∈ orphans tasks, t.kind ≠ .phase := fun t member =>
    (of_decide_eq_true (List.mem_filter.mp member).2).1
  have through : ∀ s : Drawing, ((phases tasks).foldlM (renderPhase tasks (firstBarRow detailCols)) s >>=
      fun drawn => (orphans tasks).foldlM (renderTask tasks (firstBarRow detailCols)) drawn) =
      (slots tasks).foldlM (renderSlot tasks (firstBarRow detailCols)) s := by
    intro s
    rw [foldlM_renderPhase allPhases, slots, List.foldlM_append]
    exact congrArg _ (funext fun drawn => foldlM_renderTask real drawn)
  unfold buildGanttWb
  rw [if_neg (by simpa using some_)]
  simp only [← bind_assoc, through, foldlM_renderSlot]
  split
  · simp [drawnSheet, Drawing.add, bind, Except.bind, pure, Except.pure]
  · rfl

/-! ### The slots are the items -/

/-- Two conditions that exclude each other split what meets one of them. -/
theorem filter_or_perm {α : Type} (p q : α → Bool) (items : List α)
    (apart : ∀ a ∈ items, p a = true → q a = false) :
    (items.filter p ++ items.filter q).Perm (items.filter fun a => p a || q a) := by
  have both := List.filter_append_perm p (items.filter fun a => p a || q a)
  rw [List.filter_filter, List.filter_filter] at both
  refine Eq.subst (motive := fun l => List.Perm l _) ?_ both
  congr 1
  · exact List.filter_congr fun a _ => by cases p a <;> simp
  · refine List.filter_congr fun a member => ?_
    cases yes : p a with
    | false => simp
    | true => simp [apart a member yes]

variable {tasks : List Dated}

/-- The children of phases with distinct ids are the items that name one of them. -/
theorem flatMap_children_perm {among : List Dated} (distinct : (among.map (·.id)).Nodup) :
    (among.flatMap fun p => children tasks p.id).Perm
      (tasks.filter fun t => t.kind ≠ .phase ∧ among.any (fun p => t.parentId = some p.id)) := by
  induction among with
  | nil => simp
  | cons p among ih =>
      obtain ⟨fresh, distinct⟩ := List.nodup_cons.mp distinct
      rw [List.flatMap_cons]
      refine ((ih distinct).append_left _).trans ?_
      refine (filter_or_perm _ _ tasks ?_).trans (List.Perm.of_eq (List.filter_congr fun t _ => ?_))
      · intro t _ mine
        obtain ⟨_, mine⟩ := of_decide_eq_true mine
        refine decide_eq_false fun other => ?_
        obtain ⟨q, member, same⟩ := List.any_eq_true.mp other.2
        have same := of_decide_eq_true same
        rw [mine, Option.some.injEq] at same
        exact fresh (List.mem_map.mpr ⟨q, member, same.symm⟩)
      · rw [Bool.eq_iff_iff]
        simp only [Bool.or_eq_true, decide_eq_true_eq, List.any_cons]
        tauto

/-- The phases, their children and the rest fill the slots. -/
theorem slots_parts :
    (slots tasks).Perm
      (phases tasks ++ ((phases tasks).flatMap (fun p => children tasks p.id) ++ orphans tasks)) := by
  have split := List.map_append_flatMap_perm (phases tasks) id fun p => children tasks p.id
  rw [List.map_id] at split
  exact (split.symm.append_right _).trans (List.Perm.of_eq (List.append_assoc _ _ _))

/-- With distinct ids of the phases, the slots are the items. -/
theorem slots_perm (distinct : ((phases tasks).map (·.id)).Nodup) : (slots tasks).Perm tasks := by
  have kids := @flatMap_children_perm tasks _ distinct
  have rest : ((phases tasks).flatMap (fun p => children tasks p.id) ++ orphans tasks).Perm
      (tasks.filter fun t => !decide (t.kind = .phase)) := by
    refine (kids.append_right _).trans ((filter_or_perm _ _ tasks ?_).trans
      (List.Perm.of_eq (List.filter_congr fun t _ => ?_)))
    · intro t _ grouped
      exact decide_eq_false fun alone => alone.2 (of_decide_eq_true grouped).2
    · rw [Bool.eq_iff_iff]
      simp only [Bool.or_eq_true, decide_eq_true_eq, Bool.not_eq_true', decide_eq_false_iff_not]
      rw [hasPhase, ← and_or_left]
      exact and_iff_left (Classical.em _)
  exact slots_parts.trans ((rest.append_left _).trans (List.filter_append_perm _ tasks))

/-- The ids of the slots are distinct exactly when those of the items are. -/
theorem slots_ids_nodup : ((slots tasks).map (·.id)).Nodup ↔ (tasks.map (·.id)).Nodup := by
  constructor
  · intro distinct
    have parts := ((@slots_parts tasks).map (·.id)).nodup_iff.mp distinct
    rw [List.map_append] at parts
    exact ((slots_perm (List.nodup_append.mp parts).1).map _).nodup_iff.mp distinct
  · intro distinct
    have phases' : ((phases tasks).map (·.id)).Nodup := distinct.sublist (List.filter_sublist.map _)
    exact ((slots_perm phases').map _).nodup_iff.mpr distinct

/-- With distinct ids, the row of an id is that of the slot of its item. -/
theorem get_rowOf (distinct : (tasks.map (·.id)).Nodup) {first : Nat} {id : Int} {r : Nat} :
    (rowOf tasks first).get id = some r ↔
      ∃ t, (t, r) ∈ (slots tasks).zipIdx (first + 1) ∧ t.id = id := by
  have keys : (((slots tasks).zipIdx (first + 1)).map fun s => (s.1.id, s.2)).map Prod.fst =
      (slots tasks).map (·.id) := by
    conv_rhs => rw [← List.zipIdx_map_fst (first + 1) (slots tasks), List.map_map]
    rw [List.map_map]
    rfl
  rw [rowOf, Table.get_ofList (keys ▸ slots_ids_nodup.mpr distinct)]
  simp only [List.mem_map, Prod.mk.injEq]
  constructor
  · rintro ⟨⟨t, r⟩, member, same, rfl⟩
    exact ⟨t, member, same⟩
  · rintro ⟨t, member, same⟩
    exact ⟨(t, r), member, same, rfl⟩

theorem mem_slots (distinct : (tasks.map (·.id)).Nodup) {t : Dated} : t ∈ slots tasks ↔ t ∈ tasks :=
  (slots_perm (distinct.sublist (List.filter_sublist.map _))).mem_iff

/-- With distinct ids, every item has a row. -/
theorem exists_row (distinct : (tasks.map (·.id)).Nodup) (first : Nat) {t : Dated} (member : t ∈ tasks) :
    ∃ r, (t, r) ∈ (slots tasks).zipIdx (first + 1) ∧ (rowOf tasks first).get t.id = some r := by
  rw [← mem_slots distinct, ← List.zipIdx_map_fst (first + 1) (slots tasks)] at member
  obtain ⟨⟨t, r⟩, slot, rfl⟩ := List.mem_map.mp member
  exact ⟨r, slot, (get_rowOf distinct).mpr ⟨t, slot, rfl⟩⟩

/-- Every slot is on its row exactly when no two items share an id. -/
theorem placed_iff (first : Nat) :
    Placed tasks first (slots tasks) (first + 1) ↔ (tasks.map (·.id)).Nodup := by
  constructor
  · intro placed
    rw [← slots_ids_nodup]
    have rows : (slots tasks).map (fun t => (rowOf tasks first).get t.id) =
        (List.range' (first + 1) (slots tasks).length).map some := by
      calc (slots tasks).map (fun t => (rowOf tasks first).get t.id)
          = ((slots tasks).zipIdx (first + 1)).map fun s => (rowOf tasks first).get s.1.id := by
            conv_lhs => rw [← List.zipIdx_map_fst (first + 1) (slots tasks), List.map_map]
            rfl
        _ = ((slots tasks).zipIdx (first + 1)).map fun s => some s.2 := List.map_congr_left placed
        _ = _ := by
            rw [← List.zipIdx_map_snd (first + 1) (slots tasks), List.map_map]
            rfl
    refine List.Nodup.of_map (rowOf tasks first).get ?_
    rw [List.map_map]
    change ((slots tasks).map fun t => (rowOf tasks first).get t.id).Nodup
    rw [rows]
    exact List.Nodup.map (Option.some_injective _) List.nodup_range'
  · intro distinct s member
    exact (get_rowOf distinct).mpr ⟨s.1, member, rfl⟩

/-! ### One row each -/

/-- Every item is drawn once, on the row its id was given, no two share a row, and a Predecessors
    cell cites, dependency by dependency, the row of the item depended on. -/
structure OneRowEach (first : Nat) (tasks : List Dated) (ws : Worksheet) : Prop where
  drawn : (ws.rows.map Prod.snd).Perm tasks
  apart : (ws.rows.map Prod.fst).Nodup
  assigned : ∀ r ∈ ws.rows, (rowOf tasks first).get r.2.id = some r.1
  cited : ∀ c ∈ ws.predecessors, ∃ t, (c.1, t) ∈ ws.rows ∧
    List.Forall₂ (fun dep code => ∃ u, (code.1, u) ∈ ws.rows ∧ u.id = dep)
      (t.dependsOn.filter fun dep => tasks.any (·.id = dep)) c.2

/-- The items have one row each, and no assertion stops the build. -/
def ItemsOnOneRow (detailCols : Bool) (plan : List Item) : Prop :=
  match buildGanttWb detailCols (scheduled plan) with
  | .ok ws => OneRowEach (firstBarRow detailCols) (scheduled plan) ws
  | .error e => e = .noTasks ∧ scheduled plan = []

/-- The row of an item, as drawn. -/
theorem mem_drawnSheet_rows {detailCols : Bool} {tasks : List Dated} {r : Nat} {t : Dated} :
    (r, t) ∈ (drawnSheet detailCols tasks).rows ↔
      (t, r) ∈ (slots tasks).zipIdx (firstBarRow detailCols + 1) := by
  simp [drawnSheet]

theorem get_byId {tasks : List Dated} (distinct : (tasks.map (·.id)).Nodup) {id : Int} {t : Dated} :
    (byId tasks).get id = some t ↔ t ∈ tasks ∧ t.id = id := by
  have keys : ((tasks.map fun t => (t.id, t)).map Prod.fst).Nodup := by
    rw [List.map_map]
    exact distinct
  rw [byId, Table.get_ofList keys]
  simp only [List.mem_map, Prod.mk.injEq]
  constructor
  · rintro ⟨u, member, same, rfl⟩
    exact ⟨member, same⟩
  · rintro ⟨member, same⟩
    exact ⟨t, member, same, rfl⟩

/-- What a partial map makes of the elements that meet a condition, one by one. -/
theorem forall₂_filter_filterMap {α β : Type} {R : α → β → Prop} {p : α → Bool} {f : α → Option β}
    {items : List α} (yes : ∀ a ∈ items, p a = true → ∃ b, f a = some b ∧ R a b)
    (no : ∀ a ∈ items, p a = false → f a = none) :
    List.Forall₂ R (items.filter p) (items.filterMap f) := by
  induction items with
  | nil => exact .nil
  | cons a items ih =>
      have rest := ih (fun b later => yes b (List.mem_cons_of_mem _ later))
        fun b later => no b (List.mem_cons_of_mem _ later)
      cases met : p a with
      | false =>
          rw [List.filter_cons_of_neg (by simp [met]),
            List.filterMap_cons_none (no a List.mem_cons_self met)]
          exact rest
      | true =>
          obtain ⟨b, made, related⟩ := yes a List.mem_cons_self met
          rw [List.filter_cons_of_pos met, List.filterMap_cons_some made]
          exact .cons related rest

theorem drawnSheet_oneRowEach (detailCols : Bool) {tasks : List Dated}
    (distinct : (tasks.map (·.id)).Nodup) :
    OneRowEach (firstBarRow detailCols) tasks (drawnSheet detailCols tasks) := by
  have phases' : ((phases tasks).map (·.id)).Nodup := distinct.sublist (List.filter_sublist.map _)
  have placed := (placed_iff (firstBarRow detailCols)).mpr distinct
  constructor
  · have drawn : (drawnSheet detailCols tasks).rows.map Prod.snd = slots tasks := by
      simp [drawnSheet, List.map_map, Function.comp_def]
    exact drawn ▸ slots_perm phases'
  · have rows : (drawnSheet detailCols tasks).rows.map Prod.fst =
        List.range' (firstBarRow detailCols + 1) (slots tasks).length := by
      rw [← List.zipIdx_map_snd (firstBarRow detailCols + 1) (slots tasks)]
      simp [drawnSheet, List.map_map, Function.comp_def]
    exact rows ▸ List.nodup_range'
  · rintro ⟨r, t⟩ member
    exact placed (t, r) (mem_drawnSheet_rows.mp member)
  · rintro ⟨r, codes⟩ member
    obtain ⟨⟨t, row⟩, slot, coded⟩ := List.mem_flatMap.mp member
    unfold slotCodes at coded
    split at coded
    · exact absurd coded List.not_mem_nil
    · cases List.mem_singleton.mp coded
      refine ⟨t, mem_drawnSheet_rows.mpr slot, forall₂_filter_filterMap ?_ ?_⟩
      · intro dep _ known
        obtain ⟨u, member, same⟩ := List.any_eq_true.mp known
        have same := of_decide_eq_true same
        obtain ⟨row, drawn, here⟩ := exists_row distinct (firstBarRow detailCols) member
        rw [same] at here
        refine ⟨(row, depCode u t), ?_, u, mem_drawnSheet_rows.mpr drawn, same⟩
        rw [(get_byId distinct).mpr ⟨member, same⟩, here]
        rfl
      · intro dep _ unknown
        have absent : (byId tasks).get dep = none := by
          by_contra some_
          obtain ⟨u, found⟩ := Option.ne_none_iff_exists'.mp some_
          obtain ⟨member, same⟩ := (get_byId distinct).mp found
          exact List.any_eq_false.mp unknown u member (decide_eq_true same)
        rw [absent]
        rfl

/-- The items have one row each exactly when the dated items of the extraction have distinct ids. -/
theorem itemsOnOneRow_iff (detailCols : Bool) (plan : List Item) :
    ItemsOnOneRow detailCols plan ↔ ((plan.filter Item.hasDates).map (·.id)).Nodup := by
  rw [← scheduled_ids, ItemsOnOneRow]
  by_cases none_ : scheduled plan = []
  · rw [none_]
    exact iff_of_true ⟨rfl, rfl⟩ List.nodup_nil
  · rw [buildGanttWb_eq detailCols none_]
    by_cases placed : Placed (scheduled plan) (firstBarRow detailCols) (slots (scheduled plan))
        (firstBarRow detailCols + 1)
    · rw [if_pos placed]
      exact iff_of_true (drawnSheet_oneRowEach detailCols ((placed_iff _).mp placed))
        ((placed_iff _).mp placed)
    · rw [if_neg placed]
      exact iff_of_false (fun stops => none_ stops.2) fun distinct => placed ((placed_iff _).mpr distinct)

/-- An item of a small plan: its id, type, phase, days and dependencies. -/
def Item.sketch (id : Int) (kind : Kind) (parent : Option Int) (s e : Int) (deps : List Int) : Item where
  id := id
  name := []
  kind := kind
  parentId := parent
  status := .inProgress
  rawStart := .day s
  rawEnd := .day e
  dependsOn := deps
  percentComplete := none
  commitments := []

/-- Two tasks of one phase with one id. -/
theorem repeated_id_stops_the_build :
    ¬ItemsOnOneRow true [.sketch 1 .phase none 0 11 [], .sketch 2 .task (some 1) 0 4 [],
      .sketch 2 .task (some 1) 7 11 []] := by
  have stops : buildGanttWb true (scheduled [.sketch 1 .phase none 0 11 [],
      .sketch 2 .task (some 1) 0 4 [], .sketch 2 .task (some 1) 7 11 []]) =
      .error .rowMismatch := by
    decide +kernel
  rw [ItemsOnOneRow, stops]
  rintro ⟨mismatch, _⟩
  cases mismatch

end GhostPour.Documents
