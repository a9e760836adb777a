/-
Module: GhostPour.Documents.Proofs.GanttCells
Layer: Proofs
Purpose: What stands in each cell of a Gantt View whose items have distinct ids: dates or the
  dependency formulas in a task's row, rollups over exactly the children in a phase's row, and the
  backward pass in the helper columns. Rows are functions of ids, so the formulas are read as
  formulas over items.
Trusted boundary: none
Main exports: rowAt, knownDeps, preds, sheet_task_start, sheet_task_finish, sheet_phase_start, sheet_phase_finish,
  sheet_project_finish, sheet_late_start, sheet_float, sheet_cases
-/
import GhostPour.Documents.Proofs.GanttRows
import GhostPour.Library.Fallible

namespace GhostPour.Documents

/-- The row of an id. -/
def rowAt (tasks : List Dated) (first : Nat) (id : Int) : Nat := ((rowOf tasks first).get id).getD 0

variable {tasks : List Dated}

/-! ### Rows -/

section Rows

variable (distinct : (tasks.map (·.id)).Nodup) (first : Nat)

include distinct

theorem get_rowOf_mem {t : Dated} (member : t ∈ tasks) :
    (rowOf tasks first).get t.id = some (rowAt tasks first t.id) := by
  obtain ⟨r, _, here⟩ := exists_row distinct first member
  rw [rowAt, here, Option.getD_some]

/-- The slot of an item. -/
theorem slot_of_mem {t : Dated} (member : t ∈ tasks) :
    (t, rowAt tasks first t.id) ∈ (slots tasks).zipIdx (first + 1) := by
  obtain ⟨r, slot, here⟩ := exists_row distinct first member
  rwa [rowAt, here, Option.getD_some]

theorem rowAt_of_slot {t : Dated} {r : Nat} (slot : (t, r) ∈ (slots tasks).zipIdx (first + 1)) :
    rowAt tasks first t.id = r := by
  rw [rowAt, (get_rowOf distinct).mpr ⟨t, slot, rfl⟩, Option.getD_some]

theorem mem_of_slot {t : Dated} {r : Nat} (slot : (t, r) ∈ (slots tasks).zipIdx (first + 1)) :
    t ∈ tasks :=
  (mem_slots distinct).mp (List.fst_mem_of_mem_zipIdx slot)

/-- Two items have two rows. -/
theorem rowAt_inj {t u : Dated} (member : t ∈ tasks) (member' : u ∈ tasks)
    (same : rowAt tasks first t.id = rowAt tasks first u.id) : t = u := by
  have slot := slot_of_mem distinct first member
  have slot' := slot_of_mem distinct first member'
  rw [List.mk_mem_zipIdx_iff_le_and_getElem?_sub] at slot slot'
  rw [same] at slot
  exact Option.some.inj (slot.2.symm.trans slot'.2)

/-- The children of a phase are on the rows right under it. -/
theorem rows_children {p : Dated} (member : p ∈ tasks) (phase : p.kind = .phase) :
    (children tasks p.id).map (fun k => rowAt tasks first k.id) =
      List.range' (rowAt tasks first p.id + 1) (children tasks p.id).length := by
  have among : p ∈ phases tasks := List.mem_filter.mpr ⟨member, decide_eq_true phase⟩
  obtain ⟨before, after, split⟩ := List.append_of_mem among
  let above := before.flatMap fun p => p :: children tasks p.id
  let below := (after.flatMap fun p => p :: children tasks p.id) ++ orphans tasks
  have cut : slots tasks = above ++ (p :: (children tasks p.id ++ below)) := by
    rw [slots, split]
    simp [above, below]
  have here : rowAt tasks first p.id = first + 1 + above.length := by
    refine rowAt_of_slot distinct first ?_
    rw [cut, List.zipIdx_append, List.zipIdx_cons]
    exact List.mem_append_right _ List.mem_cons_self
  have kids : ∀ s ∈ (children tasks p.id).zipIdx (rowAt tasks first p.id + 1),
      rowAt tasks first s.1.id = s.2 := by
    rintro ⟨k, r⟩ slot
    refine rowAt_of_slot distinct first ?_
    rw [cut, List.zipIdx_append, List.zipIdx_cons, List.zipIdx_append]
    rw [here] at slot
    exact List.mem_append_right _ (List.mem_cons_of_mem _ (List.mem_append_left _ slot))
  calc (children tasks p.id).map (fun k => rowAt tasks first k.id)
      = ((children tasks p.id).zipIdx (rowAt tasks first p.id + 1)).map
          fun s => rowAt tasks first s.1.id := by
        conv_lhs => rw [← List.zipIdx_map_fst (rowAt tasks first p.id + 1) (children tasks p.id),
          List.map_map]
        rfl
    _ = ((children tasks p.id).zipIdx (rowAt tasks first p.id + 1)).map Prod.snd :=
        List.map_congr_left kids
    _ = _ := List.zipIdx_map_snd _ _

end Rows

/-! ### Dependencies -/

/-- The dependencies of an item that name an item of the plan. -/
def knownDeps (tasks : List Dated) (t : Dated) : List Int :=
  t.dependsOn.filter fun d => tasks.any (·.id = d)

/-- The items an item depends on, in its order. -/
def preds (tasks : List Dated) (t : Dated) : List Dated := (depsOf tasks t.id).filterMap (byId tasks).get

section Deps

variable (distinct : (tasks.map (·.id)).Nodup)

include distinct

theorem byId_isSome (id : Int) : ((byId tasks).get id).isSome = tasks.any (·.id = id) := by
  rw [Bool.eq_iff_iff, Option.isSome_iff_exists, List.any_eq_true]
  simp only [get_byId distinct, decide_eq_true_eq]

theorem adj_rows : (adj tasks).rows = tasks.map fun t => (t.id, knownDeps tasks t) := by
  have keys : ((tasks.map fun t => (t.id, t.dependsOn.filter fun d =>
      ((byId tasks).get d).isSome)).map Prod.fst).Nodup := by
    rw [List.map_map]
    exact distinct
  rw [adj, Table.ofList_rows keys]
  simp only [byId_isSome distinct]
  rfl

theorem adj_keys : (adj tasks).rows.map Prod.fst = tasks.map (·.id) := by
  rw [adj_rows distinct, List.map_map]
  rfl

theorem depsOf_eq {t : Dated} (member : t ∈ tasks) : depsOf tasks t.id = knownDeps tasks t := by
  have row : (t.id, knownDeps tasks t) ∈ (adj tasks).rows := by
    rw [adj_rows distinct]
    exact List.mem_map.mpr ⟨t, member, rfl⟩
  rw [depsOf, Table.get_of_mem row, Option.getD_some]

/-- The dependencies are the ids of the predecessors. -/
theorem preds_ids {t : Dated} (member : t ∈ tasks) :
    (preds tasks t).map (·.id) = knownDeps tasks t := by
  have known : ∀ d ∈ knownDeps tasks t, ∃ p, (byId tasks).get d = some p ∧ p.id = d := by
    intro d among
    obtain ⟨p, member, same⟩ := List.any_eq_true.mp (List.mem_filter.mp among).2
    have same := of_decide_eq_true same
    exact ⟨p, (get_byId distinct).mpr ⟨member, same⟩, same⟩
  rw [preds, depsOf_eq distinct member]
  revert known
  generalize knownDeps tasks t = deps
  intro known
  induction deps with
  | nil => rfl
  | cons d deps ih =>
      obtain ⟨p, found, same⟩ := known d List.mem_cons_self
      rw [List.filterMap_cons_some found, List.map_cons, same,
        ih fun d later => known d (List.mem_cons_of_mem _ later)]

theorem mem_preds {t p : Dated} (member : t ∈ tasks) :
    p ∈ preds tasks t ↔ p ∈ tasks ∧ p.id ∈ t.dependsOn := by
  rw [preds, depsOf_eq distinct member, knownDeps]
  simp only [List.mem_filterMap, List.mem_filter, get_byId distinct]
  constructor
  · rintro ⟨d, ⟨named, _⟩, member, rfl⟩
    exact ⟨member, named⟩
  · rintro ⟨member, named⟩
    exact ⟨p.id, ⟨named, List.any_eq_true.mpr ⟨p, member, decide_eq_true rfl⟩⟩, member, rfl⟩

end Deps

/-! ### The dependency graph -/

/-- One item of the plan names another among its dependencies. -/
def DependsOn (tasks : List Dated) (t p : Dated) : Prop :=
  t ∈ tasks ∧ p ∈ tasks ∧ p.id ∈ t.dependsOn

section Graph

variable (distinct : (tasks.map (·.id)).Nodup)

include distinct

/-- The check of the code is about the items: it fails exactly on a cycle of dependencies. -/
theorem depsAcyclic_iff :
    depsAcyclic tasks = true ↔ ∀ t ∈ tasks, ¬Relation.TransGen (DependsOn tasks) t t := by
  have up : ∀ {t p : Dated}, DependsOn tasks t p → p.id ∈ depsOf tasks t.id := by
    rintro t p ⟨member, member', named⟩
    rw [depsOf_eq distinct member]
    exact List.mem_filter.mpr ⟨named, List.any_eq_true.mpr ⟨p, member', decide_eq_true rfl⟩⟩
  have down : ∀ {t : Dated} {d : Int}, t ∈ tasks → d ∈ depsOf tasks t.id →
      ∃ p, p.id = d ∧ DependsOn tasks t p := by
    intro t d member among
    rw [depsOf_eq distinct member] at among
    obtain ⟨named, known⟩ := List.mem_filter.mp among
    obtain ⟨p, member', same⟩ := List.any_eq_true.mp known
    have same := of_decide_eq_true same
    exact ⟨p, same, member, member', same ▸ named⟩
  have items : ∀ {t : Dated} {d : Int}, t ∈ tasks →
      Relation.TransGen (fun v d => d ∈ depsOf tasks v) t.id d →
      ∃ p, p.id = d ∧ Relation.TransGen (DependsOn tasks) t p := by
    intro t d member path
    induction path with
    | single step =>
        obtain ⟨p, same, depends⟩ := down member step
        exact ⟨p, same, .single depends⟩
    | tail _ step ih =>
        obtain ⟨q, rfl, before⟩ := ih
        obtain ⟨_, _, _, member', _⟩ := Relation.TransGen.tail'_iff.mp before
        obtain ⟨p, same, depends⟩ := down member' step
        exact ⟨p, same, before.tail depends⟩
  rw [depsAcyclic, adj_keys distinct, TopologicalSort.visitsAll_iff_acyclic distinct]
  · constructor
    · intro acyclic t member circular
      exact acyclic t.id (List.mem_map.mpr ⟨t, member, rfl⟩)
        (circular.lift (fun t : Dated => t.id) fun _ _ => up)
    · intro acyclic v among circular
      obtain ⟨t, member, rfl⟩ := List.mem_map.mp among
      obtain ⟨p, same, path⟩ := items member circular
      obtain ⟨_, _, _, member', _⟩ := Relation.TransGen.tail'_iff.mp path
      cases List.inj_on_of_nodup_map distinct member' member same
      exact acyclic _ member path
  · intro v among d waits
    obtain ⟨t, member, rfl⟩ := List.mem_map.mp among
    obtain ⟨p, rfl, _, member', _⟩ := down member waits
    exact List.mem_map.mpr ⟨p, member', rfl⟩

/-- Dependencies that have no cycle come to an end. -/
theorem acc_dependsOn (acyclic : depsAcyclic tasks = true) {t : Dated} (member : t ∈ tasks) :
    Acc (fun p t => DependsOn tasks t p) t :=
  acc_of_acyclic (fun _ _ _ depends => depends.2.1) ((depsAcyclic_iff distinct).mp acyclic) member

end Graph

/-! ### Formulas over items -/

section Formulas

variable (tasks) (first : Nat)

/-- The Start or End cell of an item. -/
def cellOf (column : Column) (t : Dated) : Cell := (column, rowAt tasks first t.id)

/-- The dates of an item are driven by its dependencies. -/
def Driven (t : Dated) : Prop := depsAcyclic tasks = true ∧ preds tasks t ≠ []

instance (t : Dated) : Decidable (Driven tasks t) := inferInstanceAs (Decidable (_ ∧ _))

/-- The dates of a phase are rolled up from its children. -/
def RolledUp (p : Dated) : Prop := depsAcyclic tasks = true ∧ children tasks p.id ≠ []

instance (p : Dated) : Decidable (RolledUp tasks p) := inferInstanceAs (Decidable (_ ∧ _))

/-- What one predecessor asks of a dependent's start. -/
def driverTerm (t p : Dated) : Formula Cell :=
  workdayFormula (.ref (cellOf tasks first (drivingColumn p t) p))
    (workdayOffset (drivingDay p t) t.start)

/-- The Start cell of a task or milestone. -/
def taskStart (t : Dated) : Formula Cell :=
  if Driven tasks t then Formula.maxOf ((preds tasks t).map (driverTerm tasks first t)) else .num t.start

/-- The End cell of a task or milestone. -/
def taskFinish (t : Dated) : Formula Cell :=
  if Driven tasks t then
    workdayFormula (.ref (cellOf tasks first .start t)) (workdayOffset t.start t.finish)
  else .num t.finish

/-- The Start cell of a phase. -/
def phaseStart (p : Dated) : Formula Cell :=
  if RolledUp tasks p then
    Formula.minOf ((children tasks p.id).map fun k => .ref (cellOf tasks first .start k))
  else .num p.start

/-- The End cell of a phase. -/
def phaseFinish (p : Dated) : Formula Cell :=
  if RolledUp tasks p then
    Formula.maxOf ((children tasks p.id).map fun k => .ref (cellOf tasks first .finish k))
  else .num p.finish

variable {tasks} (distinct : (tasks.map (·.id)).Nodup)

include distinct

/-- The two cells of a task, as written. -/
theorem slotCells_task {t : Dated} (member : t ∈ tasks) (real : t.kind ≠ .phase) :
    slotCells tasks first (t, rowAt tasks first t.id) =
      [(cellOf tasks first .start t, taskStart tasks first t),
        (cellOf tasks first .finish t, taskFinish tasks first t)] := by
  have terms : (depsOf tasks t.id).mapM (startTerm tasks first t) =
      some ((preds tasks t).map (driverTerm tasks first t)) := by
    rw [depsOf_eq distinct member, ← preds_ids distinct member, mapM_eq_some_iff,
      List.forall₂_map_left_iff, List.forall₂_map_right_iff, List.forall₂_same]
    intro p among
    obtain ⟨member', _⟩ := (mem_preds distinct member).mp among
    rw [startTerm, (get_byId distinct).mpr ⟨member', rfl⟩, get_rowOf_mem distinct first member']
    rfl
  have empty : (depsOf tasks t.id).isEmpty = true ↔ preds tasks t = [] := by
    rw [depsOf_eq distinct member, ← preds_ids distinct member, List.isEmpty_iff, List.map_eq_nil_iff]
  have formulas : slotFormulas tasks first (t, rowAt tasks first t.id) =
      if Driven tasks t then some (taskStart tasks first t, taskFinish tasks first t) else none := by
    rw [slotFormulas, if_neg real, depFormulas, terms, get_rowOf_mem distinct first member]
    by_cases driven : Driven tasks t
    · have goes : ¬((depsOf tasks t.id).isEmpty = true ∨ ¬depsAcyclic tasks = true) := by
        rw [empty]
        exact fun either => either.elim driven.2 fun cyclic => cyclic driven.1
      rw [if_neg goes, if_pos driven, taskStart, taskFinish, if_pos driven, if_pos driven]
      rfl
    · have stays : (depsOf tasks t.id).isEmpty = true ∨ ¬depsAcyclic tasks = true := by
        rw [empty]
        by_cases acyclic : depsAcyclic tasks = true
        · exact Or.inl (not_not.mp fun some_ => driven ⟨acyclic, some_⟩)
        · exact Or.inr acyclic
      rw [if_pos stays, if_neg driven]
  rw [slotCells, formulas, dateCells]
  by_cases driven : Driven tasks t
  · rw [if_pos driven]
    rfl
  · rw [if_neg driven, taskStart, taskFinish, if_neg driven, if_neg driven]
    rfl

/-- The two cells of a phase, as written. -/
theorem slotCells_phase {p : Dated} (member : p ∈ tasks) (phase : p.kind = .phase) :
    slotCells tasks first (p, rowAt tasks first p.id) =
      [(cellOf tasks first .start p, phaseStart tasks first p),
        (cellOf tasks first .finish p, phaseFinish tasks first p)] := by
  have range : ∀ column, cellRange column (rowAt tasks first p.id + 1) (children tasks p.id).length =
      (children tasks p.id).map fun k => .ref (cellOf tasks first column k) := by
    intro column
    rw [cellRange, ← rows_children distinct first member phase, List.map_map]
    rfl
  rw [slotCells, slotFormulas, if_pos phase, phaseFormulas, dateCells]
  simp only [range]
  by_cases rolled : RolledUp tasks p
  · have goes : ¬((children tasks p.id).isEmpty = true ∨ ¬depsAcyclic tasks = true) := by
      rw [List.isEmpty_iff]
      exact fun either => either.elim rolled.2 fun cyclic => cyclic rolled.1
    rw [if_neg goes, phaseStart, phaseFinish, if_pos rolled, if_pos rolled]
    rfl
  · have stays : (children tasks p.id).isEmpty = true ∨ ¬depsAcyclic tasks = true := by
      rw [List.isEmpty_iff]
      by_cases acyclic : depsAcyclic tasks = true
      · exact Or.inl (not_not.mp fun some_ => rolled ⟨acyclic, some_⟩)
      · exact Or.inr acyclic
    rw [if_pos stays, phaseStart, phaseFinish, if_neg rolled, if_neg rolled]
    rfl

end Formulas

/-! ### The backward pass over items -/

section Backward

variable (tasks) (first : Nat)

/-- The tasks and milestones that depend on an item. -/
def succItems (t : Dated) : List Dated :=
  ((dependentsOf tasks t.id).filterMap (byId tasks).get).filter fun s => s.kind ≠ .phase

/-- What one dependent leaves a task. -/
def lateTerm (t s : Dated) : Formula Cell :=
  lateBound t (rowAt tasks first t.id) (s, rowAt tasks first s.id)

/-- The late-start cell of a task or milestone. -/
def lateStart (t : Dated) : Formula Cell :=
  if succItems tasks t = [] then back (rowAt tasks first t.id) (cellRef .projectFinish 1)
  else Formula.minOf ((succItems tasks t).map (lateTerm tasks first t))

/-- The project finish. -/
def projectFinish : Formula Cell :=
  Formula.maxOf ((realTasks tasks).map fun t => .ref (cellOf tasks first .finish t))

/-- The float cell of a task or milestone. -/
def floatFormula (t : Dated) : Formula Cell :=
  .sub (.networkdays (.ref (cellOf tasks first .start t)) (.ref (cellOf tasks first .lateStart t)))
    (.num 1)

variable {tasks}

theorem mem_realTasks {t : Dated} : t ∈ realTasks tasks ↔ t ∈ tasks ∧ t.kind ≠ .phase := by
  rw [realTasks, List.mem_filter, decide_eq_true_iff]

variable (distinct : (tasks.map (·.id)).Nodup)

include distinct

theorem mem_succItems {t s : Dated} (member : t ∈ tasks) :
    s ∈ succItems tasks t ↔ s ∈ realTasks tasks ∧ t.id ∈ s.dependsOn := by
  have waits : ∀ id, id ∈ dependentsOf tasks t.id ↔ ∃ u ∈ tasks, u.id = id ∧ t.id ∈ u.dependsOn := by
    intro id
    rw [dependentsOf, adj_keys distinct, TopologicalSort.dependents, List.mem_flatMap]
    simp only [List.mem_map, List.mem_replicate, ne_eq, List.count_eq_zero, not_not]
    constructor
    · rintro ⟨_, ⟨u, member', rfl⟩, named, rfl⟩
      rw [depsOf_eq distinct member'] at named
      exact ⟨u, member', rfl, (List.mem_filter.mp named).1⟩
    · rintro ⟨u, member', rfl, named⟩
      refine ⟨u.id, ⟨u, member', rfl⟩, ?_, rfl⟩
      rw [depsOf_eq distinct member']
      exact List.mem_filter.mpr ⟨named, List.any_eq_true.mpr ⟨t, member, decide_eq_true rfl⟩⟩
  rw [succItems, List.mem_filter, List.mem_filterMap, mem_realTasks, decide_eq_true_iff]
  simp only [waits, get_byId distinct]
  constructor
  · rintro ⟨⟨_, ⟨u, member', rfl, named⟩, there, same⟩, real⟩
    cases List.inj_on_of_nodup_map distinct member' there same.symm
    exact ⟨⟨there, real⟩, named⟩
  · rintro ⟨⟨there, real⟩, named⟩
    exact ⟨⟨s.id, ⟨s, there, rfl, named⟩, there, rfl⟩, real⟩

theorem succs_eq (t : Dated) :
    succs tasks first t = (succItems tasks t).map fun s => (s, rowAt tasks first s.id) := by
  rw [succs, succItems]
  generalize dependentsOf tasks t.id = ids
  induction ids with
  | nil => rfl
  | cons id ids ih =>
      cases found : (byId tasks).get id with
      | none =>
          rw [List.filterMap_cons_none found, List.filterMap_cons_none (by rw [found]; rfl), ih]
      | some s =>
          obtain ⟨member, rfl⟩ := (get_byId distinct).mp found
          rw [List.filterMap_cons_some found]
          by_cases phase : s.kind = .phase
          · rw [List.filterMap_cons_none, ih, List.filter_cons_of_neg (by simp [phase])]
            rw [found, get_rowOf_mem distinct first member]
            simp [phase]
          · rw [List.filterMap_cons_some (b := (s, rowAt tasks first s.id)), ih,
              List.filter_cons_of_pos (by simp [phase]), List.map_cons]
            rw [found, get_rowOf_mem distinct first member]
            simp [phase]

theorem lateStartFormula_eq (t : Dated) :
    lateStartFormula tasks first t (rowAt tasks first t.id) = lateStart tasks first t := by
  rw [lateStartFormula, lateStart, succs_eq first distinct]
  cases succItems tasks t with
  | nil => rfl
  | cons s succs =>
      rw [if_neg (List.cons_ne_nil _ _)]
      simp only [List.map_cons, List.map_map]
      rfl

theorem cpm_eq :
    cpm tasks first = (realTasks tasks).map fun t => (t, rowAt tasks first t.id) := by
  have each : ∀ t ∈ tasks, (do
      let r ← (rowOf tasks first).get t.id
      if t.kind = .phase then none else some (t, r)) =
      if t.kind ≠ .phase then some (t, rowAt tasks first t.id) else none := by
    intro t member
    rw [get_rowOf_mem distinct first member]
    by_cases phase : t.kind = .phase
    · simp [phase]
    · simp [phase]
  have all : ∀ items : List Dated, items.filterMap (fun t =>
      if t.kind ≠ .phase then some (t, rowAt tasks first t.id) else none) =
      (items.filter fun t => t.kind ≠ .phase).map fun t => (t, rowAt tasks first t.id) := by
    intro items
    induction items with
    | nil => rfl
    | cons t items ih =>
        by_cases phase : t.kind = .phase
        · rw [List.filterMap_cons_none (by simp [phase]), List.filter_cons_of_neg (by simp [phase]), ih]
        · rw [List.filterMap_cons_some (by rw [if_pos phase]), List.filter_cons_of_pos (by simp [phase]),
            List.map_cons, ih]
  rw [cpm, List.filterMap_congr each, realTasks, all]

/-- The cells of the backward pass, as written. -/
theorem floatCells_eq :
    floatCells tasks first =
      if realTasks tasks = [] ∨ ¬depsAcyclic tasks then []
      else ((.projectFinish, 1), projectFinish tasks first) ::
        (realTasks tasks).flatMap fun t =>
          [(cellOf tasks first .lateStart t, lateStart tasks first t),
            (cellOf tasks first .float t, floatFormula tasks first t)] := by
  rw [floatCells, cpm_eq first distinct]
  simp only [List.isEmpty_iff, List.map_eq_nil_iff, List.map_map, List.flatMap_map,
    lateStartFormula_eq first distinct]
  rfl

end Backward

/-! ### The sheet -/

/-- The Start or End formula of an item. -/
def itemFormula (tasks : List Dated) (first : Nat) (column : Column) (t : Dated) : Formula Cell :=
  match column, t.kind with
  | .start, .phase => phaseStart tasks first t
  | .start, _ => taskStart tasks first t
  | _, .phase => phaseFinish tasks first t
  | _, _ => taskFinish tasks first t

section Sheet

variable (distinct : (tasks.map (·.id)).Nodup) (detailCols : Bool)

include distinct

theorem slotCells_eq (first : Nat) {t : Dated} (member : t ∈ tasks) :
    slotCells tasks first (t, rowAt tasks first t.id) =
      [(cellOf tasks first .start t, itemFormula tasks first .start t),
        (cellOf tasks first .finish t, itemFormula tasks first .finish t)] := by
  cases kind : t.kind with
  | phase =>
      rw [slotCells_phase first distinct member kind]
      simp only [itemFormula, kind]
  | task =>
      rw [slotCells_task first distinct member (by simp [kind])]
      simp only [itemFormula, kind]
  | milestone =>
      rw [slotCells_task first distinct member (by simp [kind])]
      simp only [itemFormula, kind]

/-- The slots' cells, item by item. -/
theorem mem_slot_cells {first : Nat} {c : Cell} {f : Formula Cell} :
    (c, f) ∈ ((slots tasks).zipIdx (first + 1)).flatMap (slotCells tasks first) ↔
      ∃ t ∈ tasks, (c = cellOf tasks first .start t ∧ f = itemFormula tasks first .start t) ∨
        (c = cellOf tasks first .finish t ∧ f = itemFormula tasks first .finish t) := by
  rw [List.mem_flatMap]
  constructor
  · rintro ⟨⟨t, r⟩, slot, written⟩
    have member := mem_of_slot distinct first slot
    cases rowAt_of_slot distinct first slot
    rw [slotCells_eq distinct first member] at written
    exact ⟨t, member, by simpa using written⟩
  · rintro ⟨t, member, written⟩
    refine ⟨_, slot_of_mem distinct first member, ?_⟩
    rw [slotCells_eq distinct first member]
    simpa using written

omit distinct in
/-- Two cells on each of some rows. -/
theorem nodup_rows {a b : Column} (other : a ≠ b) {rows : List Nat} (nodup : rows.Nodup) :
    (rows.flatMap fun r => [((a, r) : Cell), (b, r)]).Nodup := by
  rw [List.nodup_flatMap]
  constructor
  · intro r _
    simp [other]
  · refine nodup.imp fun apart => ?_
    simp [Function.onFun, List.disjoint_left, apart, other, other.symm]

theorem realTasks_rows_nodup (first : Nat) :
    ((realTasks tasks).map fun t => rowAt tasks first t.id).Nodup := by
  refine List.Nodup.map_on ?_ ((List.Nodup.of_map _ distinct).filter _)
  intro t real u real' same
  exact rowAt_inj distinct first (mem_realTasks.mp real).1 (mem_realTasks.mp real').1 same

/-- No cell is written twice. -/
theorem cells_nodup : ((drawnSheet detailCols tasks).cells.map Prod.fst).Nodup := by
  let first := firstBarRow detailCols
  have slotKeys : (((slots tasks).zipIdx (first + 1)).flatMap (slotCells tasks first)).map Prod.fst =
      (List.range' (first + 1) (slots tasks).length).flatMap
        fun r => [((.start, r) : Cell), (.finish, r)] := by
    rw [← List.zipIdx_map_snd (first + 1) (slots tasks), List.map_flatMap, List.flatMap_map]
    rfl
  have floatKeys : (floatCells tasks first).map Prod.fst =
      if realTasks tasks = [] ∨ ¬depsAcyclic tasks then []
      else (.projectFinish, 1) :: ((realTasks tasks).map fun t => rowAt tasks first t.id).flatMap
        fun r => [((.lateStart, r) : Cell), (.float, r)] := by
    rw [floatCells_eq first distinct]
    split
    · rfl
    · rw [List.map_cons, List.map_flatMap, List.flatMap_map]
      rfl
  have floats : ((if detailCols then floatCells tasks first else []).map Prod.fst).Nodup ∧
      ∀ c ∈ (if detailCols then floatCells tasks first else []).map Prod.fst,
        c.1 ≠ .start ∧ c.1 ≠ .finish := by
    cases detailCols with
    | false => simp
    | true =>
        rw [if_pos rfl, floatKeys]
        split
        · simp
        · constructor
          · rw [List.nodup_cons]
            refine ⟨?_, nodup_rows (by decide) (realTasks_rows_nodup distinct first)⟩
            simp
          · intro c written
            rcases List.mem_cons.mp written with rfl | written
            · decide
            · obtain ⟨r, _, written⟩ := List.mem_flatMap.mp written
              rcases List.mem_pair.mp written with rfl | rfl <;> simp
  have cut : (drawnSheet detailCols tasks).cells.map Prod.fst =
      [((.start, first) : Cell), (.finish, first)] ++
        ((((slots tasks).zipIdx (first + 1)).flatMap (slotCells tasks first)).map Prod.fst ++
          (if detailCols then floatCells tasks first else []).map Prod.fst) := by
    rw [← List.map_append]
    rfl
  have below : ∀ c ∈ (List.range' (first + 1) (slots tasks).length).flatMap
      (fun r => [((.start, r) : Cell), (.finish, r)]), first < c.2 ∧ (c.1 = .start ∨ c.1 = .finish) := by
    intro c written
    obtain ⟨r, among, written⟩ := List.mem_flatMap.mp written
    have later := (List.mem_range'_1.mp among).1
    rcases List.mem_pair.mp written with rfl | rfl
    · exact ⟨later, Or.inl rfl⟩
    · exact ⟨later, Or.inr rfl⟩
  rw [cut, slotKeys, List.nodup_append, List.nodup_append]
  refine ⟨by simp, ⟨nodup_rows (by decide) List.nodup_range', floats.1, ?_⟩, ?_⟩
  · rintro c drawn _ backward rfl
    have apart := floats.2 c backward
    exact (below c drawn).2.elim apart.1 apart.2
  · rintro c project _ later rfl
    rcases List.mem_append.mp later with drawn | backward
    · have under := (below c drawn).1
      rcases List.mem_pair.mp project with rfl | rfl
      · exact absurd under (lt_irrefl _)
      · exact absurd under (lt_irrefl _)
    · have apart := floats.2 c backward
      rcases List.mem_pair.mp project with rfl | rfl
      · exact apart.1 rfl
      · exact apart.2 rfl

/-- A cell of the sheet holds what was written there. -/
theorem sheet_eq_some {c : Cell} {f : Formula Cell} :
    (drawnSheet detailCols tasks).sheet c = some f ↔ (c, f) ∈ (drawnSheet detailCols tasks).cells :=
  Table.get_ofList (cells_nodup distinct detailCols)

/-- The formulas of the project row, over the phases. -/
theorem projectFormulas_eq (first : Nat) :
    projectFormulas tasks first =
      if phases tasks = [] ∨ ¬depsAcyclic tasks then none
      else some (Formula.minOf ((phases tasks).map fun p => .ref (cellOf tasks first .start p)),
        Formula.maxOf ((phases tasks).map fun p => .ref (cellOf tasks first .finish p))) := by
  have rows : (phases tasks).filterMap (fun p => (rowOf tasks first).get p.id) =
      (phases tasks).map fun p => rowAt tasks first p.id := by
    rw [← List.filterMap_eq_map]
    exact List.filterMap_congr fun p among =>
      get_rowOf_mem distinct first (List.mem_of_mem_filter among)
  rw [projectFormulas]
  simp only [rows, List.isEmpty_iff, List.map_map]
  rfl

/-- The cells of the project row refer to the phases' cells. -/
theorem project_refs {first : Nat} {start finish : Int} {c : Cell} {f : Formula Cell}
    (written : (c, f) ∈ dateCells first start finish (projectFormulas tasks first)) :
    ∀ d ∈ f.refs, ∃ p ∈ phases tasks,
      d = cellOf tasks first .start p ∨ d = cellOf tasks first .finish p := by
  intro d mentioned
  rw [projectFormulas_eq distinct] at written
  unfold dateCells at written
  split at written
  · rcases List.mem_pair.mp written with same | same
    · cases same
      cases mentioned
    · cases same
      cases mentioned
  · rcases List.mem_pair.mp written with same | same
    · cases same
      obtain ⟨e, among, mentioned⟩ := Formula.mem_refs_minOf.mp mentioned
      obtain ⟨p, phase, rfl⟩ := List.mem_map.mp among
      exact ⟨p, phase, Or.inl (List.mem_singleton.mp mentioned)⟩
    · cases same
      obtain ⟨e, among, mentioned⟩ := Formula.mem_refs_maxOf.mp mentioned
      obtain ⟨p, phase, rfl⟩ := List.mem_map.mp among
      exact ⟨p, phase, Or.inr (List.mem_singleton.mp mentioned)⟩

/-- The Start or End cell of an item. -/
theorem sheet_item {t : Dated} (member : t ∈ tasks) {column : Column}
    (dates : column = .start ∨ column = .finish) :
    (drawnSheet detailCols tasks).sheet (cellOf tasks (firstBarRow detailCols) column t) =
      some (itemFormula tasks (firstBarRow detailCols) column t) := by
  rw [sheet_eq_some distinct detailCols]
  refine List.mem_append_right _ (List.mem_append_left _ ((mem_slot_cells distinct).mpr
    ⟨t, member, ?_⟩))
  rcases dates with rfl | rfl
  · exact Or.inl ⟨rfl, rfl⟩
  · exact Or.inr ⟨rfl, rfl⟩

section Detailed

variable (acyclic : depsAcyclic tasks = true)

include acyclic

/-- The cells of the backward pass, one by one. -/
theorem mem_floatCells {first : Nat} {c : Cell} {f : Formula Cell} :
    (c, f) ∈ floatCells tasks first ↔
      (realTasks tasks ≠ [] ∧ c = (.projectFinish, 1) ∧ f = projectFinish tasks first) ∨
        ∃ t ∈ realTasks tasks,
          (c = cellOf tasks first .lateStart t ∧ f = lateStart tasks first t) ∨
            (c = cellOf tasks first .float t ∧ f = floatFormula tasks first t) := by
  rw [floatCells_eq first distinct]
  by_cases none_ : realTasks tasks = []
  · simp [none_]
  · rw [if_neg (by simp [none_, acyclic]), List.mem_cons, List.mem_flatMap]
    simp [none_]

theorem sheet_project_finish (some_ : realTasks tasks ≠ []) :
    (drawnSheet true tasks).sheet (.projectFinish, 1) =
      some (projectFinish tasks (firstBarRow true)) := by
  rw [sheet_eq_some distinct true]
  exact List.mem_append_right _ (List.mem_append_right _
    ((mem_floatCells distinct acyclic).mpr (Or.inl ⟨some_, rfl, rfl⟩)))

theorem sheet_late_start {t : Dated} (real : t ∈ realTasks tasks) :
    (drawnSheet true tasks).sheet (cellOf tasks (firstBarRow true) .lateStart t) =
      some (lateStart tasks (firstBarRow true) t) := by
  rw [sheet_eq_some distinct true]
  exact List.mem_append_right _ (List.mem_append_right _
    ((mem_floatCells distinct acyclic).mpr (Or.inr ⟨t, real, Or.inl ⟨rfl, rfl⟩⟩)))

theorem sheet_float {t : Dated} (real : t ∈ realTasks tasks) :
    (drawnSheet true tasks).sheet (cellOf tasks (firstBarRow true) .float t) =
      some (floatFormula tasks (firstBarRow true) t) := by
  rw [sheet_eq_some distinct true]
  exact List.mem_append_right _ (List.mem_append_right _
    ((mem_floatCells distinct acyclic).mpr (Or.inr ⟨t, real, Or.inr ⟨rfl, rfl⟩⟩)))

end Detailed

/-- Where a formula of the sheet can stand. -/
theorem sheet_cases {c : Cell} {f : Formula Cell}
    (written : (drawnSheet detailCols tasks).sheet c = some f) :
    (∀ d ∈ f.refs, ∃ p ∈ phases tasks,
        d = cellOf tasks (firstBarRow detailCols) .start p ∨
          d = cellOf tasks (firstBarRow detailCols) .finish p) ∨
      (∃ t ∈ tasks,
        (c = cellOf tasks (firstBarRow detailCols) .start t ∧
            f = itemFormula tasks (firstBarRow detailCols) .start t) ∨
          (c = cellOf tasks (firstBarRow detailCols) .finish t ∧
            f = itemFormula tasks (firstBarRow detailCols) .finish t)) ∨
      (depsAcyclic tasks = true ∧ detailCols = true ∧
        (c, f) ∈ floatCells tasks (firstBarRow detailCols)) := by
  rw [sheet_eq_some distinct detailCols] at written
  rcases List.mem_append.mp written with project | later
  · exact Or.inl (project_refs distinct project)
  · rcases List.mem_append.mp later with slot | backward
    · exact Or.inr (Or.inl ((mem_slot_cells distinct).mp slot))
    · refine Or.inr (Or.inr ?_)
      cases detailCols with
      | false => exact absurd backward List.not_mem_nil
      | true =>
          refine ⟨?_, rfl, backward⟩
          by_contra cyclic
          rw [if_pos rfl, floatCells_eq _ distinct, if_pos (Or.inr cyclic)] at backward
          exact absurd backward List.not_mem_nil

end Sheet

end GhostPour.Documents
