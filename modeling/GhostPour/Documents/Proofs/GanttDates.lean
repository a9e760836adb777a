/-
Module: GhostPour.Documents.Proofs.GanttDates
Layer: Proofs
Purpose: What the Start and End cells of the Gantt View evaluate to. The offset in a dependent's
  formula is taken against the predecessor's own date, while the cell of a phase shows the rollup of
  its children; the sheet reproduces the plan exactly when no task follows itself through a phase
  and, for every dependent, no rollup is later than the phase's own date and one predecessor's cell
  shows its own date.
Trusted boundary: none
Main exports: shownDay, RollupsFit, value_shown, start_value_iff, ReproducesPlan,
  reproducesPlan_iff
-/
import GhostPour.Documents.Proofs.GanttReferences

namespace GhostPour.Documents

variable {tasks : List Dated}

/-- The day a predecessor's driving cell shows: for a phase with children, their rollup. -/
def shownDay (tasks : List Dated) (pred succ : Dated) : Int :=
  if pred.kind = .phase ∧ children tasks pred.id ≠ [] then
    match depCode pred succ with
    | .SS => earliestStart (children tasks pred.id)
    | _ => latestEnd (children tasks pred.id)
  else drivingDay pred succ

/-- No predecessor's cell shows a later day than the predecessor's own, and, if there are
    predecessors, one shows its own. -/
def RollupsFit (tasks : List Dated) (t : Dated) : Prop :=
  (∃ p, DependsOn tasks t p) →
    (∀ p, DependsOn tasks t p → shownDay tasks p t ≤ drivingDay p t) ∧
      ∃ p, DependsOn tasks t p ∧ shownDay tasks p t = drivingDay p t

/-! ### Rollups -/

theorem isLeast_earliestStart {items : List Dated} (some_ : items ≠ []) :
    IsLeast {d | d ∈ items.map (·.start)} (earliestStart items) := by
  obtain ⟨t, rest, rfl⟩ := List.exists_cons_of_ne_nil some_
  have fold : ∀ (rest : List Dated) (d : Int),
      IsLeast {e | e ∈ d :: rest.map (·.start)} (rest.foldl (fun d u => min d u.start) d) := by
    intro rest
    induction rest with
    | nil => intro d; simp
    | cons u rest ih =>
        intro d
        obtain ⟨among, bound⟩ := ih (min d u.start)
        constructor
        · rcases List.mem_cons.mp among with same | later
          · rcases min_choice d u.start with first | second
            · exact List.mem_cons.mpr (Or.inl (same.trans first))
            · exact List.mem_cons_of_mem _ (List.mem_cons.mpr (Or.inl (same.trans second)))
          · exact List.mem_cons_of_mem _ (List.mem_cons_of_mem _ later)
        · intro e member
          rcases List.mem_cons.mp member with rfl | later
          · exact (bound List.mem_cons_self).trans (min_le_left _ _)
          · rcases List.mem_cons.mp later with rfl | later
            · exact (bound List.mem_cons_self).trans (min_le_right _ _)
            · exact bound (List.mem_cons_of_mem _ later)
  exact fold rest t.start

theorem isGreatest_latestEnd {items : List Dated} (some_ : items ≠ []) :
    IsGreatest {d | d ∈ items.map (·.finish)} (latestEnd items) := by
  obtain ⟨t, rest, rfl⟩ := List.exists_cons_of_ne_nil some_
  have fold : ∀ (rest : List Dated) (d : Int),
      IsGreatest {e | e ∈ d :: rest.map (·.finish)} (rest.foldl (fun d u => max d u.finish) d) := by
    intro rest
    induction rest with
    | nil => intro d; simp
    | cons u rest ih =>
        intro d
        obtain ⟨among, bound⟩ := ih (max d u.finish)
        constructor
        · rcases List.mem_cons.mp among with same | later
          · rcases max_choice d u.finish with first | second
            · exact List.mem_cons.mpr (Or.inl (same.trans first))
            · exact List.mem_cons_of_mem _ (List.mem_cons.mpr (Or.inl (same.trans second)))
          · exact List.mem_cons_of_mem _ (List.mem_cons_of_mem _ later)
        · intro e member
          rcases List.mem_cons.mp member with rfl | later
          · exact (le_max_left _ _).trans (bound List.mem_cons_self)
          · rcases List.mem_cons.mp later with rfl | later
            · exact (le_max_right _ _).trans (bound List.mem_cons_self)
            · exact bound (List.mem_cons_of_mem _ later)
  exact fold rest t.finish

/-- The driving day of a predecessor is a working day. -/
theorem drivingDay_works (p t : Dated) : isWorkday (drivingDay p t) = true := by
  unfold drivingDay
  split
  · exact p.startWorks
  · exact p.finishWorks

theorem shownDay_works (p t : Dated) : isWorkday (shownDay tasks p t) = true := by
  unfold shownDay
  split
  · next rolled =>
    split
    · obtain ⟨k, _, same⟩ := List.mem_map.mp (isLeast_earliestStart rolled.2).1
      exact same ▸ k.startWorks
    · obtain ⟨k, _, same⟩ := List.mem_map.mp (isGreatest_latestEnd rolled.2).1
      exact same ▸ k.finishWorks
  · exact drivingDay_works p t

@[simp] theorem eval_workdayFormula (env : Cell → Int) (e : Formula Cell) (k : Int) :
    (workdayFormula e k).eval env = workday (e.eval env) k := by
  unfold workdayFormula
  split
  · next zero => rw [zero]; rfl
  · rfl

/-! ### Values -/

section Values

variable (distinct : (tasks.map (·.id)).Nodup) (detailCols : Bool)

/-- The Start and End cells of an item evaluate to its dates. -/
def Shows (tasks : List Dated) (detailCols : Bool) (t : Dated) : Prop :=
  (drawnSheet detailCols tasks).sheet.Value (cellOf tasks (firstBarRow detailCols) .start t) t.start ∧
    (drawnSheet detailCols tasks).sheet.Value (cellOf tasks (firstBarRow detailCols) .finish t) t.finish

include distinct

/-- A phase without a rollup shows its dates. -/
theorem shows_of_not_rolledUp {p : Dated} (member : p ∈ tasks) (phase : p.kind = .phase)
    (static : ¬RolledUp tasks p) : Shows tasks detailCols p := by
  have start := sheet_item distinct detailCols member (Or.inl rfl)
  have finish := sheet_item distinct detailCols member (Or.inr rfl)
  rw [(itemFormula_phase _ phase).1, phaseStart, if_neg static] at start
  rw [(itemFormula_phase _ phase).2, phaseFinish, if_neg static] at finish
  exact ⟨.of_refs start fun _ mentioned => absurd mentioned List.not_mem_nil,
    .of_refs finish fun _ mentioned => absurd mentioned List.not_mem_nil⟩

/-- A phase whose children show their dates shows their rollup. -/
theorem value_rollup {p : Dated} (member : p ∈ tasks) (phase : p.kind = .phase)
    (rolled : RolledUp tasks p) (kids : ∀ k ∈ children tasks p.id, Shows tasks detailCols k) :
    (drawnSheet detailCols tasks).sheet.Value (cellOf tasks (firstBarRow detailCols) .start p)
        (earliestStart (children tasks p.id)) ∧
      (drawnSheet detailCols tasks).sheet.Value (cellOf tasks (firstBarRow detailCols) .finish p)
        (latestEnd (children tasks p.id)) := by
  have start := sheet_item distinct detailCols member (Or.inl rfl)
  have finish := sheet_item distinct detailCols member (Or.inr rfl)
  rw [(itemFormula_phase _ phase).1] at start
  rw [(itemFormula_phase _ phase).2] at finish
  have some_ : ∀ column, ((children tasks p.id).map fun k =>
      Formula.ref (cellOf tasks (firstBarRow detailCols) column k)) ≠ [] := fun column =>
    List.map_eq_nil_iff.not.mpr rolled.2
  have startValue := Sheet.Value.of_refs start fun d mentioned => by
    obtain ⟨_, k, kid, rfl⟩ := (mem_refs_phaseStart _).mp mentioned
    exact ⟨_, (kids k kid).1⟩
  have finishValue := Sheet.Value.of_refs finish fun d mentioned => by
    obtain ⟨_, k, kid, rfl⟩ := (mem_refs_phaseFinish _).mp mentioned
    exact ⟨_, (kids k kid).2⟩
  rw [phaseStart, if_pos rolled] at startValue
  rw [phaseFinish, if_pos rolled] at finishValue
  constructor
  · have shown : ((children tasks p.id).map fun k =>
        Formula.ref (cellOf tasks (firstBarRow detailCols) .start k)).map
          (Formula.eval (drawnSheet detailCols tasks).sheet.env) = (children tasks p.id).map (·.start) := by
      rw [List.map_map]
      exact List.map_congr_left fun k kid => Sheet.env_eq (kids k kid).1
    have least := Formula.isLeast_minOf (some_ .start) (drawnSheet detailCols tasks).sheet.env
    rw [shown] at least
    exact least.unique (isLeast_earliestStart rolled.2) ▸ startValue
  · have shown : ((children tasks p.id).map fun k =>
        Formula.ref (cellOf tasks (firstBarRow detailCols) .finish k)).map
          (Formula.eval (drawnSheet detailCols tasks).sheet.env) = (children tasks p.id).map (·.finish) := by
      rw [List.map_map]
      exact List.map_congr_left fun k kid => Sheet.env_eq (kids k kid).2
    have greatest := Formula.isGreatest_maxOf (some_ .finish) (drawnSheet detailCols tasks).sheet.env
    rw [shown] at greatest
    exact greatest.unique (isGreatest_latestEnd rolled.2) ▸ finishValue

variable (acyclic : depsAcyclic tasks = true)

include acyclic

/-- What a predecessor's driving cell evaluates to, when what is below it shows its dates. -/
theorem value_shown {t p : Dated} (member : p ∈ tasks)
    (below : ∀ u, (p.kind ≠ .phase ∧ u = p) ∨ (p.kind = .phase ∧ u ∈ children tasks p.id) →
      Shows tasks detailCols u) :
    (drawnSheet detailCols tasks).sheet.Value
      (cellOf tasks (firstBarRow detailCols) (drivingColumn p t) p) (shownDay tasks p t) := by
  have own : Shows tasks detailCols p → (drawnSheet detailCols tasks).sheet.Value
      (cellOf tasks (firstBarRow detailCols) (drivingColumn p t) p) (drivingDay p t) := by
    intro shows
    unfold drivingColumn drivingDay
    split
    · exact shows.1
    · exact shows.2
  unfold shownDay
  by_cases rolled : p.kind = .phase ∧ children tasks p.id ≠ []
  · obtain ⟨start, finish⟩ := value_rollup distinct detailCols member rolled.1 ⟨acyclic, rolled.2⟩
      fun k kid => below k (Or.inr ⟨rolled.1, kid⟩)
    rw [if_pos rolled]
    cases code : depCode p t with
    | SS => simpa only [drivingColumn, code] using start
    | FF => simpa only [drivingColumn, code] using finish
    | FS => simpa only [drivingColumn, code] using finish
  · rw [if_neg rolled]
    by_cases phase : p.kind = .phase
    · exact own (shows_of_not_rolledUp distinct detailCols member phase fun rolledUp =>
        rolled ⟨phase, rolledUp.2⟩)
    · exact own (below p (Or.inl ⟨phase, rfl⟩))

omit distinct acyclic in
/-- The value of a predecessor's term, against its own date. -/
theorem eval_driverTerm {t p : Dated}
    (value : (drawnSheet detailCols tasks).sheet.Value
      (cellOf tasks (firstBarRow detailCols) (drivingColumn p t) p) (shownDay tasks p t)) :
    (driverTerm tasks (firstBarRow detailCols) t p).eval (drawnSheet detailCols tasks).sheet.env =
      workdayAt (workIndex t.start + (workIndex (shownDay tasks p t) - workIndex (drivingDay p t))) := by
  rw [driverTerm, eval_workdayFormula, Formula.eval, Sheet.env_eq value,
    workday_of_isWorkday (shownDay_works p t), workdayOffset_eq (drivingDay_works p t) t.startWorks]
  congr 1
  omega

/-- A task whose predecessors' cells have values starts where the plan says exactly when the
    rollups among them fit. -/
theorem start_value_iff {t : Dated} (real : t ∈ realTasks tasks)
    (below : ∀ u, DependsThrough tasks t u → Shows tasks detailCols u) :
    (drawnSheet detailCols tasks).sheet.Value (cellOf tasks (firstBarRow detailCols) .start t) t.start ↔
      RollupsFit tasks t := by
  obtain ⟨member, isReal⟩ := mem_realTasks.mp real
  have written := sheet_item distinct detailCols member (Or.inl rfl)
  rw [(itemFormula_real _ isReal).1] at written
  have preds_iff : ∀ p, p ∈ preds tasks t ↔ DependsOn tasks t p := fun p =>
    (mem_preds distinct member).trans ⟨fun both => ⟨member, both⟩, fun depends => depends.2⟩
  have value : ∀ p, DependsOn tasks t p → (drawnSheet detailCols tasks).sheet.Value
      (cellOf tasks (firstBarRow detailCols) (drivingColumn p t) p) (shownDay tasks p t) :=
    fun p depends => value_shown distinct detailCols acyclic depends.2.1 fun u how =>
      below u ⟨real, p, depends, how⟩
  by_cases some_ : ∃ p, DependsOn tasks t p
  · have driven : Driven tasks t := by
      obtain ⟨p, depends⟩ := some_
      exact ⟨acyclic, List.ne_nil_of_mem ((preds_iff p).mpr depends)⟩
    have evaluates := Sheet.Value.of_refs written fun d mentioned => by
      obtain ⟨_, p, pred, rfl⟩ := (mem_refs_taskStart _).mp mentioned
      exact ⟨_, value p ((preds_iff p).mp pred)⟩
    rw [taskStart, if_pos driven] at evaluates
    have greatest := Formula.isGreatest_maxOf
      (fun none_ => driven.2 (List.map_eq_nil_iff.mp none_) :
        (preds tasks t).map (driverTerm tasks (firstBarRow detailCols) t) ≠ [])
      (drawnSheet detailCols tasks).sheet.env
    have terms : ∀ v, v ∈ ((preds tasks t).map (driverTerm tasks (firstBarRow detailCols) t)).map
        (Formula.eval (drawnSheet detailCols tasks).sheet.env) ↔
        ∃ p, DependsOn tasks t p ∧ workdayAt (workIndex t.start +
          (workIndex (shownDay tasks p t) - workIndex (drivingDay p t))) = v := by
      intro v
      rw [List.map_map, List.mem_map]
      refine exists_congr fun p => ?_
      rw [preds_iff]
      refine and_congr_right fun depends => ?_
      rw [Function.comp_apply, eval_driverTerm detailCols (value p depends)]
    have started : t.start = workdayAt (workIndex t.start) := (workdayAt_workIndex t.startWorks).symm
    have le_iff : ∀ p, workdayAt (workIndex t.start +
        (workIndex (shownDay tasks p t) - workIndex (drivingDay p t))) ≤ t.start ↔
        shownDay tasks p t ≤ drivingDay p t := by
      intro p
      conv_lhs => rw [started]
      rw [workIndex_workdayAt, workdayAt_le_iff, ← workIndex_le_iff (shownDay_works p t) (drivingDay_works p t)]
      omega
    have eq_iff : ∀ p, workdayAt (workIndex t.start +
        (workIndex (shownDay tasks p t) - workIndex (drivingDay p t))) = t.start ↔
        shownDay tasks p t = drivingDay p t := by
      intro p
      conv_lhs => rw [started]
      rw [workIndex_workdayAt, workdayAt_inj, ← workIndex_inj (shownDay_works p t) (drivingDay_works p t)]
      omega
    constructor
    · intro shows _
      rw [Sheet.value_unique evaluates shows] at greatest
      constructor
      · intro p depends
        exact (le_iff p).mp (greatest.2 ((terms _).mpr ⟨p, depends, rfl⟩))
      · obtain ⟨p, depends, same⟩ := (terms _).mp greatest.1
        exact ⟨p, depends, (eq_iff p).mp same⟩
    · intro fits
      obtain ⟨bound, p, depends, same⟩ := fits some_
      have start : IsGreatest {v | v ∈ ((preds tasks t).map
          (driverTerm tasks (firstBarRow detailCols) t)).map
            (Formula.eval (drawnSheet detailCols tasks).sheet.env)} t.start := by
        constructor
        · exact (terms _).mpr ⟨p, depends, (eq_iff p).mpr same⟩
        · intro v among
          obtain ⟨q, depends', rfl⟩ := (terms v).mp among
          exact (le_iff q).mpr (bound q depends')
      exact greatest.unique start ▸ evaluates
  · have static : ¬Driven tasks t := fun driven => by
      obtain ⟨p, pred⟩ := List.exists_mem_of_ne_nil _ driven.2
      exact some_ ⟨p, (preds_iff p).mp pred⟩
    rw [taskStart, if_neg static] at written
    exact iff_of_true (.of_refs written fun _ mentioned => absurd mentioned List.not_mem_nil)
      fun some' => absurd some' some_

omit acyclic in
/-- A task that starts where the plan says ends where it says. -/
theorem finish_value {t : Dated} (real : t ∈ realTasks tasks)
    (starts : (drawnSheet detailCols tasks).sheet.Value
      (cellOf tasks (firstBarRow detailCols) .start t) t.start) :
    (drawnSheet detailCols tasks).sheet.Value
      (cellOf tasks (firstBarRow detailCols) .finish t) t.finish := by
  obtain ⟨member, isReal⟩ := mem_realTasks.mp real
  have written := sheet_item distinct detailCols member (Or.inr rfl)
  rw [(itemFormula_real _ isReal).2] at written
  have evaluates := Sheet.Value.of_refs written fun d mentioned => by
    obtain ⟨_, rfl⟩ := (mem_refs_taskFinish _).mp mentioned
    exact ⟨_, starts⟩
  unfold taskFinish at evaluates
  split at evaluates
  · rw [eval_workdayFormula, Formula.eval, Sheet.env_eq starts, workday_of_isWorkday t.startWorks,
      workdayOffset_eq t.startWorks t.finishWorks, add_sub_cancel, workdayAt_workIndex t.finishWorks]
      at evaluates
    exact evaluates
  · exact evaluates

/-- The sheet shows every task's dates exactly when no task depends on itself through the phases
    and the rollups fit. -/
theorem shows_iff :
    (∀ t ∈ realTasks tasks, Shows tasks detailCols t) ↔
      (∀ t ∈ tasks, ¬Relation.TransGen (DependsThrough tasks) t t) ∧
        ∀ t ∈ realTasks tasks, RollupsFit tasks t := by
  constructor
  · intro shows
    constructor
    · intro t member looped
      obtain ⟨_, through, _⟩ := Relation.TransGen.head'_iff.mp looped
      exact not_transGen_of_acc (shows t through.1).1.acc
        (circular_of_through distinct detailCols acyclic looped)
    · intro t real
      exact (start_value_iff distinct detailCols acyclic real fun u through =>
        shows u through.real).mp (shows t real).1
  · rintro ⟨unlooped, fits⟩ t real
    have ends : Acc (fun u t => DependsThrough tasks t u) t :=
      acc_of_acyclic (fun _ _ _ through => (mem_realTasks.mp through.real).1) unlooped
        (mem_realTasks.mp real).1
    -- along the dependencies, read through the phases
    induction ends with
    | intro t _ ih =>
        have starts := (start_value_iff distinct detailCols acyclic real fun u through =>
          ih u through through.real).mpr (fits t real)
        exact ⟨starts, finish_value distinct detailCols real starts⟩

end Values

/-! ### When the sheet reproduces the plan -/

/-- Every task and milestone row of the built sheet evaluates to the item's snapped dates; nothing
    but a plan without dated items stops the build. -/
def ReproducesPlan (detailCols : Bool) (plan : List Item) : Prop :=
  match buildGanttWb detailCols (scheduled plan) with
  | .ok ws => ∀ r ∈ ws.rows, r.2.kind ≠ .phase →
      ws.sheet.Value (.start, r.1) r.2.start ∧ ws.sheet.Value (.finish, r.1) r.2.finish
  | .error e => e = .noTasks ∧ scheduled plan = []

/-- For distinct ids, row by row is item by item. -/
theorem reproducesPlan_iff_shows (detailCols : Bool) {plan : List Item}
    (distinct : ((scheduled plan).map (·.id)).Nodup) :
    ReproducesPlan detailCols plan ↔
      ∀ t ∈ realTasks (scheduled plan), Shows (scheduled plan) detailCols t := by
  unfold ReproducesPlan
  by_cases none_ : scheduled plan = []
  · rw [none_]
    exact iff_of_true ⟨rfl, rfl⟩ fun _ real => absurd real List.not_mem_nil
  · rw [build_of_distinct detailCols none_ distinct]
    constructor
    · intro rows t real
      obtain ⟨member, isReal⟩ := mem_realTasks.mp real
      exact rows (_, t) (mem_drawnSheet_rows.mpr (slot_of_mem distinct _ member)) isReal
    · rintro shows ⟨r, t⟩ drawn isReal
      have slot := mem_drawnSheet_rows.mp drawn
      have shown := shows t (mem_realTasks.mpr ⟨mem_of_slot distinct _ slot, isReal⟩)
      rw [Shows, cellOf, cellOf, rowAt_of_slot distinct _ slot] at shown
      exact shown

/-- With distinct ids and dependencies that have no cycle, the live sheet reproduces the plan
    exactly when no task depends on itself through the phases and every rollup fits. -/
theorem reproducesPlan_iff (detailCols : Bool) (plan : List Item)
    (distinct : ((plan.filter Item.hasDates).map (·.id)).Nodup)
    (acyclic : ∀ t ∈ scheduled plan, ¬Relation.TransGen (DependsOn (scheduled plan)) t t) :
    ReproducesPlan detailCols plan ↔
      (∀ t ∈ scheduled plan, ¬Relation.TransGen (DependsThrough (scheduled plan)) t t) ∧
        ∀ t ∈ realTasks (scheduled plan), RollupsFit (scheduled plan) t := by
  rw [← scheduled_ids] at distinct
  rw [reproducesPlan_iff_shows detailCols distinct]
  exact shows_iff distinct detailCols ((depsAcyclic_iff distinct).mpr acyclic)

/-- The plan of two tasks in a phase, the second after the first. -/
theorem reproducesPlan_iff_chain :
    ReproducesPlan true [.sketch 1 .phase none 0 11 [], .sketch 2 .task (some 1) 0 4 [],
        .sketch 3 .task (some 1) 7 11 [2]] ↔
      (∀ t ∈ scheduled [.sketch 1 .phase none 0 11 [], .sketch 2 .task (some 1) 0 4 [],
          .sketch 3 .task (some 1) 7 11 [2]],
        ¬Relation.TransGen (DependsThrough (scheduled [.sketch 1 .phase none 0 11 [],
          .sketch 2 .task (some 1) 0 4 [], .sketch 3 .task (some 1) 7 11 [2]])) t t) ∧
        ∀ t ∈ realTasks (scheduled [.sketch 1 .phase none 0 11 [], .sketch 2 .task (some 1) 0 4 [],
            .sketch 3 .task (some 1) 7 11 [2]]),
          RollupsFit (scheduled [.sketch 1 .phase none 0 11 [], .sketch 2 .task (some 1) 0 4 [],
            .sketch 3 .task (some 1) 7 11 [2]]) t :=
  reproducesPlan_iff true _ (by decide +kernel)
    ((depsAcyclic_iff (by decide +kernel)).mp (by decide +kernel))

/-- A phase extracted as two weeks, with one week of work in it, and a task after the phase: the
    phase's End cell shows the first Friday, and the task's Start is drawn a week early. -/
theorem task_after_a_phase_drifts :
    ¬ReproducesPlan true [.sketch 1 .phase none 0 11 [], .sketch 2 .task (some 1) 0 4 [],
      .sketch 3 .task none 14 18 [1]] := by
  let plan : List Item := [.sketch 1 .phase none 0 11 [], .sketch 2 .task (some 1) 0 4 [],
    .sketch 3 .task none 14 18 [1]]
  have distinct : ((scheduled plan).map (·.id)).Nodup := by decide +kernel
  have late : ∃ t ∈ realTasks (scheduled plan), (∃ p ∈ scheduled plan, p.id ∈ t.dependsOn) ∧
      ∀ p ∈ scheduled plan, p.id ∈ t.dependsOn →
        shownDay (scheduled plan) p t ≠ drivingDay p t := by
    decide +kernel
  intro reproduces
  obtain ⟨t, real, ⟨p, member, named⟩, drifts⟩ := late
  obtain ⟨_, fits⟩ := (shows_iff distinct true (by decide +kernel)).mp
    ((reproducesPlan_iff_shows true distinct).mp reproduces)
  obtain ⟨_, q, ⟨_, member', named'⟩, same⟩ :=
    fits t real ⟨p, (mem_realTasks.mp real).1, member, named⟩
  exact drifts q member' named' same

end GhostPour.Documents
