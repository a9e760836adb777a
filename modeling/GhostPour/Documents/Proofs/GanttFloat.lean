/-
Module: GhostPour.Documents.Proofs.GanttFloat
Layer: Proofs
Purpose: What the Float column says. The late start of a task with dependents is bounded by them
  alone, so its float is the working days from the latest end among the last tasks it leads to up to
  the project finish; a delay moves the project finish as soon as any task it reaches, the task
  itself included, ends past it. The two agree for every task exactly when every task leads to a last
  task that ends no earlier than itself.
Trusted boundary: none
Main exports: Precedes, delayed, KeepsFinish, FloatExact, value_lateStart, value_delayed,
  keepsFinish_iff, FloatsExact, floatsExact_iff
-/
import GhostPour.Documents.Proofs.GanttDates

namespace GhostPour.Documents

variable {tasks : List Dated}

/-- A task or milestone comes before one that depends on it. -/
def Precedes (tasks : List Dated) (t s : Dated) : Prop :=
  t ∈ realTasks tasks ∧ s ∈ realTasks tasks ∧ t.id ∈ s.dependsOn

/-- A task leads to itself and to what comes after it. -/
abbrev LeadsTo (tasks : List Dated) : Dated → Dated → Prop := Relation.ReflTransGen (Precedes tasks)

/-- Nothing comes after a last task. -/
def IsLast (tasks : List Dated) (t : Dated) : Prop := ∀ s, ¬Precedes tasks t s

/-! ### Delaying a task -/

/-- A sheet with one row delayed: its Start some working days after what was written there, its End
    the row's duration after its Start. -/
def delayed (sheet : Sheet Cell) (row : Nat) (t : Dated) (k : Nat) : Sheet Cell := fun c =>
  if c = (.start, row) then (sheet c).map fun f => .workday f (.num k)
  else if c = (.finish, row) then
    some (workdayFormula (cellRef .start row) (workdayOffset t.start t.finish))
  else sheet c

/-- A delay leaves the project finish, the latest End of the tasks, where it was. -/
def KeepsFinish (sheet : Sheet Cell) (row : Nat) (t : Dated) (k : Nat) : Prop :=
  ∃ v, sheet.Value (.projectFinish, 1) v ∧ (delayed sheet row t k).Value (.projectFinish, 1) v

/-- The Float cell of a row is the largest delay that keeps the project finish; it is 0 exactly when
    a delay of one day moves it. -/
def FloatExact (sheet : Sheet Cell) (row : Nat) (t : Dated) : Prop :=
  ∃ k : Nat, sheet.Value (.float, row) k ∧ IsGreatest {n | KeepsFinish sheet row t n} k ∧
    (k = 0 ↔ ¬KeepsFinish sheet row t 1)

/-! ### Tasks and what they lead to -/

theorem Precedes.dependsOn {t s : Dated} (before : Precedes tasks t s) : DependsOn tasks s t :=
  ⟨(mem_realTasks.mp before.2.1).1, (mem_realTasks.mp before.1).1, before.2.2⟩

theorem LeadsTo.real {t u : Dated} (leads : LeadsTo tasks t u) (real : t ∈ realTasks tasks) :
    u ∈ realTasks tasks := by
  cases leads with
  | refl => exact real
  | tail _ step => exact step.2.1

section Float

variable (distinct : (tasks.map (·.id)).Nodup) (acyclic : depsAcyclic tasks = true)
  (noPhase : ∀ t ∈ realTasks tasks, ∀ p, DependsOn tasks t p → p.kind ≠ .phase)

include distinct acyclic

/-- No task leads back to itself. -/
theorem not_leadsTo_pred {t p : Dated} (before : Precedes tasks p t) : ¬LeadsTo tasks t p := by
  intro leads
  have circular : Relation.TransGen (Precedes tasks) t t := Relation.TransGen.tail' leads before
  have depends : Relation.TransGen (DependsOn tasks) t t :=
    Relation.transGen_swap.mp
      (Relation.TransGen.mono (fun _ _ step => Precedes.dependsOn step) t t circular)
  exact (depsAcyclic_iff distinct).mp acyclic t (mem_realTasks.mp before.2.1).1 depends

include noPhase

/-- Without phases among the predecessors the sheet shows the dates of every task. -/
theorem shows_all (detailCols : Bool) : ∀ t ∈ realTasks tasks, Shows tasks detailCols t := by
  refine (shows_iff distinct detailCols acyclic).mpr ⟨fun t member looped => ?_, fun t real some_ => ?_⟩
  · have direct : ∀ t u, DependsThrough tasks t u → DependsOn tasks t u := by
      rintro t u ⟨real, p, depends, ⟨_, rfl⟩ | ⟨phase, _⟩⟩
      · exact depends
      · exact absurd phase (noPhase t real p depends)
    exact (depsAcyclic_iff distinct).mp acyclic t member
      (Relation.TransGen.mono direct t t looped)
  · have own : ∀ p, DependsOn tasks t p → shownDay tasks p t = drivingDay p t := fun p depends => by
      rw [shownDay, if_neg fun rolled => noPhase t real p depends rolled.1]
    obtain ⟨p, depends⟩ := some_
    exact ⟨fun q depends => (own q depends).le, p, depends, own p depends⟩

/-- The project finish is the latest end. -/
theorem value_projectFinish (some_ : realTasks tasks ≠ []) :
    (drawnSheet true tasks).sheet.Value (.projectFinish, 1) (latestEnd (realTasks tasks)) := by
  have written := sheet_project_finish distinct acyclic some_
  have shows := shows_all distinct acyclic noPhase true
  have value := Sheet.Value.of_refs written fun d mentioned => by
    obtain ⟨e, among, mentioned⟩ := Formula.mem_refs_maxOf.mp mentioned
    obtain ⟨t, real, rfl⟩ := List.mem_map.mp among
    cases List.mem_singleton.mp mentioned
    exact ⟨_, (shows t real).2⟩
  have greatest := Formula.isGreatest_maxOf
    (fun none_ => some_ (List.map_eq_nil_iff.mp none_) :
      ((realTasks tasks).map fun t => Formula.ref (cellOf tasks (firstBarRow true) .finish t)) ≠ [])
    (drawnSheet true tasks).sheet.env
  have shown : ((realTasks tasks).map fun t =>
      Formula.ref (cellOf tasks (firstBarRow true) .finish t)).map
        (Formula.eval (drawnSheet true tasks).sheet.env) = (realTasks tasks).map (·.finish) := by
    rw [List.map_map]
    exact List.map_congr_left fun t real => Sheet.env_eq (shows t real).2
  rw [shown] at greatest
  exact greatest.unique (isGreatest_latestEnd some_) ▸ value

/-- The slack a last task leaves: the working days from its end to the project finish. -/
def slackTo (tasks : List Dated) (u : Dated) : Int :=
  workIndex (latestEnd (realTasks tasks)) - workIndex u.finish

/-- The slacks of the last tasks a task leads to. -/
def slacks (tasks : List Dated) (t : Dated) : Set Int :=
  {x | ∃ u, LeadsTo tasks t u ∧ IsLast tasks u ∧ slackTo tasks u = x}

omit acyclic noPhase in
theorem mem_succItems_iff {t s : Dated} (real : t ∈ realTasks tasks) :
    s ∈ succItems tasks t ↔ Precedes tasks t s := by
  rw [mem_succItems distinct (mem_realTasks.mp real).1]
  exact ⟨fun both => ⟨real, both⟩, fun before => before.2⟩

omit distinct acyclic noPhase in
/-- A last task leaves its own slack. -/
theorem isLeast_slacks_last {t : Dated} (last : IsLast tasks t) :
    IsLeast (slacks tasks t) (slackTo tasks t) := by
  constructor
  · exact ⟨t, .refl, last, rfl⟩
  · rintro x ⟨u, leads, _, rfl⟩
    rcases Relation.ReflTransGen.cases_head leads with rfl | ⟨s, before, _⟩
    · exact le_refl _
    · exact absurd before (last s)

omit distinct acyclic noPhase in
/-- A task that is not last leaves the slacks of what comes after it. -/
theorem mem_slacks_iff {t : Dated} (more : ∃ s, Precedes tasks t s) {x : Int} :
    x ∈ slacks tasks t ↔ ∃ s, Precedes tasks t s ∧ x ∈ slacks tasks s := by
  constructor
  · rintro ⟨u, leads, last, rfl⟩
    rcases Relation.ReflTransGen.cases_head leads with rfl | ⟨s, before, leads⟩
    · obtain ⟨s, before⟩ := more
      exact absurd before (last s)
    · exact ⟨s, before, u, leads, last, rfl⟩
  · rintro ⟨s, before, u, leads, last, rfl⟩
    exact ⟨u, .head before leads, last, rfl⟩

omit distinct acyclic noPhase in
/-- The duration of a row, read off its dates. -/
theorem eval_liveDuration {t : Dated} {sheet : Sheet Cell}
    (starts : sheet.Value (cellOf tasks (firstBarRow true) .start t) t.start)
    (ends : sheet.Value (cellOf tasks (firstBarRow true) .finish t) t.finish) :
    (liveDuration (rowAt tasks (firstBarRow true) t.id)).eval sheet.env =
      workIndex t.finish - workIndex t.start := by
  have dates : networkdays t.start t.finish = workIndex t.finish - workIndex t.start + 1 := by
    conv_lhs => rw [← workdayAt_workIndex t.startWorks, ← workdayAt_workIndex t.finishWorks]
    exact networkdays_workdayAt (workIndex_mono t.ordered)
  change networkdays (sheet.env (cellOf tasks (firstBarRow true) .start t))
    (sheet.env (cellOf tasks (firstBarRow true) .finish t)) - 1 = _
  rw [Sheet.env_eq starts, Sheet.env_eq ends, dates, add_sub_cancel_right]

omit distinct acyclic noPhase in
/-- Going back by the duration of a row. -/
theorem eval_back {t : Dated} {sheet : Sheet Cell} {e : Formula Cell} {n : Int}
    (starts : sheet.Value (cellOf tasks (firstBarRow true) .start t) t.start)
    (ends : sheet.Value (cellOf tasks (firstBarRow true) .finish t) t.finish)
    (value : e.eval sheet.env = workdayAt n) :
    (back (rowAt tasks (firstBarRow true) t.id) e).eval sheet.env =
      workdayAt (n - (workIndex t.finish - workIndex t.start)) := by
  rw [back, Formula.eval, Formula.eval, value, eval_liveDuration starts ends, workday_workdayAt]
  rfl

omit distinct acyclic noPhase in
/-- What a dependent whose late start is so many days after its start leaves a task. -/
theorem eval_lateTerm {t s : Dated} {sheet : Sheet Cell} {k : Int}
    (starts : sheet.Value (cellOf tasks (firstBarRow true) .start t) t.start)
    (ends : sheet.Value (cellOf tasks (firstBarRow true) .finish t) t.finish)
    (late : sheet.Value (cellOf tasks (firstBarRow true) .lateStart s) (workdayAt (workIndex s.start + k))) :
    (lateTerm tasks (firstBarRow true) t s).eval sheet.env = workdayAt (workIndex t.start + k) := by
  have theirs : ∀ lag, (workdayFormula
      (cellRef .lateStart (rowAt tasks (firstBarRow true) s.id)) lag).eval sheet.env =
      workdayAt (workIndex s.start + k + lag) := by
    intro lag
    rw [eval_workdayFormula]
    change workday (sheet.env (cellOf tasks (firstBarRow true) .lateStart s)) lag = _
    rw [Sheet.env_eq late, workday_workdayAt]
  unfold lateTerm lateBound
  split
  · rw [theirs, workdayOffset_eq t.startWorks s.startWorks]
    congr 1
    omega
  · rw [eval_back starts ends (theirs _), workdayOffset_eq t.finishWorks s.startWorks]
    congr 1
    omega

/-- The late start is as many working days after the start as the least of these slacks. -/
theorem value_lateStart {t : Dated} (real : t ∈ realTasks tasks) :
    ∃ k, IsLeast (slacks tasks t) k ∧
      (drawnSheet true tasks).sheet.Value (cellOf tasks (firstBarRow true) .lateStart t)
        (workdayAt (workIndex t.start + k)) := by
  have finish := value_projectFinish distinct acyclic noPhase (List.ne_nil_of_mem real)
  have member := (mem_realTasks.mp real).1
  -- down the dependents
  induction acc_dependents distinct acyclic member with
  | intro t _ ih =>
      have written := sheet_late_start distinct acyclic real
      obtain ⟨starts, ends⟩ := shows_all distinct acyclic noPhase true t real
      by_cases more : ∃ s, Precedes tasks t s
      · have each : ∀ s, Precedes tasks t s → ∃ k, IsLeast (slacks tasks s) k ∧
            (drawnSheet true tasks).sheet.Value (cellOf tasks (firstBarRow true) .lateStart s)
              (workdayAt (workIndex s.start + k)) := fun s before =>
          ih s before.dependsOn before.2.1 (mem_realTasks.mp before.2.1).1
        have some_ : succItems tasks t ≠ [] := by
          obtain ⟨s, before⟩ := more
          exact List.ne_nil_of_mem ((mem_succItems_iff distinct real).mpr before)
        have value := Sheet.Value.of_refs written fun d mentioned => by
          rcases refs_lateStart _ mentioned with rfl | rfl | rfl | ⟨s, succ, rfl⟩
          · exact ⟨_, finish⟩
          · exact ⟨_, starts⟩
          · exact ⟨_, ends⟩
          · obtain ⟨k, _, late⟩ := each s ((mem_succItems_iff distinct real).mp succ)
            exact ⟨_, late⟩
        rw [lateStart, if_neg some_] at value
        have least := Formula.isLeast_minOf
          (fun none_ => some_ (List.map_eq_nil_iff.mp none_) :
            (succItems tasks t).map (lateTerm tasks (firstBarRow true) t) ≠ [])
          (drawnSheet true tasks).sheet.env
        obtain ⟨among, bound⟩ := least
        obtain ⟨_, term, same⟩ := List.mem_map.mp among
        obtain ⟨s, succ, rfl⟩ := List.mem_map.mp term
        have before := (mem_succItems_iff distinct real).mp succ
        obtain ⟨k, ⟨attained, below⟩, late⟩ := each s before
        rw [← same, eval_lateTerm starts ends late] at value bound
        refine ⟨k, ⟨(mem_slacks_iff more).mpr ⟨s, before, attained⟩, ?_⟩, value⟩
        intro x slack
        obtain ⟨s', before', slack⟩ := (mem_slacks_iff more).mp slack
        obtain ⟨k', ⟨_, below'⟩, late'⟩ := each s' before'
        have le := bound (List.mem_map.mpr ⟨_, List.mem_map.mpr
          ⟨s', (mem_succItems_iff distinct real).mpr before', rfl⟩, eval_lateTerm starts ends late'⟩)
        rw [workdayAt_le_iff] at le
        exact (by omega : k ≤ k').trans (below' slack)
      · have last : IsLast tasks t := fun s before => more ⟨s, before⟩
        have none_ : succItems tasks t = [] := List.eq_nil_iff_forall_not_mem.mpr fun s succ =>
          last s ((mem_succItems_iff distinct real).mp succ)
        have value := Sheet.Value.of_refs written fun d mentioned => by
          rcases refs_lateStart _ mentioned with rfl | rfl | rfl | ⟨s, succ, rfl⟩
          · exact ⟨_, finish⟩
          · exact ⟨_, starts⟩
          · exact ⟨_, ends⟩
          · exact absurd ((mem_succItems_iff distinct real).mp succ) (last s)
        have works : isWorkday (latestEnd (realTasks tasks)) = true := by
          obtain ⟨u, _, same⟩ :=
            List.mem_map.mp (isGreatest_latestEnd (List.ne_nil_of_mem real)).1
          exact same ▸ u.finishWorks
        have project : (cellRef .projectFinish 1).eval (drawnSheet true tasks).sheet.env =
            workdayAt (workIndex (latestEnd (realTasks tasks))) := by
          rw [workdayAt_workIndex works]
          exact Sheet.env_eq finish
        rw [lateStart, if_pos none_, eval_back starts ends project] at value
        refine ⟨slackTo tasks t, isLeast_slacks_last last, ?_⟩
        rwa [slackTo, show workIndex t.start + (workIndex (latestEnd (realTasks tasks)) -
          workIndex t.finish) = workIndex (latestEnd (realTasks tasks)) -
            (workIndex t.finish - workIndex t.start) by omega]

/-! ### What a delay moves -/

omit distinct acyclic noPhase in
open Classical in
/-- The working days a delay of one task moves another. -/
noncomputable def shift (tasks : List Dated) (t : Dated) (k : Nat) (u : Dated) : Int :=
  if LeadsTo tasks t u then k else 0

omit distinct acyclic noPhase in
theorem shift_of_leadsTo {t u : Dated} {k : Nat} (leads : LeadsTo tasks t u) :
    shift tasks t k u = k := if_pos leads

omit distinct acyclic noPhase in
theorem shift_of_not_leadsTo {t u : Dated} {k : Nat} (apart : ¬LeadsTo tasks t u) :
    shift tasks t k u = 0 := if_neg apart

/-- The sheet with one task delayed. -/
def delayedSheet (tasks : List Dated) (t : Dated) (k : Nat) : Sheet Cell :=
  delayed (drawnSheet true tasks).sheet (rowAt tasks (firstBarRow true) t.id) t k

omit acyclic noPhase in
theorem delayedSheet_start {t : Dated} (real : t ∈ realTasks tasks) (k : Nat) :
    delayedSheet tasks t k (cellOf tasks (firstBarRow true) .start t) =
      some (.workday (taskStart tasks (firstBarRow true) t) (.num k)) := by
  obtain ⟨member, isReal⟩ := mem_realTasks.mp real
  have written := sheet_item distinct true member (Or.inl rfl)
  rw [(itemFormula_real _ isReal).1] at written
  have here : cellOf tasks (firstBarRow true) .start t =
      (.start, rowAt tasks (firstBarRow true) t.id) := rfl
  rw [delayedSheet, delayed, if_pos here, written]
  rfl

omit distinct acyclic noPhase in
theorem delayedSheet_finish (t : Dated) (k : Nat) :
    delayedSheet tasks t k (cellOf tasks (firstBarRow true) .finish t) =
      some (workdayFormula (.ref (cellOf tasks (firstBarRow true) .start t))
        (workdayOffset t.start t.finish)) := by
  have here : cellOf tasks (firstBarRow true) .finish t =
      (.finish, rowAt tasks (firstBarRow true) t.id) := rfl
  rw [delayedSheet, delayed, if_neg (by simp [cellOf]), if_pos here]
  rfl

omit acyclic noPhase in
/-- The cells of other rows stay as they were written. -/
theorem delayedSheet_other {t u : Dated} (member : t ∈ tasks) (member' : u ∈ tasks) (other : u ≠ t)
    (k : Nat) (column : Column) :
    delayedSheet tasks t k (cellOf tasks (firstBarRow true) column u) =
      (drawnSheet true tasks).sheet (cellOf tasks (firstBarRow true) column u) := by
  have row : rowAt tasks (firstBarRow true) u.id ≠ rowAt tasks (firstBarRow true) t.id := fun same =>
    other (rowAt_inj distinct _ member' member same)
  rw [delayedSheet, delayed, if_neg (by simp [cellOf, row]), if_neg (by simp [cellOf, row])]

/-- What the Start formula of a task comes to when its predecessors have moved. -/
theorem eval_taskStart_delayed {t u : Dated} (real : u ∈ realTasks tasks) (k : Nat)
    (before : ∀ p, Precedes tasks p u →
      (delayedSheet tasks t k).Value (cellOf tasks (firstBarRow true) .start p)
          (workdayAt (workIndex p.start + shift tasks t k p)) ∧
        (delayedSheet tasks t k).Value (cellOf tasks (firstBarRow true) .finish p)
          (workdayAt (workIndex p.finish + shift tasks t k p))) {m : Int}
    (moved : ∀ p, Precedes tasks p u → shift tasks t k p ≤ m)
    (attained : (∃ p, Precedes tasks p u ∧ shift tasks t k p = m) ∨
      (m = 0 ∧ ∀ p, ¬Precedes tasks p u)) :
    (∀ d ∈ (taskStart tasks (firstBarRow true) u).refs, ∃ v, (delayedSheet tasks t k).Value d v) ∧
      (taskStart tasks (firstBarRow true) u).eval (delayedSheet tasks t k).env =
        workdayAt (workIndex u.start + m) := by
  have member := (mem_realTasks.mp real).1
  have preds_iff : ∀ p, p ∈ preds tasks u ↔ Precedes tasks p u := by
    intro p
    rw [mem_preds distinct member]
    constructor
    · rintro ⟨member', named⟩
      exact ⟨mem_realTasks.mpr ⟨member', noPhase u real p ⟨member, member', named⟩⟩, real, named⟩
    · rintro ⟨real', _, named⟩
      exact ⟨(mem_realTasks.mp real').1, named⟩
  have driver : ∀ p, Precedes tasks p u → (delayedSheet tasks t k).Value
      (cellOf tasks (firstBarRow true) (drivingColumn p u) p)
      (workdayAt (workIndex (drivingDay p u) + shift tasks t k p)) := by
    intro p earlier
    obtain ⟨starts, ends⟩ := before p earlier
    cases code : depCode p u with
    | SS => simpa only [drivingColumn, drivingDay, code] using starts
    | FF => simpa only [drivingColumn, drivingDay, code] using ends
    | FS => simpa only [drivingColumn, drivingDay, code] using ends
  have term : ∀ p, Precedes tasks p u →
      (driverTerm tasks (firstBarRow true) u p).eval (delayedSheet tasks t k).env =
        workdayAt (workIndex u.start + shift tasks t k p) := by
    intro p earlier
    rw [driverTerm, eval_workdayFormula, Formula.eval, Sheet.env_eq (driver p earlier),
      workday_workdayAt, workdayOffset_eq (drivingDay_works p u) u.startWorks]
    congr 1
    omega
  refine ⟨fun d mentioned => ?_, ?_⟩
  · obtain ⟨_, p, pred, rfl⟩ := (mem_refs_taskStart _).mp mentioned
    exact ⟨_, driver p ((preds_iff p).mp pred)⟩
  · by_cases driven : Driven tasks u
    · rw [taskStart, if_pos driven]
      have greatest := Formula.isGreatest_maxOf
        (fun none_ => driven.2 (List.map_eq_nil_iff.mp none_) :
          (preds tasks u).map (driverTerm tasks (firstBarRow true) u) ≠ [])
        (delayedSheet tasks t k).env
      refine greatest.unique ⟨?_, ?_⟩
      · rcases attained with ⟨p, earlier, rfl⟩ | ⟨_, none_⟩
        · exact List.mem_map.mpr ⟨_, List.mem_map.mpr ⟨p, (preds_iff p).mpr earlier, rfl⟩,
            term p earlier⟩
        · obtain ⟨p, pred⟩ := List.exists_mem_of_ne_nil _ driven.2
          exact absurd ((preds_iff p).mp pred) (none_ p)
      · intro v among
        have among : v ∈ ((preds tasks u).map (driverTerm tasks (firstBarRow true) u)).map
            (Formula.eval (delayedSheet tasks t k).env) := among
        rw [List.map_map] at among
        obtain ⟨p, pred, rfl⟩ := List.mem_map.mp among
        have earlier := (preds_iff p).mp pred
        rw [Function.comp_apply, term p earlier, workdayAt_le_iff]
        exact Int.add_le_add_left (moved p earlier) _
    · rw [taskStart, if_neg driven]
      rcases attained with ⟨p, earlier, _⟩ | ⟨rfl, _⟩
      · exact absurd ⟨acyclic, List.ne_nil_of_mem ((preds_iff p).mpr earlier)⟩ driven
      · rw [add_zero, workdayAt_workIndex u.startWorks]
        rfl

/-- In the delayed sheet the tasks the delayed one leads to have moved with it, and no others. -/
theorem value_delayed {t : Dated} (real : t ∈ realTasks tasks) (k : Nat) {u : Dated}
    (real' : u ∈ realTasks tasks) :
    (delayedSheet tasks t k).Value (cellOf tasks (firstBarRow true) .start u)
        (workdayAt (workIndex u.start + shift tasks t k u)) ∧
      (delayedSheet tasks t k).Value (cellOf tasks (firstBarRow true) .finish u)
        (workdayAt (workIndex u.finish + shift tasks t k u)) := by
  have member := (mem_realTasks.mp real).1
  -- along the dependencies
  induction acc_dependsOn distinct acyclic (mem_realTasks.mp real').1 with
  | intro u _ ih =>
      obtain ⟨member', isReal⟩ := mem_realTasks.mp real'
      have before : ∀ p, Precedes tasks p u →
          (delayedSheet tasks t k).Value (cellOf tasks (firstBarRow true) .start p)
              (workdayAt (workIndex p.start + shift tasks t k p)) ∧
            (delayedSheet tasks t k).Value (cellOf tasks (firstBarRow true) .finish p)
              (workdayAt (workIndex p.finish + shift tasks t k p)) :=
        fun p earlier => ih p earlier.dependsOn earlier.1
      by_cases self : u = t
      · subst self
        have apart : ∀ p, Precedes tasks p u → shift tasks u k p = 0 := fun p earlier =>
          shift_of_not_leadsTo (not_leadsTo_pred distinct acyclic earlier)
        have attained : (∃ p, Precedes tasks p u ∧ shift tasks u k p = 0) ∨
            ((0 : Int) = 0 ∧ ∀ p, ¬Precedes tasks p u) := by
          by_cases some_ : ∃ p, Precedes tasks p u
          · obtain ⟨p, earlier⟩ := some_
            exact Or.inl ⟨p, earlier, apart p earlier⟩
          · exact Or.inr ⟨rfl, fun p earlier => some_ ⟨p, earlier⟩⟩
        obtain ⟨settled, value⟩ := eval_taskStart_delayed distinct acyclic noPhase real' k before
          (fun p earlier => (apart p earlier).le) attained
        have starts := Sheet.Value.of_refs (delayedSheet_start distinct real' k) fun d mentioned =>
          settled d (by simpa [Formula.refs] using mentioned)
        rw [Formula.eval, value, Formula.eval, workday_workdayAt, add_zero] at starts
        have ends := Sheet.Value.of_refs (delayedSheet_finish u k) fun d mentioned => by
          rw [refs_workdayFormula] at mentioned
          cases List.mem_singleton.mp mentioned
          exact ⟨_, starts⟩
        rw [eval_workdayFormula, Formula.eval, Sheet.env_eq starts, workday_workdayAt,
          workdayOffset_eq u.startWorks u.finishWorks] at ends
        rw [shift_of_leadsTo .refl]
        refine ⟨starts, ?_⟩
        rwa [show workIndex u.start + (k : Int) + (workIndex u.finish - workIndex u.start) =
          workIndex u.finish + k by omega] at ends
      · have comes : LeadsTo tasks t u ↔ ∃ p, Precedes tasks p u ∧ LeadsTo tasks t p := by
          constructor
          · intro leads
            rcases Relation.ReflTransGen.cases_tail leads with same | ⟨p, leads, earlier⟩
            · exact absurd same self
            · exact ⟨p, earlier, leads⟩
          · rintro ⟨p, earlier, leads⟩
            exact leads.tail earlier
        have attained : (∃ p, Precedes tasks p u ∧ shift tasks t k p = shift tasks t k u) ∨
            (shift tasks t k u = 0 ∧ ∀ p, ¬Precedes tasks p u) := by
          by_cases leads : LeadsTo tasks t u
          · obtain ⟨p, earlier, leads'⟩ := comes.mp leads
            exact Or.inl ⟨p, earlier, (shift_of_leadsTo leads').trans (shift_of_leadsTo leads).symm⟩
          · by_cases some_ : ∃ p, Precedes tasks p u
            · obtain ⟨p, earlier⟩ := some_
              have apart : ¬LeadsTo tasks t p := fun leads' => leads (leads'.tail earlier)
              exact Or.inl ⟨p, earlier,
                (shift_of_not_leadsTo apart).trans (shift_of_not_leadsTo leads).symm⟩
            · exact Or.inr ⟨shift_of_not_leadsTo leads, fun p earlier => some_ ⟨p, earlier⟩⟩
        have moved : ∀ p, Precedes tasks p u → shift tasks t k p ≤ shift tasks t k u := by
          intro p earlier
          by_cases leads : LeadsTo tasks t p
          · rw [shift_of_leadsTo leads, shift_of_leadsTo (leads.tail earlier)]
          · rw [shift_of_not_leadsTo leads]
            unfold shift
            split
            · exact Int.natCast_nonneg k
            · exact le_refl _
        obtain ⟨settled, value⟩ :=
          eval_taskStart_delayed distinct acyclic noPhase real' k before moved attained
        have startWritten := sheet_item distinct true member' (Or.inl rfl)
        have finishWritten := sheet_item distinct true member' (Or.inr rfl)
        rw [← delayedSheet_other distinct member member' self k] at startWritten finishWritten
        rw [(itemFormula_real _ isReal).1] at startWritten
        rw [(itemFormula_real _ isReal).2] at finishWritten
        have starts := Sheet.Value.of_refs startWritten settled
        rw [value] at starts
        have ends := Sheet.Value.of_refs finishWritten fun d mentioned => by
          obtain ⟨_, rfl⟩ := (mem_refs_taskFinish _).mp mentioned
          exact ⟨_, starts⟩
        refine ⟨starts, ?_⟩
        by_cases driven : Driven tasks u
        · rw [taskFinish, if_pos driven, eval_workdayFormula, Formula.eval, Sheet.env_eq starts,
            workday_workdayAt, workdayOffset_eq u.startWorks u.finishWorks] at ends
          rwa [show workIndex u.start + shift tasks t k u + (workIndex u.finish - workIndex u.start) =
            workIndex u.finish + shift tasks t k u by omega] at ends
        · have apart : ¬LeadsTo tasks t u := fun leads => by
            obtain ⟨p, earlier, _⟩ := comes.mp leads
            exact driven ⟨acyclic, List.ne_nil_of_mem ((mem_preds distinct member').mpr
              ⟨(mem_realTasks.mp earlier.1).1, earlier.2.2⟩)⟩
          rw [taskFinish, if_neg driven] at ends
          rw [shift_of_not_leadsTo apart, add_zero, workdayAt_workIndex u.finishWorks]
          exact ends

omit distinct acyclic noPhase in
theorem latestEnd_works (some_ : realTasks tasks ≠ []) :
    isWorkday (latestEnd (realTasks tasks)) = true := by
  obtain ⟨u, _, same⟩ := List.mem_map.mp (isGreatest_latestEnd some_).1
  exact same ▸ u.finishWorks

omit distinct acyclic noPhase in
/-- No task ends after the project finish. -/
theorem slackTo_nonneg {u : Dated} (real : u ∈ realTasks tasks) : 0 ≤ slackTo tasks u := by
  have le := (isGreatest_latestEnd (List.ne_nil_of_mem real)).2 (List.mem_map.mpr ⟨u, real, rfl⟩)
  exact sub_nonneg.mpr (workIndex_mono le)

/-- A delay keeps the project finish exactly when no task it reaches ends past it. -/
theorem keepsFinish_iff {t : Dated} (real : t ∈ realTasks tasks) (k : Nat) :
    KeepsFinish (drawnSheet true tasks).sheet (rowAt tasks (firstBarRow true) t.id) t k ↔
      ∀ u, LeadsTo tasks t u → (k : Int) ≤ slackTo tasks u := by
  have some_ := List.ne_nil_of_mem real
  have finish := value_projectFinish distinct acyclic noPhase some_
  have moved := fun u => value_delayed distinct acyclic noPhase real k (u := u)
  have written : delayedSheet tasks t k (.projectFinish, 1) =
      some (projectFinish tasks (firstBarRow true)) := by
    rw [delayedSheet, delayed, if_neg (by simp), if_neg (by simp)]
    exact sheet_project_finish distinct acyclic some_
  have value := Sheet.Value.of_refs written fun d mentioned => by
    obtain ⟨e, among, mentioned⟩ := Formula.mem_refs_maxOf.mp mentioned
    obtain ⟨u, real', rfl⟩ := List.mem_map.mp among
    cases List.mem_singleton.mp mentioned
    exact ⟨_, (moved u real').2⟩
  have greatest := Formula.isGreatest_maxOf
    (fun none_ => some_ (List.map_eq_nil_iff.mp none_) :
      ((realTasks tasks).map fun t => Formula.ref (cellOf tasks (firstBarRow true) .finish t)) ≠ [])
    (delayedSheet tasks t k).env
  have ends : ((realTasks tasks).map fun t =>
      Formula.ref (cellOf tasks (firstBarRow true) .finish t)).map
        (Formula.eval (delayedSheet tasks t k).env) =
      (realTasks tasks).map fun u => workdayAt (workIndex u.finish + shift tasks t k u) := by
    rw [List.map_map]
    exact List.map_congr_left fun u real' => Sheet.env_eq (moved u real').2
  rw [ends] at greatest
  change IsGreatest _ ((projectFinish tasks (firstBarRow true)).eval _) at greatest
  have project : latestEnd (realTasks tasks) = workdayAt (workIndex (latestEnd (realTasks tasks))) :=
    (workdayAt_workIndex (latestEnd_works some_)).symm
  constructor
  · rintro ⟨v, kept, kept'⟩ u leads
    rw [Sheet.value_unique value kept', ← Sheet.value_unique finish kept, project] at greatest
    have le := greatest.2 (List.mem_map.mpr ⟨u, leads.real real, rfl⟩)
    rw [shift_of_leadsTo leads, workdayAt_le_iff] at le
    exact le_sub_iff_add_le'.mpr le
  · intro fits
    refine ⟨_, finish, ?_⟩
    have latest : IsGreatest {v | v ∈ (realTasks tasks).map fun u =>
        workdayAt (workIndex u.finish + shift tasks t k u)} (latestEnd (realTasks tasks)) := by
      rw [project]
      constructor
      · obtain ⟨m, real', last⟩ := List.mem_map.mp (isGreatest_latestEnd some_).1
        refine List.mem_map.mpr ⟨m, real', ?_⟩
        have zero : shift tasks t k m = 0 := by
          by_cases leads : LeadsTo tasks t m
          · have le := fits m leads
            rw [slackTo, ← last, sub_self] at le
            rw [shift_of_leadsTo leads]
            exact le_antisymm le (Int.natCast_nonneg k)
          · exact shift_of_not_leadsTo leads
        rw [zero, add_zero, last]
      · intro v among
        obtain ⟨u, real', rfl⟩ := List.mem_map.mp
          (among : v ∈ (realTasks tasks).map fun u => workdayAt (workIndex u.finish + shift tasks t k u))
        rw [workdayAt_le_iff]
        by_cases leads : LeadsTo tasks t u
        · rw [shift_of_leadsTo leads]
          exact le_sub_iff_add_le'.mp (fits u leads)
        · rw [shift_of_not_leadsTo leads, add_zero]
          exact sub_nonneg.mp (slackTo_nonneg real')
    exact greatest.unique latest ▸ value

/-- The Float cell shows the least slack of the last tasks a task leads to. -/
theorem value_float {t : Dated} (real : t ∈ realTasks tasks) :
    ∃ k : Nat, IsLeast (slacks tasks t) k ∧
      (drawnSheet true tasks).sheet.Value (cellOf tasks (firstBarRow true) .float t) k := by
  obtain ⟨k, least, late⟩ := value_lateStart distinct acyclic noPhase real
  obtain ⟨u, leads, _, rfl⟩ := least.1
  obtain ⟨n, same⟩ := Int.eq_ofNat_of_zero_le (slackTo_nonneg (leads.real real))
  rw [same] at least late
  have starts := (shows_all distinct acyclic noPhase true t real).1
  have value := Sheet.Value.of_refs (sheet_float distinct acyclic real) fun d mentioned => by
    simp only [floatFormula, Formula.refs, List.mem_append, List.mem_singleton, List.not_mem_nil,
      or_false] at mentioned
    rcases mentioned with rfl | rfl
    · exact ⟨_, starts⟩
    · exact ⟨_, late⟩
  have days : networkdays t.start (workdayAt (workIndex t.start + n)) = n + 1 := by
    conv_lhs => rw [← workdayAt_workIndex t.startWorks, workIndex_workdayAt]
    rw [networkdays_workdayAt (by omega)]
    omega
  refine ⟨n, least, ?_⟩
  simp only [floatFormula, Formula.eval, Sheet.env_eq starts, Sheet.env_eq late, days,
    add_sub_cancel_right] at value
  exact value

/-- The float of a task is exact when the last tasks it leads to are as late as all it leads to. -/
theorem floatExact_iff {t : Dated} (real : t ∈ realTasks tasks) :
    FloatExact (drawnSheet true tasks).sheet (rowAt tasks (firstBarRow true) t.id) t ↔
      ∀ v, LeadsTo tasks t v → ∃ u, LeadsTo tasks t u ∧ IsLast tasks u ∧ v.finish ≤ u.finish := by
  obtain ⟨n, least, value⟩ := value_float distinct acyclic noPhase real
  have keeps := keepsFinish_iff distinct acyclic noPhase real
  have later : ∀ {u v : Dated}, slackTo tasks u ≤ slackTo tasks v ↔ v.finish ≤ u.finish := by
    intro u v
    rw [← workIndex_le_iff v.finishWorks u.finishWorks, slackTo, slackTo]
    omega
  obtain ⟨u, leads, last, slack⟩ := least.1
  constructor
  · rintro ⟨k, value', ⟨kept, _⟩, _⟩ v leads'
    have same : (k : Int) = n := Sheet.value_unique value' value
    have le := (keeps k).mp kept v leads'
    rw [same, ← slack] at le
    exact ⟨u, leads, last, later.mp le⟩
  · intro lasts
    have kept : ∀ m : Nat, KeepsFinish (drawnSheet true tasks).sheet
        (rowAt tasks (firstBarRow true) t.id) t m ↔ m ≤ n := by
      intro m
      rw [keeps]
      constructor
      · intro fits
        have le := fits u leads
        rw [slack] at le
        exact Int.ofNat_le.mp le
      · intro le v leads'
        obtain ⟨w, leads'', last', end_⟩ := lasts v leads'
        exact (Int.ofNat_le.mpr le).trans ((least.2 ⟨w, leads'', last', rfl⟩).trans (later.mpr end_))
    refine ⟨n, value, ⟨(kept n).mpr le_rfl, fun m member => (kept m).mp member⟩, ?_⟩
    rw [kept]
    omega

end Float

/-! ### When every float is exact -/

/-- Every Float cell of the built sheet is exact; nothing but a plan without dated items stops the
    build. -/
def FloatsExact (plan : List Item) : Prop :=
  match buildGanttWb true (scheduled plan) with
  | .ok ws => ∀ r ∈ ws.rows, r.2.kind ≠ .phase → FloatExact ws.sheet r.1 r.2
  | .error e => e = .noTasks ∧ scheduled plan = []

theorem floatsExact_iff_items {plan : List Item} (distinct : ((scheduled plan).map (·.id)).Nodup) :
    FloatsExact plan ↔ ∀ t ∈ realTasks (scheduled plan),
      FloatExact (drawnSheet true (scheduled plan)).sheet
        (rowAt (scheduled plan) (firstBarRow true) t.id) t := by
  unfold FloatsExact
  by_cases none_ : scheduled plan = []
  · rw [none_]
    exact iff_of_true ⟨rfl, rfl⟩ fun _ real => absurd real List.not_mem_nil
  · rw [build_of_distinct true none_ distinct]
    constructor
    · intro rows t real
      obtain ⟨member, isReal⟩ := mem_realTasks.mp real
      exact rows (_, t) (mem_drawnSheet_rows.mpr (slot_of_mem distinct _ member)) isReal
    · rintro exact_ ⟨r, t⟩ drawn isReal
      have slot := mem_drawnSheet_rows.mp drawn
      have shown := exact_ t (mem_realTasks.mpr ⟨mem_of_slot distinct _ slot, isReal⟩)
      rwa [rowAt_of_slot distinct _ slot] at shown

/-- A repeated id leaves no sheet at all. -/
theorem not_floatsExact_of_repeated {plan : List Item}
    (repeated : ¬((scheduled plan).map (·.id)).Nodup) : ¬FloatsExact plan := by
  have some_ : scheduled plan ≠ [] := by
    rintro none_
    rw [none_] at repeated
    exact repeated List.nodup_nil
  unfold FloatsExact
  rw [buildGanttWb_eq true some_, if_neg fun placed => repeated ((placed_iff _).mp placed)]
  exact fun stops => some_ stops.2

/-- With dependencies that have no cycle and no phase among the predecessors, every float is exact
    when the dated items have distinct ids and every task leads to a last task that ends no earlier
    than itself, and only then. -/
theorem floatsExact_iff (plan : List Item)
    (acyclic : ∀ t ∈ scheduled plan, ¬Relation.TransGen (DependsOn (scheduled plan)) t t)
    (noPhase : ∀ t ∈ scheduled plan, ∀ p, DependsOn (scheduled plan) t p → p.kind ≠ .phase) :
    FloatsExact plan ↔ ((plan.filter Item.hasDates).map (·.id)).Nodup ∧
      ∀ t ∈ realTasks (scheduled plan), ∃ u, LeadsTo (scheduled plan) t u ∧
        IsLast (scheduled plan) u ∧ t.finish ≤ u.finish := by
  rw [← scheduled_ids]
  by_cases distinct : ((scheduled plan).map (·.id)).Nodup
  · have checked := (depsAcyclic_iff distinct).mpr acyclic
    have noPhase' : ∀ t ∈ realTasks (scheduled plan), ∀ p, DependsOn (scheduled plan) t p →
        p.kind ≠ .phase := fun t real => noPhase t (mem_realTasks.mp real).1
    rw [floatsExact_iff_items distinct, and_iff_right distinct]
    constructor
    · intro exact_ t real
      exact (floatExact_iff distinct checked noPhase' real).mp (exact_ t real) t .refl
    · intro lasts t real
      refine (floatExact_iff distinct checked noPhase' real).mpr fun v leads => ?_
      obtain ⟨u, leads', last, end_⟩ := lasts v (leads.real real)
      exact ⟨u, leads.trans leads', last, end_⟩
  · exact iff_of_false (not_floatsExact_of_repeated distinct) fun both => distinct both.1

/-- A phase of two tasks, the second after the first. -/
theorem floatsExact_iff_chain :
    FloatsExact [.sketch 1 .phase none 0 11 [], .sketch 2 .task (some 1) 0 4 [],
        .sketch 3 .task (some 1) 7 11 [2]] ↔
      (([.sketch 1 .phase none 0 11 [], .sketch 2 .task (some 1) 0 4 [],
        .sketch 3 .task (some 1) 7 11 [2]].filter Item.hasDates).map (·.id)).Nodup ∧
      ∀ t ∈ realTasks (scheduled [.sketch 1 .phase none 0 11 [], .sketch 2 .task (some 1) 0 4 [],
          .sketch 3 .task (some 1) 7 11 [2]]),
        ∃ u, LeadsTo (scheduled [.sketch 1 .phase none 0 11 [], .sketch 2 .task (some 1) 0 4 [],
            .sketch 3 .task (some 1) 7 11 [2]]) t u ∧
          IsLast (scheduled [.sketch 1 .phase none 0 11 [], .sketch 2 .task (some 1) 0 4 [],
            .sketch 3 .task (some 1) 7 11 [2]]) u ∧ t.finish ≤ u.finish := by
  have unphased : ∀ t ∈ scheduled [.sketch 1 .phase none 0 11 [], .sketch 2 .task (some 1) 0 4 [],
      .sketch 3 .task (some 1) 7 11 [2]], ∀ p ∈ scheduled [.sketch 1 .phase none 0 11 [],
        .sketch 2 .task (some 1) 0 4 [], .sketch 3 .task (some 1) 7 11 [2]],
      p.id ∈ t.dependsOn → p.kind ≠ .phase := by
    decide +kernel
  exact floatsExact_iff _ ((depsAcyclic_iff (by decide +kernel)).mp (by decide +kernel))
    fun t member p depends => unphased t member p depends.2.1 depends.2.2

/-- A week of work and a two-day task that starts with it and depends on it: the late start of the
    week is bounded by the two days alone, and its Float cell offers three days where one moves the
    project finish. -/
theorem float_of_a_longer_predecessor :
    ¬FloatsExact [.sketch 1 .phase none 0 4 [], .sketch 2 .task (some 1) 0 4 [],
      .sketch 3 .task (some 1) 0 1 [2]] := by
  let plan : List Item := [.sketch 1 .phase none 0 4 [], .sketch 2 .task (some 1) 0 4 [],
    .sketch 3 .task (some 1) 0 1 [2]]
  have distinct : ((scheduled plan).map (·.id)).Nodup := by decide +kernel
  have checked : depsAcyclic (scheduled plan) = true := by decide +kernel
  have unphased : ∀ t ∈ realTasks (scheduled plan), ∀ p ∈ scheduled plan,
      p.id ∈ t.dependsOn → p.kind ≠ .phase := by
    decide +kernel
  -- the only task that nothing comes after ends on Tuesday
  have longer : ∃ t ∈ realTasks (scheduled plan), ∀ u ∈ realTasks (scheduled plan),
      (∀ s ∈ realTasks (scheduled plan), u.id ∉ s.dependsOn) → u.finish < t.finish := by
    decide +kernel
  intro floats
  obtain ⟨t, real, shorter⟩ := longer
  have exact_ := (floatsExact_iff_items distinct).mp floats t real
  obtain ⟨u, leads, last, late⟩ := (floatExact_iff distinct checked
    (fun t real p depends => unphased t real p depends.2.1 depends.2.2) real).mp exact_ t .refl
  have real' := LeadsTo.real leads real
  have early := shorter u real' fun s among named => last s ⟨real', among, named⟩
  exact absurd late (not_le.mpr early)

end GhostPour.Documents
