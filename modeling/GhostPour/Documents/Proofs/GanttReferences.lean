/-
Module: GhostPour.Documents.Proofs.GanttReferences
Layer: Proofs
Purpose: Circular references in the Gantt View. The builder checks the dependencies for cycles, but
  a phase that is depended on is a rollup over its children, so what a Start cell follows is the
  dependencies read through the phases. A built sheet has a circular reference exactly when the
  dependencies have no cycle and a task depends on itself through phases.
Trusted boundary: none
Main exports: DependsThrough, acyclic_of_items, acc_item, circular_of_through,
  noCircularReferences_iff
-/
import GhostPour.Documents.Proofs.GanttCells

namespace GhostPour.Documents

variable {tasks : List Dated}

/-- A task or milestone depends on another item of its kind, named itself or through its phase. -/
def DependsThrough (tasks : List Dated) (t u : Dated) : Prop :=
  t ∈ realTasks tasks ∧ ∃ p, DependsOn tasks t p ∧
    ((p.kind ≠ .phase ∧ u = p) ∨ (p.kind = .phase ∧ u ∈ children tasks p.id))

theorem mem_children {pid : Int} {k : Dated} :
    k ∈ children tasks pid ↔ k ∈ realTasks tasks ∧ k.parentId = some pid := by
  rw [children, List.mem_filter, mem_realTasks, decide_eq_true_iff, and_assoc]

theorem DependsThrough.real {t u : Dated} (through : DependsThrough tasks t u) :
    u ∈ realTasks tasks := by
  obtain ⟨_, p, depends, ⟨real, rfl⟩ | ⟨_, kid⟩⟩ := through
  · exact mem_realTasks.mpr ⟨depends.2.1, real⟩
  · exact (mem_children.mp kid).1

/-! ### The cells a formula mentions -/

section Mentions

variable (first : Nat)

@[simp] theorem refs_workdayFormula (e : Formula Cell) (k : Int) :
    (workdayFormula e k).refs = e.refs := by
  unfold workdayFormula
  split
  · rfl
  · simp [Formula.refs]

theorem drivingColumn_cases (p t : Dated) :
    drivingColumn p t = .start ∨ drivingColumn p t = .finish := by
  unfold drivingColumn
  split
  · exact Or.inl rfl
  · exact Or.inr rfl

theorem mem_refs_taskStart {t : Dated} {d : Cell} :
    d ∈ (taskStart tasks first t).refs ↔
      Driven tasks t ∧ ∃ p ∈ preds tasks t, d = cellOf tasks first (drivingColumn p t) p := by
  unfold taskStart
  by_cases driven : Driven tasks t
  · rw [if_pos driven, Formula.mem_refs_maxOf]
    simp [driven, driverTerm, Formula.refs]
  · rw [if_neg driven]
    simp [driven, Formula.refs]

theorem mem_refs_taskFinish {t : Dated} {d : Cell} :
    d ∈ (taskFinish tasks first t).refs ↔ Driven tasks t ∧ d = cellOf tasks first .start t := by
  unfold taskFinish
  by_cases driven : Driven tasks t
  · rw [if_pos driven]
    simp [driven, Formula.refs]
  · rw [if_neg driven]
    simp [driven, Formula.refs]

theorem mem_refs_phaseStart {p : Dated} {d : Cell} :
    d ∈ (phaseStart tasks first p).refs ↔
      RolledUp tasks p ∧ ∃ k ∈ children tasks p.id, d = cellOf tasks first .start k := by
  unfold phaseStart
  by_cases rolled : RolledUp tasks p
  · rw [if_pos rolled, Formula.mem_refs_minOf]
    simp [rolled, Formula.refs]
  · rw [if_neg rolled]
    simp [rolled, Formula.refs]

theorem mem_refs_phaseFinish {p : Dated} {d : Cell} :
    d ∈ (phaseFinish tasks first p).refs ↔
      RolledUp tasks p ∧ ∃ k ∈ children tasks p.id, d = cellOf tasks first .finish k := by
  unfold phaseFinish
  by_cases rolled : RolledUp tasks p
  · rw [if_pos rolled, Formula.mem_refs_maxOf]
    simp [rolled, Formula.refs]
  · rw [if_neg rolled]
    simp [rolled, Formula.refs]

theorem itemFormula_phase {p : Dated} (phase : p.kind = .phase) :
    itemFormula tasks first .start p = phaseStart tasks first p ∧
      itemFormula tasks first .finish p = phaseFinish tasks first p := by
  simp only [itemFormula, phase, and_self]

theorem itemFormula_real {t : Dated} (real : t.kind ≠ .phase) :
    itemFormula tasks first .start t = taskStart tasks first t ∧
      itemFormula tasks first .finish t = taskFinish tasks first t := by
  cases kind : t.kind with
  | phase => exact absurd kind real
  | task => simp only [itemFormula, kind, and_self]
  | milestone => simp only [itemFormula, kind, and_self]

theorem refs_lateStart {t : Dated} {d : Cell} (mentioned : d ∈ (lateStart tasks first t).refs) :
    d = (.projectFinish, 1) ∨ d = cellOf tasks first .start t ∨ d = cellOf tasks first .finish t ∨
      ∃ s ∈ succItems tasks t, d = cellOf tasks first .lateStart s := by
  unfold lateStart at mentioned
  by_cases last : succItems tasks t = []
  · rw [if_pos last] at mentioned
    simp only [back, liveDuration, cellRef, Formula.refs, List.mem_append, List.mem_singleton,
      List.not_mem_nil, or_false] at mentioned
    tauto
  · rw [if_neg last] at mentioned
    obtain ⟨e, among, mentioned⟩ := Formula.mem_refs_minOf.mp mentioned
    obtain ⟨s, succ, rfl⟩ := List.mem_map.mp among
    have own : d ∈ (cellRef .lateStart (rowAt tasks first s.id)).refs ∨
        d ∈ (liveDuration (rowAt tasks first t.id)).refs := by
      unfold lateTerm lateBound at mentioned
      split at mentioned
      · rw [refs_workdayFormula] at mentioned
        exact Or.inl mentioned
      · simpa [back, Formula.refs] using mentioned
    rcases own with theirs | mine
    · exact Or.inr (Or.inr (Or.inr ⟨s, succ, List.mem_singleton.mp theirs⟩))
    · simp only [liveDuration, cellRef, Formula.refs, List.mem_append, List.mem_singleton,
        List.not_mem_nil, or_false] at mine
      exact mine.elim (fun here => Or.inr (Or.inl here)) fun here => Or.inr (Or.inr (Or.inl here))

end Mentions

/-- Dependents of dependents come to an end as well. -/
theorem acc_dependents (distinct : (tasks.map (·.id)).Nodup) (acyclic : depsAcyclic tasks = true)
    {t : Dated} (member : t ∈ tasks) : Acc (fun s t => DependsOn tasks s t) t := by
  refine acc_of_acyclic (r := fun t s => DependsOn tasks s t) (fun _ _ _ depends => depends.1) ?_ member
  intro t member circular
  exact (depsAcyclic_iff distinct).mp acyclic t member (Relation.transGen_swap.mp circular)

/-! ### References that come to an end -/

section Ends

variable (distinct : (tasks.map (·.id)).Nodup) (detailCols : Bool)

/-- References from a cell of the built sheet come to an end. -/
def Ends (tasks : List Dated) (detailCols : Bool) (c : Cell) : Prop :=
  Acc (fun d c => (drawnSheet detailCols tasks).sheet.Refers c d) c

theorem ends_of_refs {c : Cell}
    (ends : ∀ f, (drawnSheet detailCols tasks).sheet c = some f → ∀ d ∈ f.refs, Ends tasks detailCols d) :
    Ends tasks detailCols c :=
  ⟨_, fun d ⟨f, written, mentioned⟩ => ends f written d mentioned⟩

include distinct

/-- References end everywhere when they end at the items' cells. -/
theorem acyclic_of_items
    (ends : ∀ t ∈ tasks, Ends tasks detailCols (cellOf tasks (firstBarRow detailCols) .start t) ∧
      Ends tasks detailCols (cellOf tasks (firstBarRow detailCols) .finish t)) :
    (drawnSheet detailCols tasks).sheet.Acyclic := by
  have finish : depsAcyclic tasks = true → detailCols = true → realTasks tasks ≠ [] →
      Ends tasks detailCols (.projectFinish, 1) := by
    rintro acyclic rfl some_
    refine ends_of_refs true fun f written d mentioned => ?_
    cases (sheet_project_finish distinct acyclic some_).symm.trans written
    obtain ⟨e, among, mentioned⟩ := Formula.mem_refs_maxOf.mp mentioned
    obtain ⟨t, real, rfl⟩ := List.mem_map.mp among
    cases List.mem_singleton.mp mentioned
    exact (ends t (mem_realTasks.mp real).1).2
  have late : depsAcyclic tasks = true → detailCols = true → ∀ t ∈ realTasks tasks,
      Ends tasks detailCols (cellOf tasks (firstBarRow detailCols) .lateStart t) := by
    rintro acyclic rfl t real
    have member := (mem_realTasks.mp real).1
    -- down the dependents, which come to an end as the dependencies have no cycle
    induction acc_dependents distinct acyclic member with
    | intro t _ ih =>
        refine ends_of_refs true fun f written d mentioned => ?_
        cases (sheet_late_start distinct acyclic real).symm.trans written
        rcases refs_lateStart _ mentioned with rfl | rfl | rfl | ⟨s, succ, rfl⟩
        · exact finish acyclic rfl (List.ne_nil_of_mem real)
        · exact (ends t member).1
        · exact (ends t member).2
        · obtain ⟨real', named⟩ := (mem_succItems distinct member).mp succ
          have member' := (mem_realTasks.mp real').1
          exact ih s ⟨member', member, named⟩ real' member'
  refine Sheet.acyclic_of_acc fun c => ends_of_refs detailCols fun f written d mentioned => ?_
  rcases sheet_cases distinct detailCols written with project | ⟨t, member, item⟩ | ⟨acyclic, rfl, floats⟩
  · obtain ⟨p, phase, rfl | rfl⟩ := project d mentioned
    · exact (ends p (List.mem_of_mem_filter phase)).1
    · exact (ends p (List.mem_of_mem_filter phase)).2
  · rcases item with ⟨rfl, rfl⟩ | ⟨rfl, rfl⟩
    · exact (ends t member).1.inv ⟨_, written, mentioned⟩
    · exact (ends t member).2.inv ⟨_, written, mentioned⟩
  · rcases (mem_floatCells distinct acyclic).mp floats with ⟨some_, rfl, rfl⟩ | ⟨t, real, item⟩
    · exact (finish acyclic rfl some_).inv ⟨_, written, mentioned⟩
    · rcases item with ⟨rfl, rfl⟩ | ⟨rfl, rfl⟩
      · exact (late acyclic rfl t real).inv ⟨_, written, mentioned⟩
      · simp only [floatFormula, Formula.refs, List.mem_append, List.mem_singleton,
          List.not_mem_nil, or_false] at mentioned
        rcases mentioned with rfl | rfl
        · exact (ends t (mem_realTasks.mp real).1).1
        · exact late acyclic rfl t real

/-- A sheet of dates has nothing to refer to. -/
theorem acyclic_of_static (cyclic : ¬depsAcyclic tasks = true) :
    (drawnSheet detailCols tasks).sheet.Acyclic := by
  refine acyclic_of_items distinct detailCols fun t member => ?_
  have none_ : ∀ column, column = .start ∨ column = .finish →
      Ends tasks detailCols (cellOf tasks (firstBarRow detailCols) column t) := by
    intro column dates
    refine ends_of_refs detailCols fun f written d mentioned => ?_
    cases (sheet_item distinct detailCols member dates).symm.trans written
    by_cases phase : t.kind = .phase
    · rcases dates with rfl | rfl
      · rw [(itemFormula_phase _ phase).1, mem_refs_phaseStart] at mentioned
        exact absurd mentioned.1.1 cyclic
      · rw [(itemFormula_phase _ phase).2, mem_refs_phaseFinish] at mentioned
        exact absurd mentioned.1.1 cyclic
    · rcases dates with rfl | rfl
      · rw [(itemFormula_real _ phase).1, mem_refs_taskStart] at mentioned
        exact absurd mentioned.1.1 cyclic
      · rw [(itemFormula_real _ phase).2, mem_refs_taskFinish] at mentioned
        exact absurd mentioned.1.1 cyclic
  exact ⟨none_ _ (Or.inl rfl), none_ _ (Or.inr rfl)⟩

/-- References from a phase's cells end when they do from its children's. -/
theorem ends_phase {p : Dated} (member : p ∈ tasks) (phase : p.kind = .phase)
    (kids : ∀ k ∈ children tasks p.id,
      Ends tasks detailCols (cellOf tasks (firstBarRow detailCols) .start k) ∧
        Ends tasks detailCols (cellOf tasks (firstBarRow detailCols) .finish k)) :
    Ends tasks detailCols (cellOf tasks (firstBarRow detailCols) .start p) ∧
      Ends tasks detailCols (cellOf tasks (firstBarRow detailCols) .finish p) := by
  constructor
  · refine ends_of_refs detailCols fun f written d mentioned => ?_
    cases (sheet_item distinct detailCols member (Or.inl rfl)).symm.trans written
    rw [(itemFormula_phase _ phase).1, mem_refs_phaseStart] at mentioned
    obtain ⟨_, k, kid, rfl⟩ := mentioned
    exact (kids k kid).1
  · refine ends_of_refs detailCols fun f written d mentioned => ?_
    cases (sheet_item distinct detailCols member (Or.inr rfl)).symm.trans written
    rw [(itemFormula_phase _ phase).2, mem_refs_phaseFinish] at mentioned
    obtain ⟨_, k, kid, rfl⟩ := mentioned
    exact (kids k kid).2

/-- References from the items' cells end when no task depends on itself through the phases. -/
theorem ends_item (unlooped : ∀ t ∈ tasks, ¬Relation.TransGen (DependsThrough tasks) t t) {t : Dated}
    (member : t ∈ tasks) :
    Ends tasks detailCols (cellOf tasks (firstBarRow detailCols) .start t) ∧
      Ends tasks detailCols (cellOf tasks (firstBarRow detailCols) .finish t) := by
  have reals : ∀ u ∈ realTasks tasks,
      Ends tasks detailCols (cellOf tasks (firstBarRow detailCols) .start u) ∧
        Ends tasks detailCols (cellOf tasks (firstBarRow detailCols) .finish u) := by
    intro u real
    have ends : Acc (fun v u => DependsThrough tasks u v) u :=
      acc_of_acyclic (fun _ _ _ through => (mem_realTasks.mp through.real).1) unlooped
        (mem_realTasks.mp real).1
    -- down the dependencies, read through the phases
    induction ends with
    | intro u _ ih =>
        obtain ⟨member, isReal⟩ := mem_realTasks.mp real
        have start : Ends tasks detailCols (cellOf tasks (firstBarRow detailCols) .start u) := by
          refine ends_of_refs detailCols fun f written d mentioned => ?_
          cases (sheet_item distinct detailCols member (Or.inl rfl)).symm.trans written
          rw [(itemFormula_real _ isReal).1, mem_refs_taskStart] at mentioned
          obtain ⟨_, p, pred, rfl⟩ := mentioned
          obtain ⟨member', named⟩ := (mem_preds distinct member).mp pred
          have both : Ends tasks detailCols (cellOf tasks (firstBarRow detailCols) .start p) ∧
              Ends tasks detailCols (cellOf tasks (firstBarRow detailCols) .finish p) := by
            by_cases phase : p.kind = .phase
            · exact ends_phase distinct detailCols member' phase fun k kid =>
                ih k ⟨real, p, ⟨member, member', named⟩, Or.inr ⟨phase, kid⟩⟩ (mem_children.mp kid).1
            · exact ih p ⟨real, p, ⟨member, member', named⟩, Or.inl ⟨phase, rfl⟩⟩
                (mem_realTasks.mpr ⟨member', phase⟩)
          rcases drivingColumn_cases p u with column | column
          · exact column ▸ both.1
          · exact column ▸ both.2
        refine ⟨start, ends_of_refs detailCols fun f written d mentioned => ?_⟩
        cases (sheet_item distinct detailCols member (Or.inr rfl)).symm.trans written
        rw [(itemFormula_real _ isReal).2, mem_refs_taskFinish] at mentioned
        exact mentioned.2 ▸ start
  by_cases phase : t.kind = .phase
  · exact ends_phase distinct detailCols member phase fun k kid => reals k (mem_children.mp kid).1
  · exact reals t (mem_realTasks.mpr ⟨member, phase⟩)

end Ends

/-! ### References that come back -/

section Circular

variable (distinct : (tasks.map (·.id)).Nodup) (detailCols : Bool)
  (acyclic : depsAcyclic tasks = true)

include distinct acyclic

theorem DependsThrough.driven {t u : Dated} (through : DependsThrough tasks t u) : Driven tasks t := by
  obtain ⟨_, p, ⟨member, member', named⟩, _⟩ := through
  exact ⟨acyclic, List.ne_nil_of_mem ((mem_preds distinct member).mpr ⟨member', named⟩)⟩

omit acyclic in
/-- A driven task's End follows its Start. -/
theorem finish_refers_start {t : Dated} (real : t ∈ realTasks tasks) (driven : Driven tasks t) :
    (drawnSheet detailCols tasks).sheet.Refers (cellOf tasks (firstBarRow detailCols) .finish t)
      (cellOf tasks (firstBarRow detailCols) .start t) := by
  obtain ⟨member, isReal⟩ := mem_realTasks.mp real
  refine ⟨_, sheet_item distinct detailCols member (Or.inr rfl), ?_⟩
  rw [(itemFormula_real _ isReal).2, mem_refs_taskFinish]
  exact ⟨driven, rfl⟩

/-- A phase's dates follow those of its children. -/
theorem phase_refers_child {p k : Dated} (member : p ∈ tasks) (phase : p.kind = .phase)
    (kid : k ∈ children tasks p.id) {column : Column} (dates : column = .start ∨ column = .finish) :
    (drawnSheet detailCols tasks).sheet.Refers (cellOf tasks (firstBarRow detailCols) column p)
      (cellOf tasks (firstBarRow detailCols) column k) := by
  have rolled : RolledUp tasks p := ⟨acyclic, List.ne_nil_of_mem kid⟩
  refine ⟨_, sheet_item distinct detailCols member dates, ?_⟩
  rcases dates with rfl | rfl
  · rw [(itemFormula_phase _ phase).1, mem_refs_phaseStart]
    exact ⟨rolled, k, kid, rfl⟩
  · rw [(itemFormula_phase _ phase).2, mem_refs_phaseFinish]
    exact ⟨rolled, k, kid, rfl⟩

/-- A Start cell leads to the Start cell of a driven task it depends on through the phases. -/
theorem start_leads_to {t u : Dated} (through : DependsThrough tasks t u) (driven : Driven tasks u) :
    Relation.TransGen (drawnSheet detailCols tasks).sheet.Refers
      (cellOf tasks (firstBarRow detailCols) .start t) (cellOf tasks (firstBarRow detailCols) .start u) := by
  have goes := through.driven distinct acyclic
  have real' := through.real
  obtain ⟨real, p, ⟨member, member', named⟩, how⟩ := through
  have first : (drawnSheet detailCols tasks).sheet.Refers
      (cellOf tasks (firstBarRow detailCols) .start t)
      (cellOf tasks (firstBarRow detailCols) (drivingColumn p t) p) := by
    refine ⟨_, sheet_item distinct detailCols member (Or.inl rfl), ?_⟩
    rw [(itemFormula_real _ (mem_realTasks.mp real).2).1, mem_refs_taskStart]
    exact ⟨goes, p, (mem_preds distinct member).mpr ⟨member', named⟩, rfl⟩
  have column : Relation.ReflTransGen (drawnSheet detailCols tasks).sheet.Refers
      (cellOf tasks (firstBarRow detailCols) (drivingColumn p t) p)
      (cellOf tasks (firstBarRow detailCols) (drivingColumn p t) u) := by
    rcases how with ⟨_, rfl⟩ | ⟨phase, kid⟩
    · exact .refl
    · exact .single (phase_refers_child distinct detailCols acyclic member' phase kid
        (drivingColumn_cases p t))
  have last : Relation.ReflTransGen (drawnSheet detailCols tasks).sheet.Refers
      (cellOf tasks (firstBarRow detailCols) (drivingColumn p t) u)
      (cellOf tasks (firstBarRow detailCols) .start u) := by
    rcases drivingColumn_cases p t with column | column
    · exact column ▸ .refl
    · exact column ▸ .single (finish_refers_start distinct detailCols real' driven)
  exact Relation.TransGen.head'_iff.mpr ⟨_, first, column.trans last⟩

/-- A task that depends on itself through the phases is on a circular reference. -/
theorem circular_of_through {t : Dated} (looped : Relation.TransGen (DependsThrough tasks) t t) :
    Relation.TransGen (drawnSheet detailCols tasks).sheet.Refers
      (cellOf tasks (firstBarRow detailCols) .start t)
      (cellOf tasks (firstBarRow detailCols) .start t) := by
  have leads : ∀ u, Relation.TransGen (DependsThrough tasks) t u → Driven tasks u →
      Relation.TransGen (drawnSheet detailCols tasks).sheet.Refers
        (cellOf tasks (firstBarRow detailCols) .start t)
        (cellOf tasks (firstBarRow detailCols) .start u) := by
    intro u path
    induction path with
    | single step => exact start_leads_to distinct detailCols acyclic step
    | tail _ step ih =>
        intro driven
        exact (ih (step.driven distinct acyclic)).trans
          (start_leads_to distinct detailCols acyclic step driven)
  obtain ⟨u, through, _⟩ := Relation.TransGen.head'_iff.mp looped
  exact leads t looped (through.driven distinct acyclic)

end Circular

/-! ### When a workbook has a circular reference -/

/-- No circular reference is shipped: a workbook that is built has none. -/
def NoCircularReferences (detailCols : Bool) (plan : List Item) : Prop :=
  ∀ ws, buildGanttWb detailCols (scheduled plan) = .ok ws → ws.sheet.Acyclic

/-- What a build that succeeds has drawn. -/
theorem build_eq_ok {detailCols : Bool} {tasks : List Dated} {ws : Worksheet}
    (built : buildGanttWb detailCols tasks = .ok ws) :
    tasks ≠ [] ∧ (tasks.map (·.id)).Nodup ∧ ws = drawnSheet detailCols tasks := by
  by_cases none_ : tasks = []
  · rw [none_] at built
    cases built
  · rw [buildGanttWb_eq detailCols none_] at built
    split at built
    · next placed =>
      cases built
      exact ⟨none_, (placed_iff _).mp placed, rfl⟩
    · cases built

theorem build_of_distinct (detailCols : Bool) {tasks : List Dated} (some_ : tasks ≠ [])
    (distinct : (tasks.map (·.id)).Nodup) :
    buildGanttWb detailCols tasks = .ok (drawnSheet detailCols tasks) := by
  rw [buildGanttWb_eq detailCols some_, if_pos ((placed_iff _).mpr distinct)]

/-- A workbook has no circular reference exactly when it is not built for a repeated id, the
    dependencies have a cycle of their own, or no task depends on itself through the phases. -/
theorem noCircularReferences_iff (detailCols : Bool) (plan : List Item) :
    NoCircularReferences detailCols plan ↔
      ¬((plan.filter Item.hasDates).map (·.id)).Nodup ∨
        (∃ t ∈ scheduled plan, Relation.TransGen (DependsOn (scheduled plan)) t t) ∨
        ∀ t ∈ scheduled plan, ¬Relation.TransGen (DependsThrough (scheduled plan)) t t := by
  rw [← scheduled_ids]
  constructor
  · intro ships
    by_cases distinct : ((scheduled plan).map (·.id)).Nodup
    · refine Or.inr (or_iff_not_imp_left.mpr fun uncycled t member looped => ?_)
      have acyclic : depsAcyclic (scheduled plan) = true :=
        (depsAcyclic_iff distinct).mpr fun u member' circular => uncycled ⟨u, member', circular⟩
      exact ships _ (build_of_distinct detailCols (List.ne_nil_of_mem member) distinct) _
        (circular_of_through distinct detailCols acyclic looped)
    · exact Or.inl distinct
  · intro how ws built
    obtain ⟨some_, distinct, rfl⟩ := build_eq_ok built
    rcases how with repeated | ⟨t, member, circular⟩ | unlooped
    · exact absurd distinct repeated
    · refine acyclic_of_static distinct detailCols fun acyclic => ?_
      exact (depsAcyclic_iff distinct).mp acyclic t member circular
    · exact acyclic_of_items distinct detailCols fun t member => ends_item distinct detailCols unlooped member

/-- A task that depends on the phase it belongs to. -/
theorem task_on_its_own_phase_is_circular :
    ¬NoCircularReferences true [.sketch 1 .phase none 0 4 [], .sketch 2 .task (some 1) 0 4 [1]] := by
  let plan : List Item := [.sketch 1 .phase none 0 4 [], .sketch 2 .task (some 1) 0 4 [1]]
  intro ships
  have built : buildGanttWb true (scheduled plan) = .ok (drawnSheet true (scheduled plan)) := by
    decide +kernel
  have down : (drawnSheet true (scheduled plan)).sheet (.start, 16) = some (.ref (.start, 15)) := by
    decide +kernel
  have up : (drawnSheet true (scheduled plan)).sheet (.start, 15) = some (.ref (.start, 16)) := by
    decide +kernel
  exact ships _ built (.start, 16)
    (.tail (.single ⟨_, down, List.mem_singleton.mpr rfl⟩) ⟨_, up, List.mem_singleton.mpr rfl⟩)

end GhostPour.Documents
