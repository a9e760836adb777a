/-
Module: GhostPour.Documents.Proofs.ProgressScale
Layer: Proofs
Purpose: What the Progress sheet counts, in terms of the working days of each task: the planned, total
  and banked days are cardinals of these sets, and the live Current plan formula shows their share.
Trusted boundary: none
Main exports: Item.workingDays, plannedShare, plannedShare_mono, plannedShare_eq_one, ShowsDates,
  ShowsShare, livePlan_shows
-/
import GhostPour.Documents.Progress
import GhostPour.Documents.Proofs.GanttCells

namespace GhostPour.Documents

/-! ### The working days of a task -/

/-- The days of work of an item that the curves count. -/
noncomputable def Item.workingDays (t : Item) : Finset Int :=
  match t.work with
  | none => ∅
  | some (s, e) => workdaysIn s e

/-- `_wd_inclusive` counts the working days of a span, none where it is inverted. -/
theorem wdInclusive_eq (a b : Int) : wdInclusive a b = (workdaysIn a b).card := by
  unfold wdInclusive
  split
  · next inverted => rw [workdaysIn_of_lt inverted]; rfl
  · next ordered =>
    have le : a ≤ b := not_lt.mp ordered
    have first : workIndex (a + 1) = workIndex a + if weekday a < 5 then 1 else 0 := by
      rw [workIndex_succ]
      unfold isWorkday
      simp only [decide_eq_true_eq]
    have offset : workdayOffset a b = workIndex (b + 1) - workIndex (a + 1) := by
      unfold workdayOffset
      split
      · next same => rw [same, sub_self]
      · rw [if_pos (by omega), countWorkdays_eq]
        congr 2
        omega
    rw [← networkdays_eq_card le, networkdays_of_le le, offset, first]
    omega

theorem Item.total_eq (t : Item) : t.total = t.workingDays.card := by
  unfold Item.total Item.workingDays
  cases t.work with
  | none => rfl
  | some span =>
      simp only [wdInclusive_eq]
      split
      · rfl
      · next none_ => exact le_antisymm (Int.natCast_nonneg _) (not_lt.mp none_)

theorem Item.planned_eq (upto : Int) (t : Item) :
    t.planned upto = (t.workingDays.filter (· ≤ upto)).card := by
  unfold Item.planned Item.workingDays
  cases t.work with
  | none => rfl
  | some span =>
      obtain ⟨s, e⟩ := span
      simp only [wdInclusive_eq, workdaysIn_filter_le]
      have within : (workdaysIn s (min e upto)).card ≤ (workdaysIn s e).card := by
        rw [← workdaysIn_filter_le]
        exact Finset.card_filter_le _ _
      split
      · next none_ => omega
      · split
        · omega
        · next early => rw [workdaysIn_of_lt (min_lt_of_right_lt (not_le.mp early))]; rfl

theorem Item.earned_eq (t : Item) : t.earned = t.workingDays.card * t.percentDone / 100 := by
  unfold Item.earned Item.workingDays
  cases t.work with
  | none => simp
  | some span =>
      simp only [wdInclusive_eq]
      split
      · next none_ =>
        have zero : (workdaysIn span.1 span.2).card = 0 := by omega
        simp [zero]
      · simp

theorem Item.percentDone_bounds (t : Item) : 0 ≤ t.percentDone ∧ t.percentDone ≤ 100 := by
  constructor
  · exact le_min (le_max_right _ _) (by decide)
  · exact min_le_right _ _

theorem Item.earned_nonneg (t : Item) : 0 ≤ t.earned := by
  rw [t.earned_eq]
  have bound : (0 : ℚ) ≤ t.percentDone := by exact_mod_cast t.percentDone_bounds.1
  positivity

theorem Item.earned_le (t : Item) : t.earned ≤ t.total := by
  rw [t.earned_eq, t.total_eq]
  have bound : (t.percentDone : ℚ) ≤ 100 := by exact_mod_cast t.percentDone_bounds.2
  have days : (0 : ℚ) ≤ t.workingDays.card := Nat.cast_nonneg _
  rw [Int.cast_natCast, div_le_iff₀ (by norm_num)]
  exact mul_le_mul_of_nonneg_left bound days

theorem Item.planned_mono (t : Item) {w w' : Int} (le : w ≤ w') : t.planned w ≤ t.planned w' := by
  rw [t.planned_eq, t.planned_eq, Int.ofNat_le]
  exact Finset.card_le_card
    (Finset.monotone_filter_right _ fun _ _ (before : _ ≤ w) => before.trans le)

/-! ### Over a plan -/

theorem earnedDays_nonneg (tasks : List Item) : 0 ≤ earnedDays tasks :=
  List.sum_nonneg fun _ member => by
    obtain ⟨t, _, rfl⟩ := List.mem_map.mp member
    exact t.earned_nonneg

theorem earnedDays_le (tasks : List Item) : earnedDays tasks ≤ totalDays tasks := by
  unfold earnedDays totalDays
  induction tasks with
  | nil => simp
  | cons t tasks ih =>
      rw [List.map_cons, List.sum_cons, List.map_cons, List.sum_cons, Int.cast_add]
      exact add_le_add t.earned_le ih

theorem plannedDays_nonneg (tasks : List Item) (w : Int) : 0 ≤ plannedDays tasks w :=
  List.sum_nonneg fun _ member => by
    obtain ⟨t, _, rfl⟩ := List.mem_map.mp member
    rw [t.planned_eq]
    exact Int.natCast_nonneg _

theorem plannedDays_mono (tasks : List Item) : Monotone (plannedDays tasks) := fun _ _ le =>
  List.sum_le_sum fun t _ => t.planned_mono le

/-- The share of the plan scheduled by a day. -/
def plannedShare (tasks : List Item) (w : Int) : ℚ := plannedDays tasks w / totalDays tasks

theorem totalDays_nonneg (tasks : List Item) : 0 ≤ totalDays tasks :=
  List.sum_nonneg fun _ member => by
    obtain ⟨t, _, rfl⟩ := List.mem_map.mp member
    rw [t.total_eq]
    exact Int.natCast_nonneg _

/-- The planned share never falls. -/
theorem plannedShare_mono (tasks : List Item) : Monotone (plannedShare tasks) := fun _ _ le =>
  div_le_div_of_nonneg_right (Int.cast_le.mpr (plannedDays_mono tasks le))
    (Int.cast_nonneg (totalDays_nonneg tasks))

/-! ### The charted tasks -/

variable {tasks : List Dated}

theorem mem_chartedTasks {t : Dated} : t ∈ chartedTasks tasks ↔ t ∈ tasks ∧ t.kind = .task := by
  rw [chartedTasks, List.mem_filter, decide_eq_true_eq]

theorem Dated.written_work (t : Dated) :
    t.written.work = if t.kind = .task then some (t.start, t.finish) else none := by
  unfold Item.work Dated.written DateField.read
  cases t.kind <;> rfl

/-- A sum over the items counts the charted tasks alone. -/
theorem sum_written (count : Item → Int) (none_ : ∀ t : Item, t.work = none → count t = 0) :
    ((tasks.map Dated.written).map count).sum =
      ((chartedTasks tasks).map fun t => count t.written).sum := by
  induction tasks with
  | nil => rfl
  | cons t tasks ih =>
      rw [List.map_cons, List.map_cons, List.sum_cons, ih]
      by_cases charted : t.kind = .task
      · have more : chartedTasks (t :: tasks) = t :: chartedTasks tasks :=
          List.filter_cons_of_pos (decide_eq_true charted)
        rw [more, List.map_cons, List.sum_cons]
      · have same : chartedTasks (t :: tasks) = chartedTasks tasks :=
          List.filter_cons_of_neg (by rw [decide_eq_true_eq]; exact charted)
        have apart : t.written.work = none := by rw [t.written_work, if_neg charted]
        rw [same, none_ _ apart, zero_add]

theorem Dated.written_workingDays {t : Dated} (charted : t.kind = .task) :
    t.written.workingDays = workdaysIn t.start t.finish := by
  unfold Item.workingDays
  rw [t.written_work, if_pos charted]

/-- The total counts the working days of the charted tasks. -/
theorem totalDays_written : totalDays (tasks.map Dated.written) =
    ((chartedTasks tasks).map fun t => ((workdaysIn t.start t.finish).card : Int)).sum := by
  unfold totalDays
  rw [sum_written Item.total fun t none_ => by unfold Item.total; rw [none_]]
  refine congrArg List.sum (List.map_congr_left fun t member => ?_)
  rw [t.written.total_eq, Dated.written_workingDays (mem_chartedTasks.mp member).2]

theorem plannedDays_written (w : Int) : plannedDays (tasks.map Dated.written) w =
    ((chartedTasks tasks).map fun t => ((workdaysIn t.start (min t.finish w)).card : Int)).sum := by
  unfold plannedDays
  rw [sum_written (Item.planned w) fun t none_ => by unfold Item.planned; rw [none_]]
  refine congrArg List.sum (List.map_congr_left fun t member => ?_)
  rw [t.written.planned_eq, Dated.written_workingDays (mem_chartedTasks.mp member).2,
    workdaysIn_filter_le]

/-- A plan with a charted task has working days. -/
theorem totalDays_pos (some_ : chartedTasks tasks ≠ []) : 0 < totalDays (tasks.map Dated.written) := by
  obtain ⟨t, member⟩ := List.exists_mem_of_ne_nil _ some_
  have first : t.start ∈ workdaysIn t.start t.finish :=
    mem_workdaysIn.mpr ⟨⟨le_refl _, t.ordered⟩, t.startWorks⟩
  have days : (0 : Int) < (workdaysIn t.start t.finish).card :=
    Int.natCast_pos.mpr (Finset.card_pos.mpr ⟨_, first⟩)
  rw [totalDays_written]
  refine days.trans_le (List.single_le_sum (fun _ among => ?_) _ (List.mem_map.mpr ⟨t, member, rfl⟩))
  obtain ⟨u, _, rfl⟩ := List.mem_map.mp among
  exact Int.natCast_nonneg _

/-- By the end of the last task the whole plan is scheduled. -/
theorem plannedShare_eq_one (some_ : chartedTasks tasks ≠ []) {w : Int}
    (last : ∀ t ∈ chartedTasks tasks, t.finish ≤ w) :
    plannedShare (tasks.map Dated.written) w = 1 := by
  have whole : plannedDays (tasks.map Dated.written) w = totalDays (tasks.map Dated.written) := by
    rw [plannedDays_written, totalDays_written]
    refine congrArg List.sum (List.map_congr_left fun t member => ?_)
    rw [min_eq_left (last t member)]
  rw [plannedShare, whole]
  exact div_self (Int.cast_ne_zero.mpr (totalDays_pos some_).ne')

/-! ### The live formulas -/

/-- The Gantt View shows the dates of the charted tasks. -/
def ShowsDates (book : Sheet Place) (tasks : List Dated) : Prop :=
  ∀ t ∈ chartedTasks tasks,
    book.Value (.gantt (cellOf tasks (firstBarRow true) .start t)) t.start ∧
      book.Value (.gantt (cellOf tasks (firstBarRow true) .finish t)) t.finish

/-- What `IFERROR((a)/b,"")` shows on a sheet when it is not blank. -/
def ShowsShare (book : Sheet Place) (f : Share) (q : ℚ) : Prop :=
  ∃ a b, book.Shows f.numerator a ∧ book.Shows f.denominator b ∧ b ≠ 0 ∧ q = a / b

/-- Every item has a row, its own or that of an item with its id. -/
theorem isSome_get_rowOf (first : Nat) {t : Dated} (member : t ∈ tasks) :
    ((rowOf tasks first).get t.id).isSome := by
  have slot : t ∈ slots tasks := by
    unfold slots
    rw [List.mem_append, List.mem_flatMap]
    by_cases phase : t.kind = .phase
    · exact Or.inl ⟨t, List.mem_filter.mpr ⟨member, decide_eq_true phase⟩, List.mem_cons_self⟩
    · by_cases grouped : hasPhase tasks t.parentId
      · obtain ⟨p, among, same⟩ := List.any_eq_true.mp grouped
        exact Or.inl ⟨p, among, List.mem_cons_of_mem _
          (List.mem_filter.mpr ⟨member, decide_eq_true ⟨phase, of_decide_eq_true same⟩⟩)⟩
      · exact Or.inr (List.mem_filter.mpr ⟨member, decide_eq_true ⟨phase, grouped⟩⟩)
  rw [rowOf, Table.isSome_get_ofList, List.map_map, List.mem_map]
  rw [← List.zipIdx_map_fst (first + 1) (slots tasks)] at slot
  obtain ⟨s, among, rfl⟩ := List.mem_map.mp slot
  exact ⟨s, among, rfl⟩

theorem chartedRows_eq :
    chartedRows tasks = (chartedTasks tasks).map fun t => rowAt tasks (firstBarRow true) t.id := by
  unfold chartedRows
  rw [← List.filterMap_eq_map]
  refine List.filterMap_congr fun t member => ?_
  obtain ⟨r, stored⟩ := Option.isSome_iff_exists.mp
    (isSome_get_rowOf (firstBarRow true) (mem_chartedTasks.mp member).1)
  simp [rowAt, stored]

section Live

variable {book : Sheet Place} (dates : ShowsDates book tasks)

include dates

theorem eval_ganttRef {t : Dated} (member : t ∈ chartedTasks tasks) :
    (ganttRef .start (rowAt tasks (firstBarRow true) t.id)).eval book.env = t.start ∧
      (ganttRef .finish (rowAt tasks (firstBarRow true) t.id)).eval book.env = t.finish :=
  ⟨Sheet.env_eq (dates t member).1, Sheet.env_eq (dates t member).2⟩

/-- The denominator in J1 shows the total. -/
theorem value_denominator
    (written : book (.helper 1) = some (liveDenominator (chartedRows tasks))) :
    book.Value (.helper 1) (totalDays (tasks.map Dated.written)) := by
  have value := Sheet.Value.of_refs written fun c mentioned => by
    obtain ⟨e, among, mentioned⟩ := Formula.mem_refs_sumOf.mp mentioned
    rw [chartedRows_eq, List.map_map] at among
    obtain ⟨t, member, rfl⟩ := List.mem_map.mp among
    rcases List.mem_append.mp mentioned with start | finish
    · exact ⟨_, List.mem_singleton.mp start ▸ (dates t member).1⟩
    · exact ⟨_, List.mem_singleton.mp finish ▸ (dates t member).2⟩
  rw [liveDenominator, Formula.eval_sumOf, chartedRows_eq, List.map_map, List.map_map] at value
  rw [totalDays_written]
  convert value using 2
  refine List.map_congr_left fun t member => ?_
  obtain ⟨start, finish⟩ := eval_ganttRef dates member
  rw [← networkdays_eq_card t.ordered]
  exact (congrArg₂ networkdays start finish).symm

/-- The Current plan formula of a row shows the share that is planned by the week in its column J,
    whatever that week is. -/
theorem livePlan_shows (some_ : chartedTasks tasks ≠ [])
    (written : book (.helper 1) = some (liveDenominator (chartedRows tasks))) {row : Nat} {w : Int}
    (week : book (.helper row) = some (.num w)) :
    ShowsShare book (livePlan (chartedRows tasks) row) (plannedShare (tasks.map Dated.written) w) := by
  have ends : book.Value (.helper row) w := .intro book.env week fun c mentioned => nomatch mentioned
  refine ⟨plannedDays (tasks.map Dated.written) w, totalDays (tasks.map Dated.written),
    ⟨book.env, ?_, ?_⟩, ⟨book.env, ?_, ?_⟩, (totalDays_pos some_).ne', rfl⟩
  · intro c mentioned
    obtain ⟨e, among, mentioned⟩ := Formula.mem_refs_sumOf.mp mentioned
    rw [chartedRows_eq, List.map_map] at among
    obtain ⟨t, member, rfl⟩ := List.mem_map.mp among
    have known : ∃ v, book.Value c v := by
      simp only [Function.comp_apply, ganttRef, Formula.refs, List.nil_append,
        List.singleton_append, List.mem_cons, List.not_mem_nil, or_false] at mentioned
      rcases mentioned with rfl | rfl | rfl
      · exact ⟨_, (dates t member).1⟩
      · exact ⟨_, (dates t member).2⟩
      · exact ⟨_, ends⟩
    obtain ⟨v, value⟩ := known
    rwa [Sheet.env_eq value]
  · rw [livePlan, Formula.eval_sumOf, chartedRows_eq, List.map_map, List.map_map, plannedDays_written]
    refine congrArg List.sum (List.map_congr_left fun t member => ?_)
    obtain ⟨start, finish⟩ := eval_ganttRef dates member
    simp only [Function.comp_apply, Formula.eval, start, finish, Sheet.env_eq ends]
    exact max_networkdays _ _
  · intro c mentioned
    cases List.mem_singleton.mp mentioned
    have value := value_denominator dates written
    rwa [Sheet.env_eq value]
  · exact Sheet.env_eq (value_denominator dates written)

end Live

end GhostPour.Documents
