/-
Module: GhostPour.Documents.Proofs.ProgressRange
Layer: Proofs
Purpose: The Progress sheet as a whole. A week shows the last stamp at or before it, which is that of
  the latest version or of the plan itself; every written share lies within 0 and 1 exactly when no
  version on the chart had scheduled or banked more working days than today's plan has.
Trusted boundary: none
Main exports: OnOneScale, scheduledBy, workload, banked, OnChart, onOneScale_iff
-/
import GhostPour.Documents.Proofs.ProgressScale

namespace GhostPour.Documents

/-! ### The days of work of a plan -/

/-- The working days of the tasks of a plan up to a day. -/
noncomputable def scheduledBy (tasks : List Item) (w : Int) : Nat :=
  (tasks.map fun t => (t.workingDays.filter (· ≤ w)).card).sum

/-- The working days of the tasks of a plan. -/
noncomputable def workload (tasks : List Item) : Nat := (tasks.map fun t => t.workingDays.card).sum

/-- The working days of the tasks of a plan, each weighted by the percent that is done. -/
noncomputable def banked (tasks : List Item) : ℚ :=
  (tasks.map fun t => (t.workingDays.card * t.percentDone / 100 : ℚ)).sum

theorem plannedDays_eq (tasks : List Item) (w : Int) : plannedDays tasks w = scheduledBy tasks w := by
  unfold plannedDays scheduledBy
  rw [Nat.cast_list_sum, List.map_map]
  exact congrArg List.sum (List.map_congr_left fun t _ => t.planned_eq w)

theorem totalDays_eq (tasks : List Item) : totalDays tasks = workload tasks := by
  unfold totalDays workload
  rw [Nat.cast_list_sum, List.map_map]
  exact congrArg List.sum (List.map_congr_left fun t _ => t.total_eq)

theorem earnedDays_eq (tasks : List Item) : earnedDays tasks = banked tasks :=
  congrArg List.sum (List.map_congr_left fun t _ => t.earned_eq)

/-! ### The weeks -/

theorem le_of_mem_weeksFrom {hi cur wk : Int} {n : Nat} (member : wk ∈ weeksFrom hi cur n) :
    cur ≤ wk := by
  induction n generalizing cur with
  | zero => exact absurd member List.not_mem_nil
  | succ n ih =>
      rw [weeksFrom] at member
      split at member
      · rcases List.mem_cons.mp member with rfl | later
        · exact le_refl _
        · have le := ih later
          omega
      · exact absurd member List.not_mem_nil

theorem weeksFrom_pairwise (hi cur : Int) (n : Nat) : (weeksFrom hi cur n).Pairwise (· < ·) := by
  induction n generalizing cur with
  | zero => exact List.Pairwise.nil
  | succ n ih =>
      rw [weeksFrom]
      split
      · refine List.pairwise_cons.mpr ⟨fun wk later => ?_, ih _⟩
        have le := le_of_mem_weeksFrom later
        omega
      · exact List.Pairwise.nil

/-- The weeks are in order. -/
theorem scurveWeeks_pairwise (tasks : List Item) (history : List Version) :
    (scurveWeeks tasks history).Pairwise (· < ·) := by
  unfold scurveWeeks
  split
  · exact List.Pairwise.nil
  · exact weeksFrom_pairwise _ _ _

/-! ### The last stamp -/

theorem stampLe_iff {a b : Int × ℚ} : stampLe a b = true ↔ a.1 < b.1 ∨ a.1 = b.1 ∧ a.2 ≤ b.2 := by
  rw [stampLe, decide_eq_true_eq]

theorem stampLe_trans (a b c : Int × ℚ) (first : stampLe a b = true) (second : stampLe b c = true) :
    stampLe a c = true := by
  rw [stampLe_iff] at *
  rcases first with lt | ⟨same, le⟩
  · rcases second with lt' | ⟨same', _⟩
    · exact Or.inl (lt.trans lt')
    · exact Or.inl (same' ▸ lt)
  · rcases second with lt' | ⟨same', le'⟩
    · exact Or.inl (same ▸ lt')
    · exact Or.inr ⟨same.trans same', le.trans le'⟩

theorem stampLe_total (a b : Int × ℚ) : (stampLe a b || stampLe b a) = true := by
  rw [Bool.or_eq_true, stampLe_iff, stampLe_iff]
  rcases lt_trichotomy a.1 b.1 with lt | same | gt
  · exact Or.inl (Or.inl lt)
  · rcases le_total a.2 b.2 with le | ge
    · exact Or.inl (Or.inr ⟨same, le⟩)
    · exact Or.inr (Or.inr ⟨same.symm, ge⟩)
  · exact Or.inr (Or.inl gt)

/-- The last element of a list in order comes after all others. -/
theorem getLast?_max {α : Type} {le : α → α → Prop} (refl : ∀ a, le a a) {items : List α}
    (sorted : items.Pairwise le) {last : α} (at_ : items.getLast? = some last) :
    ∀ a ∈ items, le a last := by
  obtain ⟨front, rfl⟩ := List.getLast?_eq_some_iff.mp at_
  intro a member
  rcases List.mem_append.mp member with before | here
  · exact (List.pairwise_append.mp sorted).2.2 a before last (List.mem_singleton.mpr rfl)
  · exact List.mem_singleton.mp here ▸ refl last

section Stamps

variable {stamps : List (Int × ℚ)} (sorted : stamps.Pairwise fun a b => stampLe a b = true)

include sorted

/-- What a test shows is the value of a stamp that no other that passes comes after. -/
theorem lastStamp_spec {test : Int → Bool} {v : ℚ} (shown : lastStamp stamps test = some v) :
    ∃ d, (d, v) ∈ stamps ∧ test d = true ∧
      ∀ s ∈ stamps, test s.1 = true → s.1 < d ∨ s.1 = d ∧ s.2 ≤ v := by
  obtain ⟨⟨d, v'⟩, at_, rfl⟩ := Option.map_eq_some_iff.mp shown
  have member := List.mem_filter.mp (List.mem_of_getLast? at_)
  refine ⟨d, member.1, member.2, fun s among passes => ?_⟩
  have self : ∀ a, stampLe a a = true := fun a => stampLe_iff.mpr (Or.inr ⟨rfl, le_refl _⟩)
  have after := getLast?_max self (sorted.filter _) at_ s (List.mem_filter.mpr ⟨among, passes⟩)
  exact stampLe_iff.mp after

omit sorted in
theorem exists_lastStamp {test : Int → Bool} {s : Int × ℚ} (member : s ∈ stamps)
    (passes : test s.1 = true) : ∃ v, lastStamp stamps test = some v := by
  have some_ : stamps.filter (fun s => test s.1) ≠ [] :=
    List.ne_nil_of_mem (List.mem_filter.mpr ⟨member, passes⟩)
  exact ⟨_, by rw [lastStamp, List.getLast?_eq_some_getLast some_, Option.map_some]⟩

/-- After the data week no stamp is left to come: the data week is at or after all of them. -/
theorem le_dataWeek {weeks : List Int} {dw i : Nat} (data : dataWeek weeks stamps = some dw)
    (inside : i < weeks.length) (past : dw < i) :
    ∃ wk, weeks[dw]? = some wk ∧ ∀ s ∈ stamps, s.1 ≤ wk := by
  obtain ⟨last, at_, rfl⟩ := Option.map_eq_some_iff.mp data
  cases found : weeks.findIdx? (fun wk => decide (last.1 ≤ wk)) with
  | none =>
      rw [found, Option.getD_none] at past
      omega
  | some dw =>
      obtain ⟨short, after, _⟩ := List.findIdx?_eq_some_iff_getElem.mp found
      refine ⟨weeks[dw], List.getElem?_eq_getElem short, fun s among => ?_⟩
      have self : ∀ a, stampLe a a = true := fun a => stampLe_iff.mpr (Or.inr ⟨rfl, le_refl _⟩)
      have before := getLast?_max self sorted at_ s among
      rcases stampLe_iff.mp before with lt | ⟨same, _⟩
      · exact lt.le.trans (of_decide_eq_true after)
      · exact same.le.trans (of_decide_eq_true after)

end Stamps

/-! ### The sheet -/

/-- The days at which something was reported: those of the versions and of the plan's meeting. -/
def reportDays (history : List Version) (meeting : Int) : List Int :=
  (history.filterMap fun ver => ver.asOf.read) ++ [meeting]

/-- Some charted week shows what was reported on a day: no later report is at or before it. -/
def OnChart (weeks : List Int) (history : List Version) (meeting d : Int) : Prop :=
  ∃ wk ∈ weeks, d ≤ wk ∧ ∀ d' ∈ reportDays history meeting, d' ≤ wk → d' ≤ d

/-- The curves share one scale: every charted week has a Current plan formula that shows the planned
    share, which never falls and reaches 1 by the last end, and every baseline and reported share
    that is written lies within 0 and 1. -/
structure OnOneScale (tasks : List Dated) (history : List Version) (sheet : ProgressSheet) : Prop where
  weeks : (sheet.rows.map fun r => r.2.week) = scurveWeeks (tasks.map Dated.written) history
  live : ∀ r ∈ sheet.rows, (r.2.current.isSome ∨ r.2.planOnly.isSome) ∧
    ∀ f, (r.2.current = some f ∨ r.2.planOnly = some f) → ∀ (book : Sheet Place) (w : Int),
      ShowsDates book tasks → book (.helper 1) = some sheet.denominator →
      book (.helper r.1) = some (.num w) →
      ShowsShare book f (plannedShare (tasks.map Dated.written) w)
  rises : Monotone (plannedShare (tasks.map Dated.written))
  complete : ∀ w, (∀ t ∈ chartedTasks tasks, t.finish ≤ w) →
    plannedShare (tasks.map Dated.written) w = 1
  inRange : ∀ r ∈ sheet.rows, ∀ v,
    (r.2.baseline = some v ∨ r.2.reported = some v ∨ r.2.observed = some v) → 0 ≤ v ∧ v ≤ 1

section Stamped

variable {items : List Item} {history : List Version} {meeting : Int} (some_ : 0 < totalDays items)

include some_

/-- A stamp is what a version had banked, or what this plan has, over the total. -/
theorem mem_stamps {d : Int} {v : ℚ} : (d, v) ∈ stamps items history meeting ↔
    (∃ ver ∈ history, ver.asOf.read = some d ∧ v = earnedDays ver.tasks / totalDays items) ∨
      d = meeting ∧ v = earnedDays items / totalDays items := by
  rw [stamps, if_neg some_.ne', List.mem_mergeSort, List.mem_append, List.mem_singleton,
    List.mem_filterMap, Prod.mk.injEq]
  refine or_congr_left (exists_congr fun ver => and_congr_right fun _ => ?_)
  rw [Option.map_eq_some_iff]
  constructor
  · rintro ⟨_, read, same⟩
    cases same
    exact ⟨read, rfl⟩
  · rintro ⟨read, rfl⟩
    exact ⟨d, read, rfl⟩

theorem stamps_pairwise :
    (stamps items history meeting).Pairwise fun a b => stampLe a b = true := by
  rw [stamps, if_neg some_.ne']
  exact List.pairwise_mergeSort stampLe_trans stampLe_total _

theorem stamp_day {s : Int × ℚ} (member : s ∈ stamps items history meeting) :
    s.1 ∈ reportDays history meeting := by
  rcases (mem_stamps some_).mp member with ⟨ver, among, read, _⟩ | ⟨same, _⟩
  · exact List.mem_append_left _ (List.mem_filterMap.mpr ⟨ver, among, read⟩)
  · exact List.mem_append_right _ (List.mem_singleton.mpr same)

theorem exists_stamp {d : Int} (reported : d ∈ reportDays history meeting) :
    ∃ v, (d, v) ∈ stamps items history meeting := by
  rcases List.mem_append.mp reported with version | this
  · obtain ⟨ver, among, read⟩ := List.mem_filterMap.mp version
    exact ⟨_, (mem_stamps some_).mpr (Or.inl ⟨ver, among, read, rfl⟩)⟩
  · exact ⟨_, (mem_stamps some_).mpr (Or.inr ⟨List.mem_singleton.mp this, rfl⟩)⟩

theorem share_nonneg (tasks : List Item) : 0 ≤ earnedDays tasks / totalDays items :=
  div_nonneg (earnedDays_nonneg tasks) (Int.cast_nonneg some_.le)

theorem share_le_one {days : ℚ} : days / totalDays items ≤ 1 ↔ days ≤ totalDays items :=
  div_le_one (Int.cast_pos.mpr some_)

theorem stamp_nonneg {s : Int × ℚ} (member : s ∈ stamps items history meeting) : 0 ≤ s.2 := by
  rcases (mem_stamps some_).mp member with ⟨ver, _, _, same⟩ | ⟨_, same⟩
  · exact same ▸ share_nonneg some_ _
  · exact same ▸ share_nonneg some_ _

/-- What a week shows, of the days up to its end that a test passes, is on the chart. -/
theorem shown_inRange {weeks : List Int}
    (fits : ∀ ver ∈ history, ∀ d, ver.asOf = .day d → OnChart weeks history meeting d →
      earnedDays ver.tasks ≤ totalDays items)
    {wk : Int} (charted : wk ∈ weeks) {v : ℚ} {test : Int → Bool}
    (before : ∀ d, test d = true → d ≤ wk)
    (upward : ∀ d d', test d = true → d ≤ d' → d' ≤ wk → test d' = true)
    (shown : lastStamp (stamps items history meeting) test = some v) : 0 ≤ v ∧ v ≤ 1 := by
  obtain ⟨d, member, passes, last⟩ := lastStamp_spec (stamps_pairwise some_) shown
  refine ⟨stamp_nonneg some_ member, ?_⟩
  rcases (mem_stamps some_).mp member with ⟨ver, among, read, rfl⟩ | ⟨_, rfl⟩
  · have day : ver.asOf = .day d := by
      cases asOf : ver.asOf with
      | day d' =>
          rw [asOf] at read
          cases read
          rfl
      | absent | unreadable =>
          rw [asOf] at read
          cases read
    refine (share_le_one some_).mpr (fits ver among d day ⟨wk, charted, before d passes, ?_⟩)
    intro d' reported earlier
    by_contra later
    have le : d ≤ d' := (not_le.mp later).le
    obtain ⟨v', member'⟩ := exists_stamp some_ reported
    rcases last (d', v') member' (upward d d' passes le earlier) with lt | ⟨same, _⟩
    · exact later lt.le
    · exact later same.le
  · exact (share_le_one some_).mpr (earnedDays_le items)

/-- What is on the chart is within what some week shows. -/
theorem exists_shown {weeks : List Int} (ordered : weeks.Pairwise (· < ·)) {dw : Nat}
    (data : dataWeek weeks (stamps items history meeting) = some dw) {ver : Version}
    (among : ver ∈ history) {d : Int} (day : ver.asOf = .day d)
    (charted : OnChart weeks history meeting d) :
    ∃ i wk, weeks[i]? = some wk ∧ i ≤ dw ∧ ∃ v,
      lastStamp (stamps items history meeting) (fun d => d ≤ wk) = some v ∧
        earnedDays ver.tasks / totalDays items ≤ v := by
  have sorted := @stamps_pairwise items history meeting some_
  have member : (d, earnedDays ver.tasks / totalDays items) ∈ stamps items history meeting :=
    (mem_stamps some_).mpr (Or.inl ⟨ver, among, by rw [day]; rfl, rfl⟩)
  obtain ⟨wk, inside, before, latest⟩ := charted
  -- a week that shows the stamps of that day or of a later one shows at least as much
  have shows : ∀ wk', d ≤ wk' → (∀ d' ∈ reportDays history meeting, d' ≤ wk' → d' ≤ d) → ∃ v,
      lastStamp (stamps items history meeting) (fun d => d ≤ wk') = some v ∧
        earnedDays ver.tasks / totalDays items ≤ v := by
    intro wk' before latest
    obtain ⟨v, shown⟩ := @exists_lastStamp _ (fun d => d ≤ wk') _ member (decide_eq_true before)
    refine ⟨v, shown, ?_⟩
    obtain ⟨d', member', passes, last⟩ := lastStamp_spec sorted shown
    have le := latest d' (stamp_day some_ member') (of_decide_eq_true passes)
    rcases last _ member (decide_eq_true before) with lt | ⟨_, le'⟩
    · exact absurd lt (not_lt.mpr le)
    · exact le'
  obtain ⟨i, short, here⟩ := List.mem_iff_getElem.mp inside
  by_cases early : i ≤ dw
  · exact ⟨i, wk, by rw [List.getElem?_eq_getElem short, here], early, shows wk before latest⟩
  · obtain ⟨wk', at_, after⟩ := le_dataWeek sorted data short (not_le.mp early)
    obtain ⟨short', here'⟩ := List.getElem?_eq_some_iff.mp at_
    have lt : wk' < wk := by
      rw [← here, ← here']
      exact List.pairwise_iff_getElem.mp ordered dw i short' short (not_le.mp early)
    refine ⟨dw, wk', at_, le_refl _, shows wk' (after _ member) fun d' reported le => ?_⟩
    exact latest d' reported (le.trans lt.le)

end Stamped

section Built

variable {tasks : List Dated} {history : List Version} {meetingDate : DateField} {today meeting : Int}
  {sheet : ProgressSheet}

/-- A sheet that is built has tasks and the rows of the charted weeks. -/
theorem buildScurveSheet_eq_some (held : meetingDay meetingDate today = some meeting)
    (built : buildScurveSheet tasks history meetingDate today = some (some sheet)) :
    chartedTasks tasks ≠ [] ∧ sheet.denominator = liveDenominator (chartedRows tasks) ∧
      sheet.rows = (scurveWeeks (tasks.map Dated.written) history).zipIdx.map fun w =>
        (6 + w.2, weekRow (tasks.map Dated.written) history (chartedRows tasks)
          (scurveWeeks (tasks.map Dated.written) history)
          (stamps (tasks.map Dated.written) history meeting) w.2 w.1) := by
  unfold buildScurveSheet at built
  simp only [held, Option.map_some] at built
  split at built
  · cases built
  · next some_ =>
    rw [not_or, List.isEmpty_iff] at some_
    cases built
    exact ⟨some_.1, rfl, rfl⟩

/-- There is a data week: the meeting of the plan is always a stamp. -/
theorem exists_dataWeek {items : List Item} (some_ : 0 < totalDays items) (weeks : List Int) :
    ∃ dw, dataWeek weeks (stamps items history meeting) = some dw := by
  obtain ⟨v, member⟩ := exists_stamp some_
    (List.mem_append_right _ (List.mem_singleton.mpr rfl) : meeting ∈ reportDays history meeting)
  rw [dataWeek, List.getLast?_eq_some_getLast (List.ne_nil_of_mem member)]
  exact ⟨_, rfl⟩

/-- Every row of the weeks has a Current plan formula. -/
theorem weekRow_live {items : List Item} {rows : List Nat} {weeks : List Int}
    {stamps : List (Int × ℚ)} {dw i : Nat} (data : dataWeek weeks stamps = some dw)
    (inside : i < weeks.length) (wk : Int) :
    ((weekRow items history rows weeks stamps i wk).current.isSome ∨
        (weekRow items history rows weeks stamps i wk).planOnly.isSome) ∧
      ∀ f, ((weekRow items history rows weeks stamps i wk).current = some f ∨
        (weekRow items history rows weeks stamps i wk).planOnly = some f) →
        f = livePlan rows (6 + i) := by
  unfold weekRow
  simp only [data, Option.all_some, Option.any_some, decide_eq_true_eq]
  constructor
  · by_cases upTo : i ≤ dw
    · rw [if_pos upTo]
      exact Or.inl rfl
    · rw [if_pos (by omega : dw ≤ i ∧ dw < weeks.length - 1)]
      exact Or.inr rfl
  · intro f written
    rcases written with written | written
    · split at written
      · cases written
        rfl
      · cases written
    · split at written
      · cases written
        rfl
      · cases written

/-- The written shares lie within 0 and 1 exactly when neither the first plan by some charted week
    nor a version on the chart has more than the whole of the plan. -/
theorem weekRows_inRange_iff {items : List Item} (some_ : 0 < totalDays items) {weeks : List Int}
    (ordered : weeks.Pairwise (· < ·)) (rows : List Nat) :
    (∀ i wk, weeks[i]? = some wk → ∀ v,
      ((weekRow items history rows weeks (stamps items history meeting) i wk).baseline = some v ∨
        (weekRow items history rows weeks (stamps items history meeting) i wk).reported = some v ∨
        (weekRow items history rows weeks (stamps items history meeting) i wk).observed = some v) →
      0 ≤ v ∧ v ≤ 1) ↔
    (∀ wk ∈ weeks, plannedDays (baseTasks history) wk ≤ totalDays items) ∧
      ∀ ver ∈ history, ∀ d, ver.asOf = .day d → OnChart weeks history meeting d →
        earnedDays ver.tasks ≤ totalDays items := by
  obtain ⟨dw, data⟩ := @exists_dataWeek history meeting _ some_ weeks
  have week : ∀ wk ∈ weeks, ∃ i : Nat, weeks[i]? = some wk := fun wk charted => by
    obtain ⟨i, short, rfl⟩ := List.mem_iff_getElem.mp charted
    exact ⟨i, List.getElem?_eq_getElem short⟩
  constructor
  · intro inRange
    constructor
    · intro wk charted
      by_cases none_ : baseTasks history = []
      · rw [none_]
        exact some_.le
      · obtain ⟨i, at_⟩ := week wk charted
        have written : (weekRow items history rows weeks (stamps items history meeting) i wk).baseline =
            some ((plannedDays (baseTasks history) wk : ℚ) / totalDays items) :=
          if_neg (not_or.mpr ⟨fun empty => none_ (List.isEmpty_iff.mp empty), some_.ne'⟩)
        have le := (inRange i wk at_ _ (Or.inl written)).2
        exact Int.cast_le.mp ((share_le_one some_).mp le)
    · intro ver among d day charted
      obtain ⟨i, wk, at_, early, v, shown, le⟩ := exists_shown some_ ordered data among day charted
      have written : (weekRow items history rows weeks (stamps items history meeting) i wk).reported =
          some v := by
        unfold weekRow
        simp only [data, Option.any_some, decide_eq_true_eq]
        rw [if_pos early]
        exact shown
      exact (share_le_one some_).mp (le.trans (inRange i wk at_ v (Or.inr (Or.inl written))).2)
  · rintro ⟨baseline, fits⟩ i wk at_ v written
    have charted : wk ∈ weeks := List.mem_of_getElem? at_
    rcases written with written | written | written
    · unfold weekRow at written
      dsimp only at written
      split at written
      · cases written
      · cases written
        refine ⟨div_nonneg (Int.cast_nonneg (plannedDays_nonneg _ _)) (Int.cast_nonneg some_.le), ?_⟩
        exact (share_le_one some_).mpr (Int.cast_le.mpr (baseline wk charted))
    · unfold weekRow at written
      simp only [data, Option.any_some, decide_eq_true_eq] at written
      split at written
      · exact shown_inRange some_ fits charted (fun d before => of_decide_eq_true before)
          (fun _ _ _ _ before => decide_eq_true before) written
      · cases written
    · have inside : ∀ {d : Int}, decide (wk - 6 ≤ d ∧ d ≤ wk) = true → wk - 6 ≤ d ∧ d ≤ wk :=
        of_decide_eq_true
      exact @shown_inRange _ _ _ some_ _ fits _ charted _ (fun d => wk - 6 ≤ d ∧ d ≤ wk)
        (fun d passes => (inside passes).2)
        (fun d d' passes later before => decide_eq_true ⟨(inside passes).1.trans later, before⟩) written

end Built

end GhostPour.Documents
