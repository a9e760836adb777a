/-
Module: GhostPour.Documents.Proofs.WorkdayLaws
Layer: Proofs
Purpose: The working-day arithmetic behind the dates of a workbook agrees with the spreadsheet functions it
  is mixed with: an offset is what `WORKDAY` undoes, offsets turn and add up, the inclusive count is
  `NETWORKDAYS`, and a snapped span lies inside the given one wherever that holds a working day.
Trusted boundary: none
Main exports: workday_workdayOffset, workdayOffset_neg, workdayOffset_add, wdInclusive_eq_networkdays,
  snapSpan_inside_iff, offsets_match_spreadsheet
-/
import GhostPour.Documents.Proofs.ProgressScale

namespace GhostPour.Documents

/-! ### Offsets -/

section
variable {a b c : Int} (worksA : isWorkday a = true) (worksB : isWorkday b = true)
include worksA worksB

/-- `WORKDAY` by the offset from one working day to another reaches it. -/
theorem workday_workdayOffset : workday a (workdayOffset a b) = b := by
  rw [workdayOffset_eq worksA worksB, workday_of_isWorkday worksA]
  rw [show workIndex a + (workIndex b - workIndex a) = workIndex b by omega]
  exact workdayAt_workIndex worksB

theorem workdayOffset_neg : workdayOffset b a = -workdayOffset a b := by
  rw [workdayOffset_eq worksA worksB, workdayOffset_eq worksB worksA, neg_sub]

theorem workdayOffset_add (worksC : isWorkday c = true) :
    workdayOffset a b + workdayOffset b c = workdayOffset a c := by
  rw [workdayOffset_eq worksA worksB, workdayOffset_eq worksB worksC, workdayOffset_eq worksA worksC]
  omega

end

/-! ### Counting both ends -/

theorem wdInclusive_eq_networkdays {a b : Int} (le : a ≤ b) : wdInclusive a b = networkdays a b := by
  rw [wdInclusive_eq, networkdays_eq_card le]

/-! ### Snapping a span -/

/-- No working day lies between a day and the one it is moved on to. -/
theorem nextWorkday_least {s d : Int} (from_ : s ≤ d) (works : isWorkday d = true) : nextWorkday s ≤ d := by
  rw [isWorkday, weekday, decide_eq_true_eq] at works
  unfold nextWorkday weekday
  split_ifs <;> omega

/-- No working day lies between a day and the one it is moved back to. -/
theorem prevWorkday_greatest {e d : Int} (upto : d ≤ e) (works : isWorkday d = true) : d ≤ prevWorkday e := by
  rw [isWorkday, weekday, decide_eq_true_eq] at works
  unfold prevWorkday weekday
  split_ifs <;> omega

theorem le_nextWorkday (s : Int) : s ≤ nextWorkday s := by
  unfold nextWorkday
  split_ifs <;> omega

theorem prevWorkday_le (e : Int) : prevWorkday e ≤ e := by
  unfold prevWorkday
  split_ifs <;> omega

/-- A snapped span lies inside the given one exactly where that holds a working day. -/
theorem snapSpan_inside_iff (s e : Int) :
    s ≤ (snapSpan s e).start ∧ (snapSpan s e).finish ≤ e ↔ ∃ d, s ≤ d ∧ d ≤ e ∧ isWorkday d = true := by
  constructor
  · rintro ⟨from_, upto⟩
    exact ⟨_, from_, (snapSpan s e).ordered.trans upto, (snapSpan s e).startWorks⟩
  · rintro ⟨d, from_, upto, works⟩
    have ordered : ¬prevWorkday e < nextWorkday s :=
      not_lt.mpr ((nextWorkday_least from_ works).trans (prevWorkday_greatest upto works))
    rw [snapSpan, dif_neg ordered]
    exact ⟨le_nextWorkday s, prevWorkday_le e⟩

/-- The dates that Python may hold stay dates: the first of them is a Monday and the last a Friday. -/
theorem snap_stays_date {d : Int} (low : 0 ≤ d) (high : d ≤ 3652058) :
    nextWorkday d ≤ 3652058 ∧ 0 ≤ prevWorkday d := by
  unfold nextWorkday prevWorkday weekday
  constructor
  · split_ifs <;> omega
  · split_ifs <;> omega

/-- The working-day arithmetic is the spreadsheet's. -/
theorem offsets_match_spreadsheet :
    (∀ a b : Int, isWorkday a = true → isWorkday b = true →
      workday a (workdayOffset a b) = b ∧ workdayOffset b a = -workdayOffset a b) ∧
    (∀ a b c : Int, isWorkday a = true → isWorkday b = true → isWorkday c = true → a ≤ b → b ≤ c →
      workdayOffset a b + workdayOffset b c = workdayOffset a c) ∧
    (∀ a b : Int, a ≤ b → wdInclusive a b = networkdays a b) ∧
    ∀ s e : Int, isWorkday (snapSpan s e).start = true ∧ isWorkday (snapSpan s e).finish = true ∧
      (snapSpan s e).start ≤ (snapSpan s e).finish ∧
      (s ≤ (snapSpan s e).start ∧ (snapSpan s e).finish ≤ e ↔ ∃ d, s ≤ d ∧ d ≤ e ∧ isWorkday d = true) := by
  refine ⟨fun a b worksA worksB => ?_, fun a b c worksA worksB worksC _ _ => ?_, fun a b le => ?_,
    fun s e => ?_⟩
  · exact ⟨workday_workdayOffset worksA worksB, workdayOffset_neg worksA worksB⟩
  · exact workdayOffset_add worksA worksB worksC
  · exact wdInclusive_eq_networkdays le
  · exact ⟨(snapSpan s e).startWorks, (snapSpan s e).finishWorks, (snapSpan s e).ordered,
      snapSpan_inside_iff s e⟩

end GhostPour.Documents
