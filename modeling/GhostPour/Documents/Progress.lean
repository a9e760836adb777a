/-
Module: GhostPour.Documents.Progress
Layer: Model
Purpose: The Progress sheet: the weeks it charts, the working days that a plan has scheduled and
  banked, the baseline and reported shares that are computed once, and the live Current plan
  formulas over the dates of the Gantt View. Text, styles and the chart's layout are left out.
Trusted boundary: shares are fractions, not floats; `openpyxl` writes what it is given
Main exports: Version, wdInclusive, earnedDays, totalDays, plannedDays, scurveWeeks, Place, Share,
  WeekRow, ProgressSheet, stamps, buildScurveSheet
-/
import GhostPour.Documents.GanttSheet

namespace GhostPour.Documents

/-- One earlier plan of `plan_snapshots.history`. -/
structure Version where
  asOf : DateField
  tasks : List Item
deriving DecidableEq, Repr

/-- The item as `_with_workdays` leaves it, its dates written over. -/
def Dated.written (t : Dated) : Item :=
  { t.toItem with rawStart := .day t.start, rawEnd := .day t.finish }

/-! ### Counting working days -/

/-- `_wd_inclusive`. -/
def wdInclusive (a b : Int) : Int :=
  if b < a then 0 else workdayOffset a b + if weekday a < 5 then 1 else 0

/-- The span of an item that the curves count: that of a task whose dates can be read. -/
def Item.work (t : Item) : Option (Int × Int) :=
  match t.kind, t.rawStart.read, t.rawEnd.read with
  | .task, some s, some e => some (s, e)
  | _, _, _ => none

/-- The stated percent, 100 when complete, 0 otherwise; within 0 and 100. -/
def Item.percentDone (t : Item) : Int :=
  let pct := t.percentComplete.getD (if t.status = .complete then 100 else 0)
  min (max pct 0) 100

/-- What one item adds in `_earned_days`. -/
def Item.earned (t : Item) : ℚ :=
  match t.work with
  | none => 0
  | some (s, e) =>
      let dur := wdInclusive s e
      if dur ≤ 0 then 0 else dur * t.percentDone / 100

/-- `_earned_days`. -/
def earnedDays (tasks : List Item) : ℚ := (tasks.map Item.earned).sum

/-- What one item adds in `_total_days`. -/
def Item.total (t : Item) : Int :=
  match t.work with
  | none => 0
  | some (s, e) =>
      let dur := wdInclusive s e
      if dur > 0 then dur else 0

/-- `_total_days`. -/
def totalDays (tasks : List Item) : Int := (tasks.map Item.total).sum

/-- What one item adds in `_planned_days`. -/
def Item.planned (upto : Int) (t : Item) : Int :=
  match t.work with
  | none => 0
  | some (s, e) =>
      let dur := wdInclusive s e
      if dur ≤ 0 then 0
      else if upto ≥ s then min (wdInclusive s (min e upto)) dur
      else 0

/-- `_planned_days`. -/
def plannedDays (tasks : List Item) (upto : Int) : Int := (tasks.map (Item.planned upto)).sum

/-! ### The weeks -/

/-- The days an item names. -/
def Item.days (t : Item) : List Int := [t.rawStart, t.rawEnd].filterMap DateField.read

/-- The loop of `_scurve_weeks`: a Friday and those after it, so many at most. -/
def weeksFrom (hi cur : Int) : Nat → List Int
  | 0 => []
  | n + 1 => if cur ≤ hi + 7 then cur :: weeksFrom hi (cur + 7) n else []

/-- `_scurve_weeks`. -/
def scurveWeeks (tasks : List Item) (history : List Version) : List Int :=
  match (tasks :: history.map (·.tasks)).flatten.flatMap Item.days with
  | [] => []
  | d :: dates =>
      let lo := dates.foldl min d
      let hi := dates.foldl max d
      weeksFrom hi (lo + (4 - weekday lo) % 7) 80

/-! ### The sheet -/

/-- A cell of the Gantt View, or one of the hidden column J of the Progress sheet. -/
inductive Place where
  | gantt (c : Cell)
  | helper (row : Nat)
deriving DecidableEq, Repr

/-- `IFERROR((a)/b,"")`. -/
structure Share where
  numerator : Formula Place
  denominator : Formula Place
deriving DecidableEq, Repr

/-- The row of a week: the week ending in column J, the baseline in B, the current plan in C and D,
    the reported shares in E and F, and the mark of the data date in G. -/
structure WeekRow where
  week : Int
  baseline : Option ℚ
  current : Option Share
  planOnly : Option Share
  reported : Option ℚ
  observed : Option ℚ
  dataDate : Bool
deriving DecidableEq

/-- What is written on the Progress sheet: the denominator in J1 and the rows of the weeks. -/
structure ProgressSheet where
  denominator : Formula Place
  rows : List (Nat × WeekRow)
deriving DecidableEq

/-- The Start or End cell of a row of the Gantt View. -/
def ganttRef (column : Column) (row : Nat) : Formula Place := .ref (.gantt (column, row))

/-- The denominator in J1. -/
def liveDenominator (rows : List Nat) : Formula Place :=
  .sumOf (rows.map fun r => .networkdays (ganttRef .start r) (ganttRef .finish r))

/-- The Current plan formula of a row. -/
def livePlan (rows : List Nat) (row : Nat) : Share where
  numerator := .sumOf (rows.map fun r => .max (.num 0)
    (.networkdays (ganttRef .start r) (.min (ganttRef .finish r) (.ref (.helper row)))))
  denominator := .ref (.helper 1)

/-- The order of Python's pairs. -/
def stampLe (a b : Int × ℚ) : Bool := a.1 < b.1 ∨ a.1 = b.1 ∧ a.2 ≤ b.2

/-- The meeting of the plan that is drawn: its own date, today without one; `none` where the date
    cannot be read and the build stops. -/
def meetingDay (meetingDate : DateField) (today : Int) : Option Int :=
  match meetingDate with
  | .absent => some today
  | field => field.read

/-- `stamps`: what each version had banked and what this plan has, over this plan's total, in
    order. -/
def stamps (tasks : List Item) (history : List Version) (meeting : Int) : List (Int × ℚ) :=
  let denom := totalDays tasks
  if denom = 0 then []
  else
    ((history.filterMap fun ver => ver.asOf.read.map fun d => (d, earnedDays ver.tasks / denom)) ++
      [(meeting, earnedDays tasks / denom)]).mergeSort stampLe

/-- `dw_idx`: the first week at or after the last stamp, else the last week. -/
def dataWeek (weeks : List Int) (stamps : List (Int × ℚ)) : Option Nat :=
  stamps.getLast?.map fun last => (weeks.findIdx? fun wk => last.1 ≤ wk).getD (weeks.length - 1)

/-- `base_tasks`. -/
def baseTasks (history : List Version) : List Item := ((history.head?).map (·.tasks)).getD []

/-- The value of the last stamp that a test passes. -/
def lastStamp (stamps : List (Int × ℚ)) (test : Int → Bool) : Option ℚ :=
  ((stamps.filter fun s => test s.1).getLast?).map (·.2)

/-- The body of the loop over the weeks. -/
def weekRow (tasks : List Item) (history : List Version) (rows : List Nat) (weeks : List Int)
    (stamps : List (Int × ℚ)) (i : Nat) (wk : Int) : WeekRow :=
  let denom := totalDays tasks
  let formula := livePlan rows (6 + i)
  let upTo := (dataWeek weeks stamps).all fun dw => i ≤ dw
  let past := (dataWeek weeks stamps).any fun dw => dw ≤ i ∧ dw < weeks.length - 1
  { week := wk
    baseline := if (baseTasks history).isEmpty ∨ denom = 0 then none
      else some (plannedDays (baseTasks history) wk / denom)
    current := if upTo then some formula else none
    planOnly := if past then some formula else none
    reported := if (dataWeek weeks stamps).any fun dw => i ≤ dw then
        lastStamp stamps fun d => d ≤ wk
      else none
    observed := lastStamp stamps fun d => wk - 6 ≤ d ∧ d ≤ wk
    dataDate := dataWeek weeks stamps = some i }

/-- The tasks of the sheet. -/
def chartedTasks (tasks : List Dated) : List Dated := tasks.filter fun t => t.kind = .task

/-- The rows of the Gantt View that the sheet refers to. -/
def chartedRows (tasks : List Dated) : List Nat :=
  (chartedTasks tasks).filterMap fun t => (rowOf tasks (firstBarRow true)).get t.id

/-- `_build_scurve_sheet`: no sheet without tasks, weeks or rows; `none` where the build stops. -/
def buildScurveSheet (tasks : List Dated) (history : List Version) (meetingDate : DateField)
    (today : Int) : Option (Option ProgressSheet) :=
  let items := tasks.map Dated.written
  let weeks := scurveWeeks items history
  let rows := chartedRows tasks
  if (chartedTasks tasks).isEmpty ∨ weeks.isEmpty ∨ rows.isEmpty then some none
  else
    (meetingDay meetingDate today).map fun meeting =>
      let stamps := stamps items history meeting
      some {
        denominator := liveDenominator rows
        rows := weeks.zipIdx.map fun w =>
          (6 + w.2, weekRow items history rows weeks stamps w.2 w.1) }

end GhostPour.Documents
