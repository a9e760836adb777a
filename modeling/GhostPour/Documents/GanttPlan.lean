/-
Module: GhostPour.Documents.GanttPlan
Layer: Model
Purpose: The extracted plan behind the Gantt workbook and the passes that run before a workbook is
  built: zero-duration tasks become milestones, spans are pulled onto working days, and activities
  without dates are left out. A date field holds what `_d` reads in it.
Trusted boundary: the decoding of the extraction's JSON and `strptime`; the years a date can have
Main exports: Item, Span, Dated, pointsAreMilestones, snapSpan, withWorkdays, splitUndated,
  scheduled, workdayOffset, DepCode, depCode, passWorkdays, workdayOffset_loop
-/
import GhostPour.Library.WorkingDays
import GhostPour.Library.PyText

namespace GhostPour.Documents

/-! ### The extraction -/

/-- A date in the extraction: missing or empty, not a date, or a day. -/
inductive DateField where
  | absent
  | unreadable
  | day (d : Int)
deriving DecidableEq, Repr

/-- `_d`: the day a field names; `none` where it raises. -/
def DateField.read : DateField → Option Int
  | .day d => some d
  | _ => none

/-- `"type"` of an item. -/
inductive Kind where
  | phase
  | task
  | milestone
deriving DecidableEq, Repr

/-- `"status"` of an item. -/
inductive Status where
  | complete
  | inProgress
  | onHold
  | notStarted
  | blocked
deriving DecidableEq, Repr

/-- A due date somebody stated, as the extraction gives it. -/
structure Commitment where
  date : DateField
  asOf : DateField
  quote : PyStr
  speaker : PyStr
  reason : PyStr
deriving DecidableEq, Repr

/-- A quote behind a value, as the extraction gives it. -/
structure Evidence where
  field : PyStr
  quote : PyStr
  speaker : PyStr
  meetingDate : PyStr
  standing : PyStr
deriving DecidableEq, Repr

/-- One entry of the extraction's `"tasks"`. -/
structure Item where
  id : Int
  name : PyStr
  kind : Kind
  parentId : Option Int
  status : Status
  rawStart : DateField
  rawEnd : DateField
  dependsOn : List Int
  percentComplete : Option Int
  commitments : List Commitment
  owner : Option PyStr := none
  effort : Option PyStr := none
  evidence : List Evidence := []
deriving DecidableEq, Repr

/-! ### The passes -/

/-- An item that is a task starting and ending on one day is a milestone. -/
def Item.retyped (t : Item) : Item :=
  match t.kind, t.rawStart.read, t.rawEnd.read with
  | .task, some s, some e => if s = e then { t with kind := .milestone } else t
  | _, _, _ => t

/-- `_points_are_milestones`. -/
def pointsAreMilestones (tasks : List Item) : List Item := tasks.map Item.retyped

/-- `_next_workday`. -/
def nextWorkday (d : Int) : Int := if weekday d = 5 then d + 2 else if weekday d = 6 then d + 1 else d

/-- `_prev_workday`. -/
def prevWorkday (d : Int) : Int := if weekday d = 5 then d - 1 else if weekday d = 6 then d - 2 else d

/-- A span of days in order, with both ends on working days. -/
structure Span where
  start : Int
  finish : Int
  startWorks : isWorkday start = true
  finishWorks : isWorkday finish = true
  ordered : start ≤ finish
deriving DecidableEq, Repr

theorem isWorkday_nextWorkday (d : Int) : isWorkday (nextWorkday d) = true := by
  unfold isWorkday nextWorkday weekday
  rw [decide_eq_true_eq]
  split
  · omega
  · split <;> omega

theorem isWorkday_prevWorkday (d : Int) : isWorkday (prevWorkday d) = true := by
  unfold isWorkday prevWorkday weekday
  rw [decide_eq_true_eq]
  split
  · omega
  · split <;> omega

/-- `_snap_span`: a weekend start moves on to Monday, a weekend end back to Friday; a span on one
    weekend becomes one working day. -/
def snapSpan (s e : Int) : Span :=
  if inverted : prevWorkday e < nextWorkday s then
    { start := nextWorkday s, finish := nextWorkday s
      startWorks := isWorkday_nextWorkday s, finishWorks := isWorkday_nextWorkday s
      ordered := le_refl _ }
  else
    { start := nextWorkday s, finish := prevWorkday e
      startWorks := isWorkday_nextWorkday s, finishWorks := isWorkday_prevWorkday e
      ordered := not_lt.mp inverted }

/-- An item with dates, its span on working days. -/
structure Dated extends Item, Span
deriving DecidableEq, Repr

/-- The snapped span of an item; `none` when a date cannot be read. -/
def Item.snapped (t : Item) : Option Span :=
  match t.rawStart.read, t.rawEnd.read with
  | some s, some e => some (snapSpan s e)
  | _, _ => none

/-- `_with_workdays`: the items with their snapped spans; an item whose dates cannot be read passes
    through without one. -/
def withWorkdays (tasks : List Item) : List (Item × Option Span) :=
  tasks.map fun t => (t, t.snapped)

/-- `_split_undated`: the items that have dates. -/
def splitUndated (tasks : List (Item × Option Span)) : List Dated :=
  tasks.filterMap fun t => t.2.map fun span => { t.1, span with }

/-- What the renderers build a workbook from. -/
def scheduled (tasks : List Item) : List Dated :=
  splitUndated (withWorkdays (pointsAreMilestones tasks))

/-- The tasks and milestones, as `_real` and the rollups of the renderers take them. -/
def realTasks (tasks : List Dated) : List Dated := tasks.filter fun t => t.kind ≠ .phase

/-- `_d` reads both dates of an item. -/
def Item.hasDates (t : Item) : Bool := t.rawStart.read.isSome && t.rawEnd.read.isSome

@[simp] theorem Item.retyped_id (t : Item) : t.retyped.id = t.id := by
  unfold Item.retyped
  split
  · split <;> rfl
  · rfl

@[simp] theorem Item.retyped_snapped (t : Item) : t.retyped.snapped = t.snapped := by
  unfold Item.retyped
  split
  · split <;> rfl
  · rfl

theorem Item.snapped_isSome (t : Item) : t.snapped.isSome = t.hasDates := by
  unfold Item.snapped Item.hasDates
  cases t.rawStart.read with
  | none => rfl
  | some s => cases t.rawEnd.read <;> rfl

/-- Item by item, the passes retype, snap and keep the dated. -/
theorem scheduled_eq (plan : List Item) :
    scheduled plan = plan.filterMap fun t => t.snapped.map fun span => { t.retyped, span with } := by
  unfold scheduled splitUndated withWorkdays pointsAreMilestones
  rw [List.filterMap_map, List.filterMap_map]
  simp [Function.comp_def]

/-- The passes keep the ids of the items that have dates. -/
theorem scheduled_ids (plan : List Item) :
    (scheduled plan).map (·.id) = (plan.filter Item.hasDates).map (·.id) := by
  rw [scheduled_eq]
  induction plan with
  | nil => rfl
  | cons t plan ih =>
      have dated := t.snapped_isSome
      cases snapped : t.snapped with
      | none =>
          rw [snapped] at dated
          rw [List.filterMap_cons_none (by rw [snapped]; rfl), List.filter_cons_of_neg (by simp [← dated]),
            ih]
      | some span =>
          rw [snapped] at dated
          rw [List.filterMap_cons_some (by rw [snapped]; rfl), List.filter_cons_of_pos dated.symm,
            List.map_cons, List.map_cons, ih]
          simp

/-! ### Offsets between dates -/

/-- `_workday_offset`: the working days from one day to another, signed; those of `(a, b]`. -/
def workdayOffset (a b : Int) : Int :=
  if a = b then 0
  else if a < b then countWorkdays (a + 1) (b - a).toNat
  else -countWorkdays (b + 1) (a - b).toNat

/-- The two-letter code of a dependency. -/
inductive DepCode where
  | SS
  | FF
  | FS
deriving DecidableEq, Repr

/-- `_dep_code`: read off the dates. -/
def depCode (pred succ : Dated) : DepCode :=
  if succ.start = pred.start then .SS
  else if succ.finish = pred.finish then .FF
  else .FS

/-- Between working days the offset subtracts. -/
theorem workdayOffset_eq {a b : Int} (works : isWorkday a = true) (works' : isWorkday b = true) :
    workdayOffset a b = workIndex b - workIndex a := by
  have succ : workIndex (a + 1) = workIndex a + 1 := by rw [workIndex_succ, works, if_pos rfl]
  have succ' : workIndex (b + 1) = workIndex b + 1 := by rw [workIndex_succ, works', if_pos rfl]
  unfold workdayOffset
  split
  · next same => rw [same, sub_self]
  · split
    · rw [countWorkdays_eq, show a + 1 + ((b - a).toNat : Int) = b + 1 by omega, succ, succ']
      omega
    · rw [countWorkdays_eq, show b + 1 + ((a - b).toNat : Int) = a + 1 by omega, succ, succ']
      omega

/-! ### The loops behind the dates -/

/-- The `while` of `_next_workday`, round by round. -/
theorem nextWorkday_loop (d : Int) : nextWorkday d = if 5 ≤ weekday d then nextWorkday (d + 1) else d := by
  unfold nextWorkday weekday
  split_ifs <;> omega

/-- The `while` of `_prev_workday`, round by round. -/
theorem prevWorkday_loop (d : Int) : prevWorkday d = if 5 ≤ weekday d then prevWorkday (d - 1) else d := by
  unfold prevWorkday weekday
  split_ifs <;> omega

/-- The loop of `_workday_offset`: so many days on from a day, each working day counted. -/
def passWorkdays : Nat → Int → Int → Int
  | 0, _, n => n
  | k + 1, cur, n => passWorkdays k (cur + 1) (if weekday (cur + 1) < 5 then n + 1 else n)

theorem passWorkdays_eq (k : Nat) : ∀ cur n : Int,
    passWorkdays k cur n = n + (workIndex (cur + 1 + k) - workIndex (cur + 1)) := by
  induction k with
  | zero => intro cur n; simp [passWorkdays]
  | succ k ih =>
      intro cur n
      rw [passWorkdays, ih, Nat.cast_succ, show cur + 1 + ((k : Int) + 1) = cur + 1 + 1 + k by omega,
        workIndex_succ (cur + 1)]
      unfold isWorkday
      by_cases works : weekday (cur + 1) < 5
      · rw [if_pos works, decide_eq_true works, if_pos rfl]
        omega
      · rw [if_neg works, decide_eq_false works, if_neg Bool.false_ne_true]
        omega

/-- `_workday_offset`, as it loops from the earlier day to the later one. -/
theorem workdayOffset_loop (a b : Int) : workdayOffset a b =
    if a = b then 0 else passWorkdays (max a b - min a b).toNat (min a b) 0 * if a < b then 1 else -1 := by
  unfold workdayOffset
  split
  · rfl
  · split
    · next before =>
      rw [passWorkdays_eq, countWorkdays_eq, max_eq_right before.le, min_eq_left before.le]
      omega
    · next after =>
      rw [passWorkdays_eq, countWorkdays_eq, max_eq_left (not_lt.mp after), min_eq_right (not_lt.mp after)]
      omega

end GhostPour.Documents
