/-
Module: GhostPour.Documents.GanttSheet
Layer: Model
Purpose: The Gantt View: the row of every item, the formulas in its Start and End cells, the rollups
  of the phases and of the project, the Predecessors cells, and the late-start and float columns of
  the detailed style. Text, colors, the day grid and the other columns are left out.
Trusted boundary: the columns are named, not lettered; `openpyxl` writes what it is given
Main exports: Column, Cell, Worksheet, BuildError, rowOf, depFormulas, renderTask, renderPhase,
  floatCells, buildGanttWb, Worksheet.sheet
-/
import GhostPour.Documents.GanttPlan
import GhostPour.Library.Spreadsheet
import GhostPour.Library.Table
import GhostPour.Library.TopologicalSort

namespace GhostPour.Documents

/-- The columns that hold dates or formulas over dates: E, F, the two hidden helper columns, and
    Float. -/
inductive Column where
  | start
  | finish
  | lateStart
  | projectFinish
  | float
deriving DecidableEq, Repr

/-- A column and a row. -/
abbrev Cell := Column × Nat

/-- What is written on the Gantt View: the item on each row, the Predecessors cells as rows with
    codes, and the dates and formulas in the order they are written. -/
structure Worksheet where
  rows : List (Nat × Dated)
  predecessors : List (Nat × List (Nat × DepCode))
  cells : List (Cell × Formula Cell)
deriving DecidableEq, Repr

/-- The formulas of a worksheet; a later write replaces an earlier one. -/
def Worksheet.sheet (ws : Worksheet) : Sheet Cell := (Table.ofList ws.cells).get

/-- Why a build stops: nothing to draw, or an assertion on a row failed. -/
inductive BuildError where
  | noTasks
  | rowMismatch
deriving DecidableEq, Repr

/-- The row of the project: the key, the overlay, blank and phase legend lines come first, with one
    more line in the detailed style. -/
def firstBarRow (detailCols : Bool) : Nat := if detailCols then 14 else 12

section Layout

variable (tasks : List Dated)

/-- `by_id`. -/
def byId : Table Int Dated := .ofList (tasks.map fun t => (t.id, t))

/-- `phases`. -/
def phases : List Dated := tasks.filter fun t => t.kind = .phase

/-- `parent_id in children`. -/
def hasPhase (parent : Option Int) : Bool := (phases tasks).any fun p => parent = some p.id

/-- `children[pid]`. -/
def children (pid : Int) : List Dated :=
  tasks.filter fun t => t.kind ≠ .phase ∧ t.parentId = some pid

/-- `_orphans`. -/
def orphans : List Dated := tasks.filter fun t => t.kind ≠ .phase ∧ ¬hasPhase tasks t.parentId

/-- The items in the order the row pre-pass takes them. -/
def slots : List Dated :=
  (phases tasks).flatMap (fun p => p :: children tasks p.id) ++ orphans tasks

/-- `row_of`. -/
def rowOf (first : Nat) : Table Int Nat :=
  .ofList (((slots tasks).zipIdx (first + 1)).map fun s => (s.1.id, s.2))

/-- `_adj`. -/
def adj : Table Int (List Int) :=
  .ofList (tasks.map fun t => (t.id, t.dependsOn.filter fun d => ((byId tasks).get d).isSome))

/-- `_adj.get(id) or []`. -/
def depsOf (id : Int) : List Int := ((adj tasks).get id).getD []

/-- `_dependents.get(id, [])`. -/
def dependentsOf (id : Int) : List Int :=
  TopologicalSort.dependents ((adj tasks).rows.map Prod.fst) (depsOf tasks) id

/-- `_deps_acyclic`. -/
def depsAcyclic : Bool := TopologicalSort.visitsAll ((adj tasks).rows.map Prod.fst) (depsOf tasks)

end Layout

/-! ### Formulas -/

/-- `_workday_formula`. -/
def workdayFormula (expr : Formula Cell) (k : Int) : Formula Cell :=
  if k = 0 then expr else .workday expr (.num k)

/-- A reference to a cell of a row. -/
def cellRef (column : Column) (row : Nat) : Formula Cell := .ref (column, row)

/-- The references to so many rows of a column, from one row on. -/
def cellRange (column : Column) (row n : Nat) : List (Formula Cell) :=
  (List.range' row n).map (cellRef column)

/-- `date_cells`: Start and End, as dates or as the formulas given. -/
def dateCells (row : Nat) (s e : Int) (formulas : Option (Formula Cell × Formula Cell)) :
    List (Cell × Formula Cell) :=
  let written := formulas.getD (.num s, .num e)
  [((.start, row), written.1), ((.finish, row), written.2)]

section Builder

variable (tasks : List Dated) (first : Nat)

/-- The date of a predecessor that drives a dependent: its start where the starts align, else its
    end. -/
def drivingColumn (pred succ : Dated) : Column :=
  match depCode pred succ with
  | .SS => .start
  | _ => .finish

/-- The day in the driving column, as extracted. -/
def drivingDay (pred succ : Dated) : Int :=
  match depCode pred succ with
  | .SS => pred.start
  | _ => pred.finish

/-- One argument of a dependent's Start formula. -/
def startTerm (t : Dated) (dep : Int) : Option (Formula Cell) := do
  let p ← (byId tasks).get dep
  let prow ← (rowOf tasks first).get dep
  return workdayFormula (cellRef (drivingColumn p t) prow)
    (workdayOffset (drivingDay p t) t.start)

/-- `dep_formulas`. -/
def depFormulas (t : Dated) : Option (Formula Cell × Formula Cell) :=
  if (depsOf tasks t.id).isEmpty ∨ ¬depsAcyclic tasks then none
  else do
    let terms ← (depsOf tasks t.id).mapM (startTerm tasks first t)
    let r ← (rowOf tasks first).get t.id
    return (Formula.maxOf terms,
      workdayFormula (cellRef .start r) (workdayOffset t.start t.finish))

/-- The Predecessors cell. -/
def predecessorCodes (t : Dated) : List (Nat × DepCode) :=
  t.dependsOn.filterMap fun dep => do
    let p ← (byId tasks).get dep
    let prow ← (rowOf tasks first).get dep
    return (prow, depCode p t)

/-- `_proj_formulas`. -/
def projectFormulas : Option (Formula Cell × Formula Cell) :=
  if (phases tasks).isEmpty ∨ ¬depsAcyclic tasks then none
  else
    let prows := (phases tasks).filterMap fun p => (rowOf tasks first).get p.id
    some (Formula.minOf (prows.map (cellRef .start)), Formula.maxOf (prows.map (cellRef .finish)))

/-- `_phase_formulas`: the children occupy the rows right under the phase. -/
def phaseFormulas (row : Nat) (kids : List Dated) : Option (Formula Cell × Formula Cell) :=
  if kids.isEmpty ∨ ¬depsAcyclic tasks then none
  else some (Formula.minOf (cellRange .start (row + 1) kids.length),
    Formula.maxOf (cellRange .finish (row + 1) kids.length))

/-- The row to draw next and what is drawn so far. -/
structure Drawing where
  row : Nat
  sheet : Worksheet

/-- `render_task`. -/
def renderTask (s : Drawing) (t : Dated) : Except BuildError Drawing :=
  if (rowOf tasks first).get t.id ≠ some s.row then .error .rowMismatch
  else
    let codes := predecessorCodes tasks first t
    .ok {
      row := s.row + 1
      sheet := {
        rows := s.sheet.rows ++ [(s.row, t)]
        predecessors := s.sheet.predecessors ++ if codes.isEmpty then [] else [(s.row, codes)]
        cells := s.sheet.cells ++ dateCells s.row t.start t.finish (depFormulas tasks first t) } }

/-- The body of the loop over the phases: the phase's own row, then its children. -/
def renderPhase (s : Drawing) (phase : Dated) : Except BuildError Drawing :=
  if (rowOf tasks first).get phase.id ≠ some s.row then .error .rowMismatch
  else
    let kids := children tasks phase.id
    kids.foldlM (renderTask tasks first) {
      row := s.row + 1
      sheet := { s.sheet with
        rows := s.sheet.rows ++ [(s.row, phase)]
        cells := s.sheet.cells ++
          dateCells s.row phase.start phase.finish (phaseFormulas tasks s.row kids) } }

/-! ### Late starts and float -/

/-- The duration of a row, read off its own dates. -/
def liveDuration (row : Nat) : Formula Cell :=
  .sub (.networkdays (cellRef .start row) (cellRef .finish row)) (.num 1)

/-- `back`: so many working days earlier as the row lasts. -/
def back (row : Nat) (expr : Formula Cell) : Formula Cell :=
  .workday expr (.neg (liveDuration row))

/-- The dependents that bound a task: those that are drawn and are not phases. -/
def succs (t : Dated) : List (Dated × Nat) :=
  (dependentsOf tasks t.id).filterMap fun sid => do
    let sc ← (byId tasks).get sid
    let r ← (rowOf tasks first).get sid
    if sc.kind = .phase then none else some (sc, r)

/-- The latest start of a task that lets one dependent start on time. -/
def lateBound (t : Dated) (row : Nat) (sc : Dated × Nat) : Formula Cell :=
  match depCode t sc.1 with
  | .SS => workdayFormula (cellRef .lateStart sc.2) (-workdayOffset t.start sc.1.start)
  | _ => back row (workdayFormula (cellRef .lateStart sc.2) (-workdayOffset t.finish sc.1.start))

/-- The late start of a task on a row. -/
def lateStartFormula (t : Dated) (row : Nat) : Formula Cell :=
  match succs tasks first t with
  | [] => back row (cellRef .projectFinish 1)
  | bounds => Formula.minOf (bounds.map (lateBound t row))

/-- `_cpm`: the tasks and milestones that are drawn, with their rows. -/
def cpm : List (Dated × Nat) :=
  tasks.filterMap fun t => do
    let r ← (rowOf tasks first).get t.id
    if t.kind = .phase then none else some (t, r)

/-- The cells of the backward pass. -/
def floatCells : List (Cell × Formula Cell) :=
  if (cpm tasks first).isEmpty ∨ ¬depsAcyclic tasks then []
  else
    ((.projectFinish, 1), Formula.maxOf ((cpm tasks first).map fun t => cellRef .finish t.2)) ::
      (cpm tasks first).flatMap fun t =>
        [((.lateStart, t.2), lateStartFormula tasks first t.1 t.2),
          ((.float, t.2),
            .sub (.networkdays (cellRef .start t.2) (cellRef .lateStart t.2)) (.num 1))]

end Builder

/-- `min(_d(t["start"]) for t in tasks)`. -/
def earliestStart : List Dated → Int
  | [] => 0
  | t :: rest => rest.foldl (fun d u => min d u.start) t.start

/-- `max(_d(t["end"]) for t in tasks)`. -/
def latestEnd : List Dated → Int
  | [] => 0
  | t :: rest => rest.foldl (fun d u => max d u.finish) t.finish

/-- `_build_gantt_wb`, less the text and the grid. -/
def buildGanttWb (detailCols : Bool) (tasks : List Dated) : Except BuildError Worksheet :=
  if tasks.isEmpty then .error .noTasks
  else do
    let first := firstBarRow detailCols
    let project := dateCells first (earliestStart tasks) (latestEnd tasks) (projectFormulas tasks first)
    let drawn ← (phases tasks).foldlM (renderPhase tasks first) ⟨first + 1, ⟨[], [], project⟩⟩
    let drawn ← (orphans tasks).foldlM (renderTask tasks first) drawn
    let floats := if detailCols then floatCells tasks first else []
    return { drawn.sheet with cells := drawn.sheet.cells ++ floats }

end GhostPour.Documents
