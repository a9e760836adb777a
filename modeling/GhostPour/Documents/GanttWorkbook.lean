/-
Module: GhostPour.Documents.GanttWorkbook
Layer: Model
Purpose: What the Gantt renderers (`app/services/doc_templates.py`) write into the cells of their workbooks: the
  Gantt View around the dates of `GanttSheet`, and for the detailed style the sheets Slip, Receipts and
  Progress. Fonts, fills, comments, links, charts and print settings are left out.
Trusted boundary: the decoding of the extraction's JSON; the overall percent is a fraction, not a float;
  `strftime` in the C locale
Main exports: Extraction, ganttView, receiptsOf, fieldLabel, slipPage, receiptsPage, progressPage, renderGantt,
  renderGanttDetailed
-/
import GhostPour.Budget.Pricing
import GhostPour.Documents.PlanWorkbook
import GhostPour.Documents.Slip
import GhostPour.Library.IsoText

namespace GhostPour.Documents

/-- The extracted plan; a project or a meeting date that is missing has no text. -/
structure Extraction where
  tasks : List Item
  project : PyStr
  meetingDate : DateField
  meetingText : PyStr

/-! ### Texts of dates -/

/-- `date.isoformat()`. -/
def isoDay (d : Int) : PyStr := DateTime.dayText d.toNat

/-- The months, as `%b` names them. -/
def monthNames : List String :=
  ["Jan", "Feb", "Mar", "Apr", "May", "Jun", "Jul", "Aug", "Sep", "Oct", "Nov", "Dec"]

/-- A day as month and day of the month. -/
def dayOfMonth (d : Int) : PyStr × Nat :=
  let t := DateTime.ofInstant (d.toNat * microsPerDay)
  (py (monthNames.getD (t.month % 12) "Jan"), t.day)

/-- `strftime("%b %d")`. -/
def monthDay (d : Int) : PyStr := (dayOfMonth d).1 ++ (32 :: digits 2 (dayOfMonth d).2)

/-- `strftime("%b %-d")`. -/
def shortMonthDay (d : Int) : PyStr := (dayOfMonth d).1 ++ (32 :: strOfNat (dayOfMonth d).2)

/-- `s or other`. -/
def orText (s other : PyStr) : PyStr := if s = [] then other else s

/-! ### The strip -/

section Strip

variable (tasks : List Dated) (today : Int)

/-- `at_risk`. -/
def atRisk (t : Dated) : Bool :=
  t.status = .blocked ∨ (t.status = .notStarted ∧ t.start < today) ∨
    (t.status ≠ .complete ∧ t.finish < today)

/-- What is done of a task: the stated percent, else all or nothing. -/
def doneShare (t : Dated) : ℚ :=
  match t.percentComplete with
  | some p => p / 100
  | none => if t.status = .complete then 1 else 0

/-- `_overall`. -/
def overall : Option Int :=
  let weight := fun t : Dated => t.finish - t.start
  let all := ((realTasks tasks).map weight).sum
  if all = 0 then none
  else
    some (Budget.roundHalfEven (100 * ((realTasks tasks).map fun t => weight t * doneShare t).sum / all))

/-- `_next_ms`: the earliest milestone that is not done and not past. -/
def nextMilestone : Option Dated :=
  ((realTasks tasks).filter fun t =>
      t.kind = .milestone ∧ t.status ≠ .complete ∧ today ≤ t.start).foldl
    (fun best t => if best.any fun b => b.start ≤ t.start then best else some t) none

/-- `_date_coverage`: how many activities have dates, of how many. -/
def dateCoverage (items : List Item) : Nat × Nat :=
  let real := (pointsAreMilestones items).filter fun t => t.kind ≠ .phase
  ((real.filter Item.hasDates).length, real.length)

/-- `_bits`. -/
def stripBits (x : Extraction) : List PyStr :=
  let coverage := dateCoverage x.tasks
  let risks := ((realTasks tasks).filter (atRisk today)).length
  [py "As of the " ++ orText x.meetingText (isoDay today) ++ py " standup",
    py "generated " ++ isoDay today, strOfNat (realTasks tasks).length ++ py " tasks"] ++
  (if coverage.1 < coverage.2 then
    [py "dates on " ++ strOfNat coverage.1 ++ py " of " ++ strOfNat coverage.2 ++ py " activities"]
  else []) ++
  ((overall tasks).map fun p => strOfInt p ++ py "% complete overall").toList ++
  [(if risks = 0 then py "none" else strOfNat risks) ++ py " at risk as of " ++ monthDay today] ++
  ((nextMilestone tasks today).map fun t =>
    py "next milestone: " ++ t.name ++ py " " ++ monthDay t.start).toList

end Strip

/-! ### The grid -/

/-- `days`. -/
def gridDays (tasks : List Dated) : List Int :=
  ((List.range (latestEnd tasks - earliestStart tasks + 29).toNat).map fun n =>
    earliestStart tasks + (n : Int)).take 180

/-- `FIRST_DAY_COL`. -/
def firstDayCol (detailCols : Bool) : Nat := if detailCols then 13 else 11

/-- The axis: the hidden dates, the week labels and the letters of the days. -/
def axisPage (first : Nat) (days : List Int) : Page :=
  (days.zipIdx first).flatMap fun d =>
    ⟨1, d.2, .date d.1⟩ ::
      ((if weekday d.1 = 0 then [⟨2, d.2, .text (py "Week of " ++ monthDay d.1)⟩] else []) ++
        [⟨3, d.2, .text [(py "MTWTFSS").getD (weekday d.1).toNat 0]⟩])

/-- `_heads`. -/
def headTexts (detailCols : Bool) : List PyStr :=
  ["", "Task Name", "At\nRisk", "Status", "Start\nDate", "End\nDate", "Predecessors", "", "Assigned To",
    "%\nDone"].map py ++ if detailCols then ["Effort", "Float\nwork days"].map py else []

/-- The lines of the status key, from row 4 on; those with a dot have it in column A. -/
def keyLines (detailCols : Bool) : List (Bool × PyStr) :=
  [(false, py "  STATUS KEY"), (true, py "      COMPLETED"), (true, py "      IN PROGRESS"),
    (true, py "      ON HOLD"), (true, py "      NOT STARTED"),
    (false, py "      █ darker bar section = completed share, drives from % Done (deep red when the task is " ++
      py "at risk)"),
    (false, py "      blank % Done = nobody stated it in a meeting; values are never estimated"),
    (false, py "      phase % = duration-weighted; unstarted tasks count as 0, Complete tasks as 100")] ++
  if detailCols then
    [(false, py "      Float = working days this task can slip before the project end moves; 0 means it is on " ++
        py "the critical path (live, recalculates when you edit a date)"),
      (false, py "      shaded End Date = the meeting stated a condition on that date, not a firm commitment; " ++
        py "hover the cell for the condition")]
  else []

/-- The status key. -/
def keyPage (detailCols : Bool) : Page :=
  ((keyLines detailCols).zipIdx 4).flatMap fun line =>
    (if line.1.1 then [⟨line.2, 1, .text (py "●")⟩] else []) ++ [⟨line.2, 2, .text line.1.2⟩]

/-- The formula of a bar cell, with the mark it shows in range. -/
def barFormula (mark : PyStr) (row col : Nat) : PyStr :=
  py "=IF(AND(" ++ columnLetter col ++ py "$1>=$E" ++ strOfNat row ++ py "," ++ columnLetter col ++
    py "$1<=$F" ++ strOfNat row ++ py "),\"" ++ mark ++ py "\",\"\")"

/-- The formula of the arrow past the last day. -/
def arrowFormula (row last : Nat) : PyStr :=
  py "=IF($F" ++ strOfNat row ++ py ">" ++ columnLetter last ++ py "$1,\"→\",\"\")"

/-- The bar of a row. -/
def barPage (mark : String) (row first days : Nat) : Page :=
  ((List.range' first days).map fun col => ⟨row, col, .composed (.text (barFormula (py mark) row col))⟩) ++
    [⟨row, first + days, .composed (.text (arrowFormula row (first + days - 1)))⟩]

/-- The rolled-up percent of a phase, over the rows of its children. -/
def phaseFormula (c1 cn : Nat) : PyStr :=
  let span := fun column : String =>
    py "$" ++ py column ++ strOfNat c1 ++ py ":$" ++ py column ++ strOfNat cn
  let weight := py "(" ++ span "F" ++ py "-" ++ span "E" ++ py ")"
  py "=IF(SUMPRODUCT(" ++ weight ++ py ")=0,\"\",SUMPRODUCT(" ++ weight ++ py "*((" ++ span "J" ++
    py ")+(" ++ span "J" ++ py "=\"\")*(" ++ span "D" ++ py "=\"Complete\")))/SUMPRODUCT(" ++ weight ++
    py "))"

/-- `_STATUS_LABELS`. -/
def statusLabel : Status → PyStr
  | .complete => py "Complete"
  | .inProgress => py "In Progress"
  | .onHold => py "On Hold"
  | .notStarted => py "Not Started"
  | .blocked => py "Blocked"

/-- A code of the Predecessors cell. -/
def codeText : DepCode → PyStr
  | .SS => py "SS"
  | .FF => py "FF"
  | .FS => py "FS"

/-- The Predecessors cell of a row. -/
def predecessorEntry (p : Nat × List (Nat × DepCode)) : Entry :=
  ⟨p.1, 7, .text (join (py ", ") (p.2.map fun c => strOfNat c.1 ++ codeText c.2))⟩

/-- The letter of a column of dates: the hidden two are past the arrows. -/
def columnNumber (last : Nat) : Column → Nat
  | .start => 5
  | .finish => 6
  | .lateStart => last + 2
  | .projectFinish => last + 3
  | .float => 12

/-- A cell of dates: a date as it is, or a formula. -/
def dateEntry (last : Nat) (c : Cell × Formula Cell) : Entry :=
  ⟨c.1.2, columnNumber last c.1.1, match c.2 with
    | .num d => .date d
    | f => .composed (.dates f)⟩

/-! ### The rows of the Gantt View -/

section
variable [CaseRuntime]

/-- `(t.get("owner") or "").strip()`. -/
def Item.ownerText (t : Item) : PyStr := strip (t.owner.getD [])

/-- `initials`. -/
def initials (owner : PyStr) : PyStr := upper (((words owner).take 2).flatMap fun w => w.take 1)

/-- `render_task`, less the dates and the Predecessors. -/
def taskPage (detailCols : Bool) (today : Int) (first days row : Nat) (t : Dated) : Page :=
  let milestone := t.kind = .milestone
  [⟨row, 1, .text (if milestone then [] else py "●")⟩,
    ⟨row, 2, .text ((if milestone then py "          🏁 " else py "          ") ++ t.name)⟩,
    ⟨row, 3, .text (if atRisk today t then py "⚑" else py "⚐")⟩,
    ⟨row, 4, .text (statusLabel t.status)⟩] ++
  (if t.ownerText = [] then []
    else [⟨row, 8, .text (initials t.ownerText)⟩, ⟨row, 9, .text t.ownerText⟩]) ++
  ((t.percentComplete.filter fun p => 0 ≤ p ∧ p ≤ 100).map fun p : Int =>
    (⟨row, 10, .number (p / 100)⟩ : Entry)).toList ++
  (if detailCols then
    ((t.effort.map strip).filter (· ≠ [])).toList.map fun effort => ⟨row, 11, .text effort⟩
  else []) ++
  barPage (if milestone then "◆" else "█") row first days

/-- The row of a phase, less the dates. -/
def phasePage (tasks : List Dated) (first days row : Nat) (t : Dated) : Page :=
  let kids := children tasks t.id
  [⟨row, 1, .text (py "●")⟩, ⟨row, 2, .text (py "  −  " ++ t.name)⟩,
    ⟨row, 4, .text (statusLabel t.status)⟩] ++
  (if kids.any fun k => k.start < k.finish then
    [⟨row, 10, .composed (.text (phaseFormula (row + 1) (row + kids.length)))⟩]
  else []) ++
  barPage "█" row first days

/-- The Gantt View over what is drawn. -/
def ganttView (detailCols : Bool) (today : Int) (x : Extraction) (tasks : List Dated) (ws : Worksheet) :
    Page :=
  let first := firstDayCol detailCols
  let days := (gridDays tasks).length
  let projectRow := firstBarRow detailCols
  ⟨2, 2, .text (py "  " ++ join (py "  ·  ") (stripBits tasks today x))⟩ ::
    (axisPage first (gridDays tasks) ++
      ((headTexts detailCols).zipIdx 1).map (fun h => ⟨3, h.2, .text h.1⟩) ++
      keyPage detailCols ++
      ⟨projectRow, 2, .text (py "  " ++ orText x.project (py "Project"))⟩ ::
      (barPage "█" projectRow first days ++
        ws.rows.flatMap (fun r =>
          if r.2.kind = .phase then phasePage tasks first days r.1 r.2
          else taskPage detailCols today first days r.1 r.2) ++
        ws.predecessors.map predecessorEntry ++
        ws.cells.map (dateEntry (first + days - 1))))

/-- `_build_gantt_wb`, after the passes over the extraction. -/
def buildGanttView (detailCols : Bool) (today : Int) (x : Extraction) : Py Page :=
  match buildGanttWb detailCols (scheduled x.tasks) with
  | .ok ws => some (ganttView detailCols today x (scheduled x.tasks) ws)
  | .error _ => none

/-! ### Slip -/

/-- One move of a trail. -/
def trailText (e : SlipEntry) : PyStr :=
  monthDay e.date ++
    (if e.current then py " (current)"
      else match e.asOf with
        | some day => py " (said " ++ monthDay day ++ py ")"
        | none => []) ++
    if e.reason = [] then [] else py ": " ++ e.reason

/-- One row of the sheet. -/
def slipEntries (row : Nat) (s : SlipRow) : Page :=
  [⟨row, 1, .text s.task.name⟩, ⟨row, 2, .text s.task.ownerText⟩,
    ⟨row, 3, .date (s.baseline.getD s.current)⟩,
    ⟨row, 4, .text (if s.firstTracked then py "first tracked now"
      else (s.baselineAsOf.map isoDay).getD (py "stated"))⟩,
    ⟨row, 5, .date s.current⟩, ⟨row, 6, .number s.moves⟩,
    ⟨row, 7, .composed (.text (py "=E" ++ strOfNat row ++ py "-C" ++ strOfNat row))⟩,
    ⟨row, 8, .text (if s.moves = 0 then [] else join (py " → ") (s.trail.map trailText))⟩]

/-- The note under the rows. -/
def slipNote (rows : List SlipRow) (history : List Version) : Option PyStr :=
  if history = [] then
    some (if rows.any (·.spokenAny) then
      py "This is the first generated plan for this project, so the trail above is what people said in the " ++
        py "meetings. Future gantts add plan versions to it."
    else
      py "Nobody stated a due date more than once in these meetings, so there is nothing to compare yet: " ++
        py "every future gantt for this project adds a dated version to compare against.")
  else none

/-- A row of texts. -/
def textRow (row : Nat) (texts : List PyStr) : Page := (texts.zipIdx 1).map fun t => ⟨row, t.2, .text t.1⟩

/-- What stands over the table. -/
def slipIntro : List PyStr :=
  [py "Slip, how due dates moved across plan versions",
    py "First committed is the earliest due date anyone stated for the task, taken from the meetings " ++
      py "themselves; where nobody stated one, it falls back to the earliest generated plan that tracked the " ++
      py "task. Variance is current minus first committed: positive is late, negative is early. The trail " ++
      py "shows each move, the meeting it came from, and the reason when somebody gave one."]

/-- The heads of the columns. -/
def slipHeads : List PyStr :=
  ["Task", "Owner", "First committed", "As of", "Current due", "Times moved", "Variance (days)", "Trail"].map py

/-- Texts in the first column, from the top. -/
def textColumn (texts : List PyStr) : Page := (texts.zipIdx 1).map fun t => ⟨t.2, 1, .text t.1⟩

/-- The Slip sheet. -/
def slipPage (rows : List SlipRow) (history : List Version) : Page :=
  textColumn slipIntro ++ textRow 4 slipHeads ++ ((rows.zipIdx 5).flatMap fun s => slipEntries s.2 s.1) ++
    (slipNote rows history).toList.map fun note => ⟨5 + rows.length + 1, 1, .text note⟩

/-! ### Receipts -/

/-- `_norm_quote`. -/
def normQuote (s : PyStr) : PyStr := strip (spaceRuns false (lower s))

/-- `_FIELD_LABELS`. -/
def fieldLabels : List (PyStr × PyStr) :=
  [("end", "Due date"), ("end_date", "Due date"), ("due", "Due date"), ("start", "Start date"),
    ("start_date", "Start date"), ("owner", "Owner"), ("status", "Status"), ("effort", "Effort estimate"),
    ("percent_complete", "Progress"), ("percent", "Progress"), ("depends_on", "Dependency"),
    ("name", "Task"), ("conditional", "Condition")].map fun f => (py f.1, py f.2)

/-- `_field_label`. -/
def fieldLabel (field : PyStr) : PyStr :=
  let key := strip field
  (fieldLabels.lookup (lower key)).getD (capitalize (replaceChar 95 (py " ") key))

/-- A receipt, and the task it is for. -/
structure Receipt where
  task : Dated
  source : Evidence

/-- The receipt of a due date that was spoken. -/
def Spoken.receipt (t : Dated) (c : Spoken) : Receipt where
  task := t
  source := {
    field := py "end"
    quote := c.quote
    speaker := c.speaker
    meetingDate := (c.asOf.map isoDay).getD []
    standing := if c.date = t.finish then py "current" else py "superseded" }

/-- The receipts of a task: its commitments, then the evidence that quotes none of them. -/
def receiptsOf (t : Dated) : List Receipt :=
  let spoken := (commitments t.toItem).filter fun c => c.quote ≠ []
  let seen := spoken.map fun c => normQuote c.quote
  spoken.map (Spoken.receipt t) ++
    (t.evidence.filter fun ev => strip ev.quote ≠ [] ∧ normQuote ev.quote ∉ seen).map fun ev => ⟨t, ev⟩

/-- One row of the sheet. -/
def receiptEntries (row number : Nat) (r : Receipt) : Page :=
  textRow row [py "R" ++ strOfNat number, r.task.name, fieldLabel r.source.field,
    strip r.source.meetingDate, r.source.standing, r.source.speaker,
    dquote :: (strip r.source.quote ++ [dquote])]

/-- What stands over the table. -/
def receiptsIntro : List PyStr :=
  [py "Receipts, the meeting line behind every value",
    py "The plan is generated from the meetings, so provenance is automatic. Quotes are verbatim from the " ++
      py "source content.",
    py "Forwarding note: this sheet quotes people by name. Consider removing it before sending the workbook " ++
      py "outside the team."]

/-- The heads of the columns. -/
def receiptsHeads : List PyStr :=
  ["Ref", "Task", "Supports", "Meeting", "Standing", "Speaker", "Verbatim line"].map py

/-- The Receipts sheet. -/
def receiptsPage (receipts : List Receipt) : Page :=
  textColumn receiptsIntro ++ textRow 4 receiptsHeads ++
    (receipts.zipIdx 5).flatMap fun r => receiptEntries r.2 (r.2 - 4) r.1

/-! ### Progress -/

/-- The row of a week. -/
def weekEntries (row : Nat) (w : WeekRow) : Page :=
  [⟨row, 1, .text (shortMonthDay w.week)⟩, ⟨row, 10, .date w.week⟩] ++
  (w.baseline.map fun q => (⟨row, 2, .number q⟩ : Entry)).toList ++
  (w.current.map fun s => (⟨row, 3, .composed (.share s)⟩ : Entry)).toList ++
  (w.planOnly.map fun s => (⟨row, 4, .composed (.share s)⟩ : Entry)).toList ++
  (w.reported.map fun q => (⟨row, 5, .number q⟩ : Entry)).toList ++
  (w.observed.map fun q => (⟨row, 6, .number q⟩ : Entry)).toList ++
  if w.dataDate then [⟨row, 7, .number 1⟩] else []

/-- The notes over the table. -/
def progressNotes (tasks : List Dated) (coverage : Nat × Nat) : List PyStr :=
  let stated := (tasks.filter fun t => t.effort.any fun e => strip e ≠ []).length
  [py "Reported progress (from meetings)",
    py "Baseline is the first plan version and never moves. Every line here is a share of the plan as it " ++
      py "stands today, the baseline included, so a first plan that covered less work than today's tops out " ++
      py "below 100% instead of finishing at it. Current plan follows the dates on the Gantt View and redraws " ++
      py "when you edit them. Reported is % complete as of each meeting, held flat between meetings because " ++
      py "that is all the meetings said, and it stops at the data date. The vertical line marks the last " ++
      py "meeting that reported progress. Right of that line nothing has reported yet, so the chart shows plan " ++
      py "only, drawn dashed. The dots are the meetings themselves. This is a meeting-derived progress curve " ++
      py "measured against the plan as it stands today, not an earned-value S-curve, so adding scope raises " ++
      py "what is left rather than pushing the line back down.",
    py "Weighting: every task counts for its scheduled working days, which stands in for size. " ++
      strOfNat stated ++ py " of " ++ strOfNat tasks.length ++ py " tasks had an effort figure stated in a " ++
      py "meeting; none of the numbers here are weighted by it.",
    py "Date coverage: dates on " ++ strOfNat coverage.1 ++ py " of " ++ strOfNat coverage.2 ++
      py " activities." ++
      if coverage.1 < coverage.2 then
        py " Activities the meetings never dated are not on the timeline and not in these curves."
      else []]

/-- The heads of the columns. -/
def progressHeads : List PyStr :=
  ["Week ending", "First plan (baseline)", "Current plan", "Plan after data date (planned only)",
    "Reported (from meetings)", "At a meeting", "Data date"].map py

/-- The note under a table without a baseline. -/
def baselineNote : PyStr :=
  py "Baseline appears once this project has a second plan version to compare against."

/-- The Progress sheet. -/
def progressPage (x : Extraction) (tasks : List Dated) (history : List Version) (sheet : ProgressSheet) :
    Page :=
  textColumn (progressNotes (chartedTasks tasks) (dateCoverage x.tasks)) ++
    ⟨1, 10, .composed (.progress sheet.denominator)⟩ ::
      (textRow 5 progressHeads ++ sheet.rows.flatMap (fun w => weekEntries w.1 w.2) ++
        if baseTasks history = [] then [⟨5 + sheet.rows.length + 2, 1, .text baselineNote⟩] else [])

/-! ### The workbooks -/

/-- `render_gantt`. -/
def renderGantt (takes : Content → Bool) (today : Int) (x : Extraction) : Py (List Page) := do
  let view ← buildGanttView false today x
  saved takes [view]

/-- `render_gantt_detailed`. -/
def renderGanttDetailed (takes : Content → Bool) (today : Int) (x : Extraction) (history : List Version) :
    Py (List Page) := do
  let view ← buildGanttView true today x
  let tasks := scheduled x.tasks
  let progress ← buildScurveSheet tasks history x.meetingDate today
  saved takes ([view, slipPage (computeSlip tasks history x.meetingDate) history,
      receiptsPage ((realTasks tasks).flatMap receiptsOf)] ++
    progress.toList.map (progressPage x tasks history))

end

end GhostPour.Documents
