/-
Module: GhostPour.Documents.PlanWorkbook
Layer: Model
Purpose: The cells of a workbook that is rendered from a sheet plan (`app/services/workbook_plan.py`): the
  cover sheet, and for each sheet its heading, its column labels, its rows with the columns that are
  computed, and its totals. Tab names are in `TextHygiene`; fonts, widths and number formats are left out.
Trusted boundary: `openpyxl` stores a text that starts with an equals sign as a formula, and raises on the
  values it does not take
Main exports: Composed, Content, Entry, Page, clean, formula, readmePage, sheetPage, renderWorkbook,
  renderContract
-/
import GhostPour.Documents.ArtifactTypes
import GhostPour.Documents.Progress
import GhostPour.Documents.TextHygiene

namespace GhostPour.Documents

/-! ### Cells -/

/-- A formula that a renderer composes, as text or over the cells it refers to. -/
inductive Composed where
  | text (t : PyStr)
  | dates (f : Formula Cell)
  | progress (f : Formula Place)
  | share (s : Share)

/-- What a cell is given. -/
inductive Content where
  | composed (f : Composed)
  | text (s : PyStr)
  | date (d : Int)
  | number (q : ℚ)
  | value (v : Json)

/-- `=`. -/
abbrev equals : Nat := 61

/-- The cell holds a formula. -/
def Content.isFormula : Content → Bool
  | .composed _ => true
  | .text s => s.head? == some equals
  | _ => false

/-- The renderer composed what the cell holds. -/
def Content.isComposed : Content → Bool
  | .composed _ => true
  | _ => false

/-- A cell, by its row and column, and what it is given. -/
structure Entry where
  row : Nat
  col : Nat
  content : Content

/-- What is written on one worksheet, in order. -/
abbrev Page := List Entry

/-- A workbook, if `openpyxl` takes every value. -/
def saved (takes : Content → Bool) (pages : List Page) : Py (List Page) :=
  if pages.all fun page => page.all fun e => takes e.content then some pages else none

/-- `get_column_letter`, by `fuel` divisions. -/
def columnLettersFrom : Nat → Nat → PyStr
  | 0, _ => []
  | fuel + 1, n => if n = 0 then [] else columnLettersFrom fuel ((n - 1) / 26) ++ [65 + (n - 1) % 26]

/-- `get_column_letter`. -/
def columnLetter (n : Nat) : PyStr := columnLettersFrom n n

/-- `f"{letter}{row}"`. -/
def address (letter : PyStr) (row : Nat) : PyStr := letter ++ strOfNat row

namespace Workbook

open Artifacts

/-! ### Formulas -/

/-- The body that `_formula` builds from declared intent. -/
def formulaBody (op : PyStr) (refs : List PyStr) : Option PyStr :=
  match refs with
  | [] => none
  | ref :: rest =>
      if op = py "sum" then some (py "SUM(" ++ join (py ",") refs ++ py ")")
      else if op = py "difference" then
        some (if rest = [] then ref else ref ++ py "-" ++ join (py "-") rest)
      else if op = py "product" then some (join (py "*") refs)
      else if op = py "ratio" then rest.head?.map fun second => ref ++ py "/" ++ second
      else none

/-- `_formula`. -/
def formula (op : PyStr) (letters : List PyStr) (row : Nat) : Option PyStr :=
  (formulaBody op (letters.map (address · row))).map fun body => py "=IFERROR(" ++ body ++ py ",\"\")"

/-- `letters`: a repeated key has the letter of its last column. -/
def letterOf (cols : List Artifacts.Column) (key : PyStr) : Option PyStr :=
  ((cols.zipIdx 1).reverse.find? fun c => c.1.key = key).map fun c => columnLetter c.2

/-! ### Sheets -/

section
variable [PyRuntime]

/-- `a or b`. -/
def either (a b : Json) : Json := if a.truthy then a else b

/-- `_clean` of a text. -/
def clean (s : PyStr) : PyStr :=
  strip (Regex.sub spacedHyphen (py ", ") (TextHygiene.normalizeDashes s))

/-- `ws.cell(row, col, _clean(value))`; nothing is written for `None`. -/
def cleaned (row col : Nat) : Json → Page
  | .null => []
  | .str s => [⟨row, col, .text (clean s)⟩]
  | v => [⟨row, col, .value v⟩]

/-- `rm`: a paragraph is the purpose. -/
def readmeFields : Json → Dict
  | .str s => [(py "purpose", .str s)]
  | .obj members => members
  | _ => []

/-- `fields`: the labels of the cover sheet and their keys. -/
def readmeLabels : List (PyStr × PyStr) :=
  [(py "Purpose", py "purpose"), (py "Scope", py "scope"), (py "How to read", py "how_to_read"),
    (py "Reviewers", py "reviewers"), (py "Handoff", py "handoff")]

/-- The texts of a list, joined. -/
def joined : Json → Json
  | .arr items => .str (join (py ", ") (items.map Json.str'))
  | v => v

/-- The fields that say something, each with its label. -/
def readmeEntries (readme : Json) : List (PyStr × Json) :=
  (readmeLabels.map fun f => (f.1, (readmeFields readme).get f.2)).filter fun f => f.2.truthy

/-- `_render_readme`. -/
def readmePage (plan : Plan) : Page :=
  cleaned 1 1 (either plan.title (.str (py "Workbook"))) ++
    (readmeEntries plan.readme).zipIdx.flatMap fun f =>
      ⟨3 + 2 * f.2, 1, .text f.1.1⟩ :: cleaned (3 + 2 * f.2) 2 (joined f.1.2)

/-- The heading of a sheet. -/
def heading (spec : SheetSpec) : Json := either spec.subtitle (either spec.name (.str []))

/-- `col.get("label") or col["key"]`. -/
def columnHead (c : Artifacts.Column) : PyStr := if c.label = [] then c.key else c.label

/-- One cell of a row: the formula of a column that is computed, else what the row says. -/
def rowCell (cols : List Artifacts.Column) (row : Nat) (values : Dict) (c : Artifacts.Column × Nat) : Page :=
  match c.1.computed with
  | some intent =>
      ((formula intent.op (intent.of.filterMap (letterOf cols)) row).map fun t =>
        (⟨row, c.2, .composed (.text t)⟩ : Entry)).toList
  | none => cleaned row c.2 (values.get c.1.key)

/-- The total of a column of so many rows. -/
def totalFormula (letter : PyStr) (rows : Nat) : PyStr :=
  py "=IFERROR(SUM(" ++ address letter 3 ++ py ":" ++ address letter (rows + 2) ++ py "),\"\")"

/-- The totals row, where the plan asks for one. -/
def totalsRow (spec : SheetSpec) : Page :=
  let totals := spec.totals.filter fun k => (letterOf spec.columns k).isSome
  if totals = [] ∨ spec.rows = [] then []
  else
    ⟨spec.rows.length + 3, 1, .text (py "Total")⟩ ::
      (spec.columns.zipIdx 1).filterMap fun c =>
        if c.1.key ∈ totals then
          (letterOf spec.columns c.1.key).map fun letter =>
            ⟨spec.rows.length + 3, c.2, .composed (.text (totalFormula letter spec.rows.length))⟩
        else none

/-- One sheet. -/
def sheetPage (spec : SheetSpec) : Page :=
  cleaned 1 1 (heading spec) ++
    ((spec.columns.zipIdx 1).flatMap (fun c => cleaned 2 c.2 (.str (columnHead c.1))) ++
      ((spec.rows.zipIdx 3).flatMap (fun r =>
          (spec.columns.zipIdx 1).flatMap (rowCell spec.columns r.2 r.1)) ++
        totalsRow spec))

/-- `render_workbook`: a sheet without columns is left out. -/
def renderWorkbook (takes : Content → Bool) (plan : Plan) : Py (List Page) :=
  if plan.sheets.isEmpty then none
  else
    saved takes ((if plan.readme.truthy then [readmePage plan] else []) ++
      (plan.sheets.filter fun spec => !spec.columns.isEmpty).map sheetPage)

/-- The workbook of what a contract's model call emits. -/
def renderContract (takes : Content → Bool) (c : Contract) (e : Emission) : Py (List Page) :=
  (planFromContract c e).bind (renderWorkbook takes)

end

end Workbook

end GhostPour.Documents
