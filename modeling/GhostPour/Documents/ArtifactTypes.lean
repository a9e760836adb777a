/-
Module: GhostPour.Documents.ArtifactTypes
Layer: Model
Purpose: The column contracts of `app/services/artifact_types.py`: for each kind of artifact its hints, what an
  offer calls it, and the columns that are the service's. A contract turns what the model emits into a plan
  for the renderer. What only the prompt and the layout use (descriptions, widths, formats) is left out.
Trusted boundary: human-reviewed spec
Main exports: Computed, Column, Contract, contracts, Emission, SheetSpec, Plan, planFromContract
-/
import GhostPour.Library.PyValue

namespace GhostPour.Documents.Artifacts

/-! ### Contracts -/

/-- The intent of a computed column: an operation on the columns of some keys. -/
structure Computed where
  op : PyStr
  of : List PyStr
deriving DecidableEq, Repr

/-- `Column`, and a column of a plan. -/
structure Column where
  key : PyStr
  label : PyStr
  computed : Option Computed
deriving DecidableEq, Repr

/-- `Contract`. -/
structure Contract where
  name : PyStr
  label : PyStr
  hints : List (PyStr × Nat)
  offerNoun : PyStr
  columns : List Column
  axis : Bool := false
  totals : List PyStr := []
  repair : Dict → Dict := id

/-- A column that the model fills. -/
def column (key label : String) : Column := ⟨py key, py label, none⟩

/-- A column that is computed from others. -/
def computed (key label op : String) (of : List String) : Column :=
  ⟨py key, py label, some ⟨py op, of.map py⟩⟩

/-- Hints and their weights. -/
def weighted (hints : List (String × Nat)) : List (PyStr × Nat) := hints.map fun h => (py h.1, h.2)

/-- `_budget_repair`: a stated amount that is not there was not quantified. -/
def budgetRepair (row : Dict) : Dict :=
  match row.get (py "low"), row.get (py "high"), row.get (py "confidence") with
  | .null, .null, .str level =>
      if level = py "Stated" ∨ level = py "Estimated" then
        row.set (py "confidence") (.str (py "Not quantified"))
      else row
  | _, _, _ => row

/-- `TEST_PLAN`. -/
def testPlan : Contract where
  name := py "test_plan"
  label := py "Test scenario plan"
  hints := weighted
    [("test plan", 10), ("test scenarios", 10), ("test cases", 10), ("scenario matrix", 9),
      ("qa plan", 9), ("test matrix", 9), ("plan de pruebas", 10), ("casos de prueba", 10),
      ("plan de test", 10), ("cas de test", 10), ("テスト計画", 10), ("scenarios", 3), ("edge cases", 3),
      ("test", 2)]
  offerNoun := py "a test scenario plan (one sheet per intent, each case with sample test data and the " ++
    py "expected behavior)"
  columns :=
    [column "id" "Scenario ID", column "scenario" "Scenario", column "type" "Type",
      column "preconditions" "Preconditions", column "test_data" "Sample Test Data",
      column "expected" "Expected Behavior", column "notes" "Notes for Dev", column "source" "Source"]

/-- `ACTION_REGISTER`. -/
def actionRegister : Contract where
  name := py "action_register"
  label := py "Action items and commitments"
  hints := weighted
    [("action items", 10), ("action register", 10), ("action log", 10), ("to do list", 9),
      ("todo list", 9), ("task list", 8), ("who owes", 8), ("commitments", 8), ("follow ups", 7),
      ("lista de acciones", 10), ("liste d'actions", 10), ("アクションアイテム", 10), ("actions", 4),
      ("owners", 3), ("deliverables", 3)]
  offerNoun := py "an action item register (each commitment with its owner, due date, status and what " ++
    py "is blocking it)"
  columns :=
    [column "id" "ID", column "item" "Action", column "owner" "Owner", column "due" "Due",
      column "status" "Status", column "blocker" "Blocked By", column "source" "Source",
      column "notes" "Notes"]

/-- `DECISION_LOG`. -/
def decisionLog : Contract where
  name := py "decision_log"
  label := py "Decision log"
  hints := weighted
    [("decision log", 10), ("decisions made", 10), ("decision register", 10), ("what did we decide", 9),
      ("what we decided", 9), ("registro de decisiones", 10), ("journal des decisions", 10),
      ("決定事項", 10), ("decisions", 4), ("rationale", 3)]
  offerNoun := py "a decision log (what was settled, who called it, the reason given, and what was rejected)"
  columns :=
    [column "id" "ID", column "decision" "Decision", column "date" "Date",
      column "decided_by" "Decided By", column "rationale" "Why", column "alternatives" "Rejected",
      column "reversible" "Reversible", column "affects" "Affects", column "source" "Source"]

/-- `RISK_REGISTER`. -/
def riskRegister : Contract where
  name := py "risk_register"
  label := py "Risk register"
  hints := weighted
    [("risk register", 10), ("risk log", 10), ("risk matrix", 10), ("risk assessment", 9),
      ("raid log", 9), ("registro de riesgos", 10), ("registre des risques", 10), ("リスク管理表", 10),
      ("risks", 4), ("mitigation", 4), ("what could go wrong", 6)]
  offerNoun := py "a risk register (each risk scored for likelihood and impact, with an owner and a " ++
    py "mitigation)"
  columns :=
    [column "id" "ID", column "risk" "Risk", column "category" "Category",
      column "likelihood" "Likelihood", column "impact" "Impact",
      computed "severity" "Severity" "product" ["likelihood", "impact"], column "owner" "Owner",
      column "mitigation" "Mitigation", column "trigger" "Early Warning", column "source" "Source"]

/-- `OPEN_QUESTIONS`. -/
def openQuestions : Contract where
  name := py "open_questions"
  label := py "Open questions and blockers"
  hints := weighted
    [("open questions", 10), ("open items", 9), ("blockers", 8), ("outstanding questions", 10),
      ("parking lot", 8), ("unresolved", 7), ("preguntas abiertas", 10), ("questions ouvertes", 10),
      ("未解決", 10), ("questions", 3), ("blocked", 3)]
  offerNoun := py "an open questions log (what is unresolved, who can answer it, and what it is holding up)"
  columns :=
    [column "id" "ID", column "question" "Question", column "raised_by" "Raised By",
      column "blocks" "Blocks", column "owner" "Who Can Answer", column "needed_by" "Needed By",
      column "status" "Status", column "source" "Source"]

/-- `REQUIREMENTS`. -/
def requirements : Contract where
  name := py "requirements"
  label := py "Requirements and scope"
  hints := weighted
    [("requirements", 10), ("user stories", 9), ("acceptance criteria", 9), ("scope document", 9),
      ("requirements matrix", 10), ("backlog", 7), ("requisitos", 10), ("exigences", 10), ("要件", 10),
      ("must have", 4), ("scope", 3)]
  offerNoun := py "a requirements matrix (each requirement with its priority, acceptance criteria and " ++
    py "the line it came from)"
  columns :=
    [column "id" "ID", column "requirement" "Requirement", column "priority" "Priority",
      column "acceptance" "Acceptance Criteria", column "source_quote" "Heard As",
      column "owner" "Owner", column "notes" "Notes"]

/-- `OPTION_COMPARISON`. -/
def optionComparison : Contract where
  name := py "option_comparison"
  label := py "Option comparison"
  hints := weighted
    [("comparison", 9), ("compare options", 10), ("option comparison", 10), ("vendor comparison", 10),
      ("evaluation matrix", 10), ("pros and cons", 9), ("trade off matrix", 9), ("bake off", 9),
      ("comparacion de opciones", 10), ("comparaison", 10), ("比較表", 10), ("options", 4),
      ("alternatives", 4), ("versus", 4)]
  offerNoun := py "an option comparison (each option as a column, scored against weighted criteria)"
  columns :=
    [column "criterion" "Criterion", column "weight" "Weight", column "notes" "Notes"]
  axis := true

/-- `BUDGET`. -/
def budget : Contract where
  name := py "budget"
  label := py "Budget and cost estimate"
  hints := weighted
    [("budget", 10), ("cost estimate", 10), ("cost breakdown", 10), ("estimate", 7), ("financials", 8),
      ("spend", 6), ("presupuesto", 10), ("budget previsionnel", 10), ("予算", 10), ("costs", 4),
      ("pricing", 3)]
  offerNoun := py "a cost estimate (line items with a basis for each figure, low and high, and live totals)"
  columns :=
    [column "id" "ID", column "line_item" "Line Item", column "category" "Category",
      column "basis" "Basis", column "low" "Low", column "high" "High",
      computed "spread" "Spread" "difference" ["high", "low"], column "confidence" "Confidence",
      column "owner" "Owner"]
  totals := [py "low", py "high"]
  repair := budgetRepair

/-- `TOPIC_TRACKER`. -/
def topicTracker : Contract where
  name := py "topic_tracker"
  label := py "Cross-meeting topic tracker"
  hints := weighted
    [("topic tracker", 10), ("across meetings", 10), ("over time", 8), ("recurring topics", 10),
      ("what keeps coming up", 10), ("running list", 8), ("status rollup", 9),
      ("seguimiento de temas", 10), ("suivi des sujets", 10), ("継続課題", 10), ("history", 3), ("trend", 3)]
  offerNoun := py "a cross-meeting topic tracker (what keeps coming back, when it was first raised, " ++
    py "and whether it is moving)"
  columns :=
    [column "topic" "Topic", column "first_raised" "First Raised",
      column "last_discussed" "Last Discussed", column "times_discussed" "Meetings In Memory",
      column "status" "Where It Stands", column "gap_days" "Days Since Last", column "owner" "Owner",
      column "open_question" "Still Unresolved"]

/-- `CONTRACTS`, in the order of the registry. -/
def contracts : List Contract :=
  [testPlan, actionRegister, decisionLog, riskRegister, openQuestions, requirements, optionComparison, budget, topicTracker]

/-! ### Plans -/

/-- One sheet that the model emits. -/
structure EmittedSheet where
  name : Json
  subtitle : Json
  rows : List Dict

/-- What the model emits for a contract. -/
structure Emission where
  title : Json
  readme : Json
  options : List Json
  sheets : List EmittedSheet

/-- One sheet of a plan. -/
structure SheetSpec where
  name : Json
  subtitle : Json
  columns : List Column
  rows : List Dict
  totals : List PyStr

/-- A plan for `render_workbook`. -/
structure Plan where
  title : Json
  readme : Json
  sheets : List SheetSpec

section
variable [PyRuntime]

/-- `f"_opt{i}"`. -/
def optKey (i : Nat) : PyStr := py "_opt" ++ strOfNat i

/-- `options`: the names of the things compared, where the contract compares some. -/
def optionNames (c : Contract) (e : Emission) : List PyStr := if c.axis then e.options.map Json.str' else []

/-- `vals[i] if i < len(vals) else None`, of `raw.get("values") or []`; `none` where it raises. -/
def rowValue (raw : Dict) (i : Nat) : Py Json :=
  match raw.get (py "values") with
  | .arr vals => some (vals.getD i .null)
  | .str s => some ((s[i]?.map fun c => .str [c]).getD .null)
  | other => if other.truthy then none else some .null

/-- One row: what the model gave, its values spread under the options. -/
def planRow (c : Contract) (options : Nat) (emitted : Dict) : Py Dict := do
  let raw := c.repair emitted
  let spread ← (List.range options).mapM fun i => (rowValue raw i).map fun v => (optKey i, v)
  return spread.foldl (fun row m => row.set m.1 m.2) (raw.filter (·.1 ≠ py "values"))

/-- `cols`. -/
def planColumns (c : Contract) (options : List PyStr) : List Column :=
  c.columns ++ options.zipIdx.map fun o => ⟨optKey o.2, o.1, none⟩

/-- `plan_from_contract`. -/
def planFromContract (c : Contract) (e : Emission) : Py Plan := do
  let options := optionNames c e
  let sheets ← e.sheets.mapM fun s => do
    let rows ← s.rows.mapM (planRow c options.length)
    return ({ name := s.name, subtitle := s.subtitle, columns := planColumns c options, rows := rows
              totals := c.totals } : SheetSpec)
  return { title := if e.title.truthy then e.title else .str c.label, readme := e.readme, sheets := sheets }

end

end GhostPour.Documents.Artifacts
