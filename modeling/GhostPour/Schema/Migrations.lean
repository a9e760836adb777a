/-
Module: GhostPour.Schema.Migrations
Layer: Model
Purpose: The schema convergence of `app/database.py`: the fingerprints, the sweep over the migrations
  and `apply_migrations`, and the starts of the service that call it. What SQLite answers to a
  statement of a start is a parameter of the start; what `hashlib` returns is a parameter of the model.
Trusted boundary: human-reviewed spec
Main exports: Migration, Database, migrationsFingerprint, schemaFingerprint, isAlreadyApplied,
  sweepFrom, applyMigrations, Starts, startMachine
-/
import GhostPour.Library.Machine
import GhostPour.Library.PyRuntime

namespace GhostPour.Schema

/-! ### The database -/

/-- An entry of `MIGRATIONS`: a bare string, or a `PyMigration` with the text that stands for it. -/
inductive Migration where
  | sql (text : PyStr)
  | py (text : PyStr)
deriving DecidableEq

/-- `str(m)`. -/
def Migration.str : Migration → PyStr
  | .sql text => text
  | .py text => text

/-- The rows of `sqlite_master`: a name, and the statement that made it. -/
abbrev Master := List (PyStr × Option PyStr)

/-- The row of `schema_state`. -/
structure SchemaState where
  schemaFingerprint : PyStr
  migrationsFingerprint : PyStr
deriving DecidableEq

structure Database where
  master : Master
  state : Option SchemaState
deriving DecidableEq

def schemaStateName : PyStr := py "schema_state"

/-- `CREATE TABLE IF NOT EXISTS schema_state`. -/
def createState (master : Master) : Master :=
  if master.any (·.1 = schemaStateName) then master
  else master ++ [(schemaStateName, some (py "CREATE TABLE schema_state"))]

/-! ### The fingerprints -/

/-- `_normalize`. -/
def normalize (sql : PyStr) : PyStr := squeeze sql

/-- `name LIKE 'sqlite_%'`. -/
def likeSqlite (name : PyStr) : Bool :=
  (name.take 6).map asciiLower = py "sqlite" && 7 ≤ name.length

/-- `_FINGERPRINT_SQL`, before the rows are put in order. -/
def fingerprinted (master : Master) : List (PyStr × PyStr) :=
  master.filterMap fun (name, sql) =>
    if likeSqlite name || name = schemaStateName then none else sql.map fun text => (name, text)

/-- `_FINGERPRINT_SQL`. -/
def fingerprintRows (master : Master) : List (PyStr × PyStr) :=
  (fingerprinted master).insertionSort (·.1 ≤ ·.1)

section

variable (sha256 : PyStr → PyStr)

/-- `migrations_fingerprint`. -/
def migrationsFingerprint (migrations : List Migration) : PyStr :=
  (sha256 (join (py "\n") (migrations.map fun m => normalize m.str))).take 32

/-- `schema_fingerprint`. -/
def schemaFingerprint (master : Master) : PyStr :=
  (sha256 (join (py "\n") ((fingerprintRows master).map fun (name, sql) =>
    name ++ py "=" ++ normalize sql))).take 32

end

/-! ### The sweep -/

/-- `_ALREADY_APPLIED`. -/
def alreadyApplied : List PyStr := [py "duplicate column name", py "already exists"]

/-- `_is_already_applied`, of the text of the exception. -/
def isAlreadyApplied [PyRuntime] (exc : PyStr) : Bool :=
  alreadyApplied.any fun marker => isIn marker (PyRuntime.lower exc)

/-- How a statement of a sweep ends; the process can die in it. -/
inductive Outcome where
  | ok
  | error (exc : PyStr)
  | killed
deriving DecidableEq

/-- What a statement leaves of the schema, and whether it writes rows. -/
structure Effect where
  master : Master
  writes : Bool
  outcome : Outcome

/-- The connection: what is committed, and what its statements see. The first statement that writes
rows opens a transaction; before that each statement is committed as it runs. -/
structure Connection where
  committed : Master
  view : Master
  inTransaction : Bool

def Connection.execute (conn : Connection) (effect : Effect) : Connection :=
  let inTransaction := conn.inTransaction || effect.writes
  ⟨if inTransaction then conn.committed else effect.master, effect.master, inTransaction⟩

/-- A sweep so far: the counts of the report, and whether it has been left. -/
structure Sweep where
  conn : Connection
  ran : Nat
  already : Nat
  failed : Nat
  left : Bool

/-- One statement of the sweep. The log line of a failure takes the text of a string only, so a
failed `PyMigration` leaves the sweep. -/
def Sweep.take [PyRuntime] (s : Sweep) (migration : Migration) (effect : Effect) : Sweep :=
  match effect.outcome with
  | .ok => { s with conn := s.conn.execute effect, ran := s.ran + 1 }
  | .error exc =>
      if isAlreadyApplied exc then
        { s with conn := s.conn.execute effect, already := s.already + 1 }
      else
        match migration with
        | .sql _ => { s with conn := s.conn.execute effect, failed := s.failed + 1 }
        | .py _ => { s with conn := s.conn.execute effect, failed := s.failed + 1, left := true }
  | .killed => { s with left := true }

/-- The loop of `apply_migrations`, from the statement with this number. -/
def sweepFrom [PyRuntime] (effects : Nat → Effect) : Nat → List Migration → Sweep → Sweep
  | _, [], s => s
  | i, migration :: rest, s =>
      let next := s.take migration (effects i)
      if next.left then next else sweepFrom effects (i + 1) rest next

/-- The loop of `apply_migrations`. -/
def sweep [PyRuntime] (effects : Nat → Effect) (migrations : List Migration) (conn : Connection) :
    Sweep :=
  sweepFrom effects 0 migrations ⟨conn, 0, 0, 0, false⟩

/-- The `path` of a report. -/
inductive Path where
  | skipped
  | swept
deriving DecidableEq

/-- What `apply_migrations` returns. -/
structure Report where
  path : Path
  ran : Nat
  total : Nat
  already : Nat
  failed : Nat
deriving DecidableEq

/-- A call of `apply_migrations`: its report if it returns, its connection, and the row of
`schema_state` as the connection sees it. -/
structure Applied where
  report : Option Report
  conn : Connection
  state : Option SchemaState

/-- `apply_migrations`. -/
def applyMigrations [PyRuntime] (sha256 : PyStr → PyStr) (migrations : List Migration)
    (effects : Nat → Effect) (db : Database) : Applied :=
  let conn : Connection := ⟨createState db.master, createState db.master, false⟩
  let want := migrationsFingerprint sha256 migrations
  if db.state = some ⟨schemaFingerprint sha256 conn.view, want⟩ then
    ⟨some ⟨.skipped, 0, migrations.length, 0, 0⟩, conn, db.state⟩
  else
    let swept := sweep effects migrations conn
    if swept.left then ⟨none, swept.conn, db.state⟩
    else
      ⟨some ⟨.swept, swept.ran, migrations.length, swept.already, swept.failed⟩,
        { swept.conn with inTransaction := true },
        some ⟨schemaFingerprint sha256 swept.conn.view, want⟩⟩

/-! ### The starts -/

/-- What a call of `apply_migrations` over a list, by its fingerprint, has done: a full sweep comes
with the number of failures, and with the schema fingerprint it recorded if its start lived to
commit it. -/
inductive StartEvent where
  | skipped (migrations : PyStr)
  | swept (migrations : PyStr) (failed : Nat) (recorded : Option PyStr)
deriving DecidableEq

/-- The database as it is committed, the row of `schema_state` before the first start, and what the
starts have done, the last one first. -/
structure Starts where
  db : Database
  origin : Option SchemaState
  history : List StartEvent
deriving DecidableEq

/-- Before the first start. -/
def Starts.first (db : Database) : Starts := ⟨db, db.state, []⟩

/-- A start of the service with its own list, which commits or dies before it does; or a change of the
schema beside the starts. -/
inductive StartAction where
  | start (migrations : List Migration) (effects : Nat → Effect) (commits : Bool)
  | change (master : Master)

/-- `init_db`, as far as it is about the schema. -/
def Starts.start [PyRuntime] (sha256 : PyStr → PyStr) (s : Starts) (migrations : List Migration)
    (effects : Nat → Effect) (commits : Bool) : Starts :=
  let want := migrationsFingerprint sha256 migrations
  let applied := applyMigrations sha256 migrations effects s.db
  let died : Database := ⟨applied.conn.committed, s.db.state⟩
  let lives : Database := ⟨applied.conn.view, applied.state⟩
  match applied.report with
  | none => { s with db := died }
  | some report =>
      match report.path with
      | .skipped =>
          { s with db := if commits then lives else died, history := .skipped want :: s.history }
      | .swept =>
          { s with
            db := if commits then lives else died
            history := .swept want report.failed
              (if commits then applied.state.map (·.schemaFingerprint) else none) :: s.history }

/-- The steps of any number of starts. -/
def startMachine [PyRuntime] (sha256 : PyStr → PyStr) : Machine Starts StartAction where
  step
    | .start migrations effects commits, s => some (s.start sha256 migrations effects commits)
    | .change master, s => some { s with db := { s.db with master := master } }

end GhostPour.Schema
