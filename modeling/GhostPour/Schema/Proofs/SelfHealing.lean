/-
Module: GhostPour.Schema.Proofs.SelfHealing
Layer: Proofs
Purpose: Exactly when the starts of the service are self-healing: a sweep is recorded whatever failed
  in it, so a failure is tried again only when the schema has moved by the next start over that list.
Trusted boundary: none
Main exports: lastFailed, lastRecorded, Heals, schemaMoved, recorded_of_run, starts_heal_iff_moved,
  transient_failure_never_retried
-/
import GhostPour.Schema.Migrations

namespace GhostPour.Schema

/-! ### What the starts have done -/

/-- The failures of the last full sweep over a list. -/
def lastFailed (migrations : PyStr) : List StartEvent → Option Nat
  | [] => none
  | .swept swept failed _ :: older =>
      if swept = migrations then some failed else lastFailed migrations older
  | .skipped _ :: older => lastFailed migrations older

/-- What the last start that committed a sweep has recorded, or the row before the first start. -/
def lastRecorded (origin : Option SchemaState) : List StartEvent → Option SchemaState
  | [] => origin
  | .swept migrations _ (some schema) :: _ => some ⟨schema, migrations⟩
  | .swept _ _ none :: older => lastRecorded origin older
  | .skipped _ :: older => lastRecorded origin older

/-- A start takes the fast path only when the last full sweep over its list had no failure. -/
def Heals : List StartEvent → Prop
  | [] => True
  | .skipped migrations :: older =>
      (∀ failed, lastFailed migrations older = some failed → failed = 0) ∧ Heals older
  | .swept _ _ _ :: older => Heals older

/-- The bookkeeping table is none of the rows of the fingerprint. -/
theorem fingerprinted_createState (master : Master) :
    fingerprinted (createState master) = fingerprinted master := by
  unfold createState
  split
  · rfl
  · unfold fingerprinted
    rw [List.filterMap_append]
    simp

section

variable (sha256 : PyStr → PyStr)

/-- After a failure in the last full sweep over its list, a start finds another schema than the one
that was last recorded with this list. -/
def schemaMoved : StartAction → Starts → Bool
  | .start migrations _ _, s =>
      let want := migrationsFingerprint sha256 migrations
      match lastFailed want s.history with
      | none | some 0 => true
      | some (_ + 1) =>
          lastRecorded s.origin s.history ≠ some ⟨schemaFingerprint sha256 s.db.master, want⟩
  | .change _, _ => true

/-! ### The fingerprint and the record -/

theorem schemaFingerprint_createState (master : Master) :
    schemaFingerprint sha256 (createState master) = schemaFingerprint sha256 master := by
  rw [schemaFingerprint, fingerprintRows, fingerprinted_createState]
  rfl

/-- The row of `schema_state` is the one that was last recorded. -/
def Recorded (s : Starts) : Prop :=
  s.db.state = lastRecorded s.origin s.history

variable {sha256} {migrations : List Migration} {effects : Nat → Effect} {s : Starts}

/-- The condition, read as an implication. -/
theorem schemaMoved_iff {commits : Bool} :
    schemaMoved sha256 (.start migrations effects commits) s = true ↔
      (lastRecorded s.origin s.history = some
          ⟨schemaFingerprint sha256 s.db.master, migrationsFingerprint sha256 migrations⟩ →
        ∀ failed, lastFailed (migrationsFingerprint sha256 migrations) s.history = some failed →
          failed = 0) := by
  unfold schemaMoved
  cases found : lastFailed (migrationsFingerprint sha256 migrations) s.history with
  | none => simp [found]
  | some failed =>
      cases failed with
      | zero => simp [found]
      | succ failed => simp [found]

variable [PyRuntime]

/-- The fast path. -/
theorem start_skips {commits : Bool}
    (same : s.db.state =
      some ⟨schemaFingerprint sha256 s.db.master, migrationsFingerprint sha256 migrations⟩) :
    s.start sha256 migrations effects commits =
      { s with
        db := ⟨createState s.db.master, s.db.state⟩
        history := .skipped (migrationsFingerprint sha256 migrations) :: s.history } := by
  rw [← schemaFingerprint_createState] at same
  unfold Starts.start applyMigrations
  rw [if_pos same]
  cases commits <;> rfl

/-- The sweep: it is left, or it is recorded if the start commits. -/
theorem start_sweeps (effects : Nat → Effect) (commits : Bool)
    (other : s.db.state ≠
      some ⟨schemaFingerprint sha256 s.db.master, migrationsFingerprint sha256 migrations⟩) :
    (∃ master, s.start sha256 migrations effects commits = { s with db := ⟨master, s.db.state⟩ }) ∨
      ∃ master schema failed, s.start sha256 migrations effects commits =
        { s with
          db := ⟨master, if commits then some ⟨schema, migrationsFingerprint sha256 migrations⟩
            else s.db.state⟩
          history := .swept (migrationsFingerprint sha256 migrations) failed
            (if commits then some schema else none) :: s.history } := by
  rw [← schemaFingerprint_createState] at other
  unfold Starts.start applyMigrations
  rw [if_neg other]
  generalize sweep effects migrations _ = swept
  cases left : swept.left with
  | true =>
      simp only [left, if_true]
      exact .inl ⟨_, rfl⟩
  | false =>
      simp only [left, Bool.false_eq_true, if_false]
      cases commits with
      | true => exact .inr ⟨_, _, _, rfl⟩
      | false => exact .inr ⟨_, schemaFingerprint sha256 swept.conn.view, _, rfl⟩

/-! ### One start, and every run of them -/

/-- The record is kept by every start. -/
theorem recorded_step (action : StartAction) (s s' : Starts) (recorded : Recorded s)
    (step : (startMachine sha256).step action s = some s') : Recorded s' := by
  cases action with
  | change master =>
      cases step
      exact recorded
  | start migrations effects commits =>
      cases step
      by_cases same : s.db.state =
          some ⟨schemaFingerprint sha256 s.db.master, migrationsFingerprint sha256 migrations⟩
      · rw [start_skips same]
        exact recorded
      · rcases start_sweeps effects commits same with
          ⟨master, eq⟩ | ⟨master, schema, failed, eq⟩
        · rw [eq]
          exact recorded
        · rw [eq]
          cases commits with
          | true => rfl
          | false => exact recorded

/-- A start heals exactly when the schema has moved. -/
theorem heals_step (action : StartAction) (s s' : Starts) (recorded : Recorded s)
    (step : (startMachine sha256).step action s = some s') :
    Heals s'.history ↔ Heals s.history ∧ schemaMoved sha256 action s = true := by
  cases action with
  | change master =>
      cases step
      exact (and_iff_left rfl).symm
  | start migrations effects commits =>
      cases step
      rw [schemaMoved_iff, ← recorded]
      by_cases same : s.db.state =
          some ⟨schemaFingerprint sha256 s.db.master, migrationsFingerprint sha256 migrations⟩
      · rw [start_skips same, and_comm]
        exact and_congr_left fun _ => (imp_iff_right same).symm
      · have moved : Heals s.history ∧ (s.db.state = some ⟨schemaFingerprint sha256 s.db.master,
            migrationsFingerprint sha256 migrations⟩ → ∀ failed,
              lastFailed (migrationsFingerprint sha256 migrations) s.history = some failed →
                failed = 0) ↔ Heals s.history :=
          and_iff_left fun eq => absurd eq same
        rw [moved]
        rcases start_sweeps effects commits same with
          ⟨master, eq⟩ | ⟨master, schema, failed, eq⟩
        · rw [eq]
        · rw [eq]
          exact Iff.rfl

/-- In every run of starts from any database: each start that took the fast path came after a sweep
without failures, exactly when after a failure the next start over that list has always found another
schema than the recorded one. -/
theorem starts_heal_iff_moved (db : Database) (actions : List StartAction) (last : Starts)
    (run : (startMachine sha256).run actions (Starts.first db) = some last) :
    Heals last.history ↔
      (startMachine sha256).Along (fun action s => schemaMoved sha256 action s = true) actions
        (Starts.first db) := by
  have whole := Machine.run_iff_along (Q := fun s => Heals s.history) recorded_step heals_step
    (s := Starts.first db) rfl run
  exact whole.trans (and_iff_right trivial)

end

/-! ### Two runs -/

section

attribute [local instance] PyRuntime.ascii

/-- A table before and after the column of the first migration. -/
def narrow : Master := [(py "usage_log", some (py "CREATE TABLE usage_log (id TEXT)"))]

def wide : Master := [(py "usage_log", some (py "CREATE TABLE usage_log (id TEXT, metadata TEXT)"))]

def addColumn : List Migration := [.sql (py "ALTER TABLE usage_log ADD COLUMN metadata TEXT")]

/-- The statement of the list ends so, and leaves this schema. -/
def ends (master : Master) (outcome : Outcome) : Nat → Effect := fun _ => ⟨master, false, outcome⟩

/-- A start adds the column, the next one skips; the column is lost, and the start that would add it
again fails; then somebody adds it by hand, and the one after it sweeps. -/
def healed : List StartAction :=
  [ .start addColumn (ends wide .ok) true, .start addColumn (ends wide .ok) true, .change narrow,
    .start addColumn (ends narrow (.error (py "database is locked"))) true, .change wide,
    .start addColumn (ends wide (.error (py "duplicate column name: metadata"))) true,
    .start addColumn (ends wide .ok) true ]

/-- The theorem in this run, with the text itself for its digest. -/
theorem starts_heal_iff_moved_healed :
    ∃ last, (startMachine (fun text => text)).run healed (Starts.first ⟨narrow, none⟩) = some last ∧
      last.history.length = 5 ∧ Heals last.history := by
  obtain ⟨last, run⟩ := Option.isSome_iff_exists.mp
    (show ((startMachine (fun text => text)).run healed (Starts.first ⟨narrow, none⟩)).isSome = true by
      decide +kernel)
  have facts : ((startMachine (fun text => text)).run healed (Starts.first ⟨narrow, none⟩)).map
      (fun s => s.history.length) = some 5 := by decide +kernel
  rw [run, Option.map_some, Option.some.injEq] at facts
  exact ⟨last, run, facts,
    (starts_heal_iff_moved ⟨narrow, none⟩ healed last run).mpr (by decide +kernel)⟩

/-- The statement that adds the column fails, and the service starts again. -/
def lockedOnce : List StartAction :=
  [ .start addColumn (ends narrow (.error (py "database is locked"))) true,
    .start addColumn (ends wide .ok) true ]

/-- The second start skips, and the column is not added. -/
theorem transient_failure_never_retried :
    ((startMachine (fun text => text)).run lockedOnce (Starts.first ⟨narrow, none⟩)).map
        (fun s => (s.history, fingerprintRows s.db.master)) =
      some ([ .skipped (migrationsFingerprint (fun text => text) addColumn),
          .swept (migrationsFingerprint (fun text => text) addColumn) 1
            (some (schemaFingerprint (fun text => text) narrow)) ], fingerprintRows narrow) ∧
      ¬ Heals [ .skipped (migrationsFingerprint (fun text => text) addColumn),
          .swept (migrationsFingerprint (fun text => text) addColumn) 1
            (some (schemaFingerprint (fun text => text) narrow)) ] := by
  constructor
  · decide +kernel
  · intro heals
    have failed := heals.1 1 (if_pos rfl)
    cases failed

end

end GhostPour.Schema
