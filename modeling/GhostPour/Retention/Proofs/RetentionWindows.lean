/-
Module: GhostPour.Retention.Proofs.RetentionWindows
Layer: Proofs
Purpose: A purge deletes the rows whose date is before the date of the cutoff: the texts compare by
  their dates alone. So the windows are exact when no row carries the date of the cutoff, or a later
  one, and is yet older than the cutoff, and none carries an earlier date and is yet younger.
Trusted boundary: none
Main exports: Stamped, Older, Younger, DatesDecide, purgeExpired_rows, windows_exact_iff,
  same_date_survives
-/
import GhostPour.Retention.Sweeps

namespace GhostPour.Retention

variable {now : Instant} {s : Sweep} {tables : Tables} {rows : List Row} {row : Row}

/-! ### The loop -/

theorem absorb_other {tables' : Tables} {table : PyStr}
    (absorbed : absorbTelemetryDevices tables = some tables') (other : table ≠ telemetryDevices) :
    tables' table = tables table := by
  unfold absorbTelemetryDevices at absorbed
  cases known : tables telemetryDevices with
  | none => simp [known] at absorbed
  | some known' =>
      cases events : tables (py "telemetry_events") with
      | none => simp [known, events] at absorbed
      | some events' =>
          simp only [known, events, Option.bind_eq_bind, Option.bind_some, Option.some.injEq] at absorbed
          rw [← absorbed]
          exact Function.update_of_ne other _ _

theorem absorb_isSome (devices : (tables telemetryDevices).isSome = true)
    (events : (tables (py "telemetry_events")).isSome = true) :
    ∃ tables', absorbTelemetryDevices tables = some tables' := by
  obtain ⟨known, stored⟩ := Option.isSome_iff_exists.mp devices
  obtain ⟨events', stored'⟩ := Option.isSome_iff_exists.mp events
  exact ⟨_, by simp [absorbTelemetryDevices, stored, stored']; rfl⟩

theorem absorb_devices {tables' : Tables} (absorbed : absorbTelemetryDevices tables = some tables') :
    (tables' telemetryDevices).isSome = true := by
  unfold absorbTelemetryDevices at absorbed
  cases known : tables telemetryDevices with
  | none => simp [known] at absorbed
  | some known' =>
      cases events : tables (py "telemetry_events") with
      | none => simp [known, events] at absorbed
      | some events' =>
          simp only [known, events, Option.bind_eq_bind, Option.bind_some, Option.some.injEq] at absorbed
          rw [← absorbed, Function.update_self]
          rfl

/-- What the loop needs of the list of sweeps: no table twice, the table of the devices not among
them, and the devices are absorbed before the sweep of the telemetry events. -/
structure Listed (list : List Sweep) : Prop where
  nodup : (list.map Sweep.table).Nodup
  apart : ∀ s ∈ list, s.table ≠ telemetryDevices
  absorbs : ∀ s ∈ list, s.absorbs = true → s.table = py "telemetry_events"

theorem sweeps_listed : Listed sweeps := ⟨by decide +kernel, by decide +kernel, by decide +kernel⟩

theorem runBefore_other {tables' : Tables} {table : PyStr} (absorbed : runBefore s tables = some tables')
    (other : table ≠ telemetryDevices) : tables' table = tables table := by
  unfold runBefore at absorbed
  split at absorbed
  · exact absorb_other absorbed other
  · cases absorbed
    rfl

theorem sweepTable_other {tables' : Tables} {deleted : Nat} {table : PyStr}
    (swept : sweepTable now s tables = some (tables', deleted)) (other : table ≠ s.table)
    (apart : table ≠ telemetryDevices) : tables' table = tables table := by
  unfold sweepTable at swept
  obtain ⟨between, absorbed, rest⟩ := Option.bind_eq_some_iff.mp swept
  obtain ⟨rows, -, done⟩ := Option.bind_eq_some_iff.mp rest
  cases done
  rw [Function.update_of_ne other]
  exact runBefore_other absorbed apart

theorem sweepTable_devices {tables' : Tables} {deleted : Nat}
    (swept : sweepTable now s tables = some (tables', deleted)) (apart : s.table ≠ telemetryDevices)
    (devices : (tables telemetryDevices).isSome = true) :
    (tables' telemetryDevices).isSome = true := by
  unfold sweepTable at swept
  obtain ⟨between, absorbed, rest⟩ := Option.bind_eq_some_iff.mp swept
  obtain ⟨rows, -, done⟩ := Option.bind_eq_some_iff.mp rest
  cases done
  rw [Function.update_of_ne apart.symm]
  unfold runBefore at absorbed
  split at absorbed
  · exact absorb_devices absorbed
  · cases absorbed
    exact devices

/-- A sweep of a table that is there deletes its expired rows. -/
theorem sweepTable_self (now : Instant) (apart : s.table ≠ telemetryDevices)
    (absorbs : s.absorbs = true → s.table = py "telemetry_events")
    (devices : (tables telemetryDevices).isSome = true) (stored : tables s.table = some rows) :
    ∃ tables' deleted, sweepTable now s tables = some (tables', deleted) ∧
      tables' s.table = some (rows.filter fun row => !expired now s row) := by
  obtain ⟨between, absorbed⟩ : ∃ between, runBefore s tables = some between := by
    unfold runBefore
    by_cases absorbs_ : s.absorbs = true
    · rw [if_pos absorbs_]
      refine absorb_isSome devices ?_
      rw [← absorbs absorbs_, stored]
      rfl
    · exact ⟨tables, if_neg absorbs_⟩
  have kept : between s.table = some rows := (runBefore_other absorbed apart).trans stored
  have swept : sweepTable now s tables =
      some (Function.update between s.table (some (rows.filter fun row => !expired now s row)),
        rows.length - (rows.filter fun row => !expired now s row).length) := by
    unfold sweepTable
    rw [absorbed]
    simp only [Option.bind_eq_bind, Option.bind_some, kept]
  exact ⟨_, _, swept, Function.update_self _ _ _⟩

section
variable {state : Tables × Assoc Nat}

theorem sweepOrSkip_other {table : PyStr} (other : table ≠ s.table)
    (apart : table ≠ telemetryDevices) : (sweepOrSkip now state s).1 table = state.1 table := by
  unfold sweepOrSkip
  split
  · next swept => exact sweepTable_other swept other apart
  · rfl

theorem sweepOrSkip_devices (apart : s.table ≠ telemetryDevices)
    (devices : (state.1 telemetryDevices).isSome = true) :
    ((sweepOrSkip now state s).1 telemetryDevices).isSome = true := by
  unfold sweepOrSkip
  split
  · next swept => exact sweepTable_devices swept apart devices
  · exact devices

theorem foldl_sweepOrSkip_other {list : List Sweep} {table : PyStr}
    (other : table ∉ list.map Sweep.table) (apart : table ≠ telemetryDevices) :
    (list.foldl (sweepOrSkip now) state).1 table = state.1 table := by
  induction list generalizing state with
  | nil => rfl
  | cons s list ih =>
      rw [List.map_cons, List.mem_cons, not_or] at other
      rw [List.foldl_cons, ih other.2]
      exact sweepOrSkip_other other.1 apart

/-- The loop deletes the expired rows of each table that is there. -/
theorem foldl_sweepOrSkip_rows {list : List Sweep} (listed : Listed list)
    (devices : (state.1 telemetryDevices).isSome = true) (member : s ∈ list)
    (stored : state.1 s.table = some rows) :
    (list.foldl (sweepOrSkip now) state).1 s.table =
      some (rows.filter fun row => !expired now s row) := by
  induction list generalizing state with
  | nil => cases member
  | cons first list ih =>
      have nodup := List.nodup_cons.mp listed.nodup
      have apart := listed.apart first (List.mem_cons_self ..)
      have rest : Listed list := ⟨nodup.2, fun s later => listed.apart s (List.mem_cons_of_mem _ later),
        fun s later => listed.absorbs s (List.mem_cons_of_mem _ later)⟩
      rw [List.foldl_cons]
      rcases List.mem_cons.mp member with here | later
      · subst here
        obtain ⟨tables', deleted, swept, done⟩ := sweepTable_self now apart
          (listed.absorbs s (List.mem_cons_self ..)) devices stored
        rw [foldl_sweepOrSkip_other nodup.1 apart, sweepOrSkip, swept]
        exact done
      · apply ih rest (sweepOrSkip_devices apart devices) later
        rw [sweepOrSkip_other _ (listed.apart s member), stored]
        intro same
        exact nodup.1 (same ▸ List.mem_map_of_mem later)

end

/-- What a purge leaves of a table. -/
theorem purgeExpired_rows (now : Instant) (devices : (tables telemetryDevices).isSome = true)
    (member : s ∈ sweeps) (stored : tables s.table = some rows) :
    (purgeExpired now tables).1 s.table = some (rows.filter fun row => !expired now s row) :=
  foldl_sweepOrSkip_rows sweeps_listed devices member stored

/-! ### The windows -/

/-- The column of the row was written as an ISO instant. -/
def Stamped (s : Sweep) (row : Row) (at_ : DateTime) : Prop :=
  at_.Dated ∧ row.get s.column = some at_.isoformat

/-- Older than the window. -/
def Older (now : Instant) (s : Sweep) (at_ : DateTime) : Prop :=
  at_.instant < (now : Int) - s.days * microsPerDay

/-- Younger than the window. -/
def Younger (now : Instant) (s : Sweep) (at_ : DateTime) : Prop :=
  (now : Int) - s.days * microsPerDay < at_.instant

instance (now : Instant) (s : Sweep) (at_ : DateTime) : Decidable (Older now s at_) :=
  inferInstanceAs (Decidable (_ < _))

/-- A clock that SQLite and Python can both write, with the cutoff of each window. -/
structure Clocked (now : Instant) : Prop where
  dated : (DateTime.ofInstant now).Dated
  windows : ∀ s ∈ sweeps, s.days * microsPerDay ≤ now

theorem Clocked.cutoff_dated (clocked : Clocked now) (days : Nat) :
    (DateTime.ofInstant (cutoff now days)).Dated :=
  clocked.dated.of_le (Nat.sub_le now _)

/-- The purge goes by the date. -/
theorem expired_iff (clocked : Clocked now) {at_ : DateTime} (stamped : Stamped s row at_) :
    expired now s row = true ↔ at_.daysBefore < (cutoff now s.days).day := by
  unfold expired
  rw [stamped.2]
  simp only [decide_eq_true_eq]
  exact DateTime.isoformat_lt_sqliteText stamped.1 (clocked.cutoff_dated s.days)

/-- The windows are exact: of the rows of each table, those older than its window are gone and those
younger are still there. -/
def WindowsExact (now : Instant) (tables : Tables) : Prop :=
  ∀ s ∈ sweeps, ∀ rows, tables s.table = some rows → ∀ row ∈ rows, ∀ at_, Stamped s row at_ →
    ∃ rows', (purgeExpired now tables).1 s.table = some rows' ∧
      (Older now s at_ → row ∉ rows') ∧ (Younger now s at_ → row ∈ rows')

/-- Every row older than its window carries a date before that of the cutoff, and every younger one a
date no earlier than it. -/
def DatesDecide (now : Instant) (tables : Tables) : Prop :=
  ∀ s ∈ sweeps, ∀ rows, tables s.table = some rows → ∀ row ∈ rows, ∀ at_, Stamped s row at_ →
    (Older now s at_ → at_.daysBefore < (cutoff now s.days).day) ∧
      (Younger now s at_ → (cutoff now s.days).day ≤ at_.daysBefore)

/-- The windows are exact if and only if the dates decide. -/
theorem windows_exact_iff (clocked : Clocked now) (devices : (tables telemetryDevices).isSome = true) :
    WindowsExact now tables ↔ DatesDecide now tables := by
  refine forall_congr' fun s => imp_congr_ctx Iff.rfl fun member => ?_
  refine forall_congr' fun rows => imp_congr_ctx Iff.rfl fun stored => ?_
  refine forall_congr' fun row => imp_congr_ctx Iff.rfl fun inRows => ?_
  refine forall_congr' fun at_ => imp_congr_ctx Iff.rfl fun stamped => ?_
  have purged := purgeExpired_rows now devices member stored
  have gone : row ∉ rows.filter (fun row => !expired now s row) ↔
      at_.daysBefore < (cutoff now s.days).day := by
    rw [List.mem_filter, Bool.not_eq_true', ← Bool.not_eq_true, expired_iff clocked stamped]
    simp [inRows]
  rw [purged]
  simp only [Option.some.injEq, exists_eq_left', gone]
  rw [← not_lt, ← gone, not_not]

theorem first_le_daysInMonth (month : Nat) : 1 ≤ daysInMonth month := by
  have := daysInMonth_pos month
  omega

theorem one_le_first : 1 ≤ 1 := Nat.le_refl 1

theorem first_of_september : 1 ≤ daysInMonth (12 * 2025 + 8) := first_le_daysInMonth (12 * 2025 + 8)

/-- Midnight UTC of the first of September 2026. -/
def september1 : DateTime := .midnight (12 * 2025 + 8) 1 one_le_first first_of_september

/-- Noon of the first of October 2026. -/
def october1Noon : Instant := (daysBeforeMonth (12 * 2025 + 9)) * microsPerDay + microsPerDay / 2

/-- One transcript, of the first of September. -/
def oneTranscript : Tables := fun table =>
  if table = py "meeting_transcripts" then some [[(py "created_at", september1.isoformat)]]
  else some []

theorem october1Noon_clocked : Clocked october1Noon := ⟨by decide +kernel, by decide +kernel⟩

/-- A transcript that is thirty days and twelve hours old is still there. -/
theorem same_date_survives : ¬ WindowsExact october1Noon oneTranscript := by
  intro exact_
  have stamped : Stamped sweeps[0] [(py "created_at", september1.isoformat)] september1 :=
    ⟨by decide, rfl⟩
  obtain ⟨rows', purged, older, -⟩ := exact_ sweeps[0] (List.getElem_mem _) _ rfl _
    (List.mem_singleton_self _) september1 stamped
  have kept : (purgeExpired october1Noon oneTranscript).1 sweeps[0].table = _ :=
    purgeExpired_rows october1Noon rfl (List.getElem_mem _) rfl
  rw [purged, Option.some.injEq] at kept
  apply older (by decide +kernel)
  rw [kept, List.mem_filter]
  exact ⟨List.mem_singleton_self _, by decide +kernel⟩

/-- One in the morning of the second of October. -/
def october2 : Instant := october1Noon + 13 * 3600 * microsPerSecond

theorem october2_clocked : Clocked october2 := ⟨by decide +kernel, by decide +kernel⟩

theorem october2_by_dates :
    Clocked october2 ∧ (WindowsExact october2 oneTranscript ↔ DatesDecide october2 oneTranscript) :=
  ⟨october2_clocked, windows_exact_iff october2_clocked rfl⟩

end GhostPour.Retention
