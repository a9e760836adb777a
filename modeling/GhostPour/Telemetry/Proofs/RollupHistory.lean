/-
Module: GhostPour.Telemetry.Proofs.RollupHistory
Layer: Proofs
Purpose: A rollup is computed from what the sweeps have left. The days it looks back on are more than
  the days the sweep keeps, so a startup overwrites the last days with what is left of them: nothing.
  The rollups of ended days stay those of all events exactly when no event was received on such days.
Trusted boundary: none
Main exports: ofDay_iff, purge_eq_filter, dayCounts_within, Stored, Covered, quiet, Swept,
  rollups_survive_iff
-/
import GhostPour.Telemetry.Rollups

namespace GhostPour.Telemetry

variable {events received : List TelemetryEvent} {e : TelemetryEvent} {day : Nat} {now : Instant}

/-! ### Days for texts -/

theorem dated_day (dated : (DateTime.ofInstant now).Dated) (le : day ≤ now.day) :
    (DateTime.ofInstant (day * microsPerDay)).Dated :=
  dated.of_le ((Nat.mul_le_mul_right _ le).trans (Nat.div_mul_le_self now _))

/-- The condition on the text selects the events of the day. -/
theorem ofDay_iff (dated : (DateTime.ofInstant now).Dated) (past : e.receivedAt ≤ now)
    (le : day ≤ now.day) : ofDay day e = true ↔ e.receivedAt.day = day := by
  unfold ofDay
  rw [Bool.and_eq_true, decide_eq_true_eq, decide_eq_true_eq]
  exact DateTime.isoformat_mem_day (dated.of_le past) (dated_day dated le)

/-- The sweep keeps the events of today and of the thirty days before. -/
theorem purge_eq_filter (dated : (DateTime.ofInstant now).Dated)
    (past : ∀ e ∈ events, e.receivedAt ≤ now) :
    purge now events = events.filter fun e => now.day - 30 ≤ e.receivedAt.day := by
  apply List.filter_congr
  intro e member
  have order := DateTime.isoformat_lt_sqliteText (dated.of_le (past e member))
    (dated.of_le (Nat.sub_le now (30 * microsPerDay)))
  rw [DateTime.daysBefore_ofInstant] at order
  change e.receivedText < (Retention.cutoff now 30).sqliteText ↔
    e.receivedAt.day < (Retention.cutoff now 30).day at order
  rw [Retention.cutoff_day] at order
  by_cases old : e.receivedText < (Retention.cutoff now 30).sqliteText
  · have before := order.mp old
    simp only [old, decide_true, Bool.not_true, Bool.false_eq, decide_eq_false_iff_not]
    omega
  · simp [old, Nat.not_lt.mp fun before => old (order.mpr before)]

/-! ### Counts of more and of fewer events -/

/-- None of the counts is greater. -/
structure DayCounts.Within (a b : DayCounts) : Prop where
  appStarts : a.appStarts ≤ b.appStarts
  meetingsStarted : a.meetingsStarted ≤ b.meetingsStarted
  meetingsStopped : a.meetingsStopped ≤ b.meetingsStopped
  distinctDevices : a.distinctDevices ≤ b.distinctDevices
  distinctUsers : a.distinctUsers ≤ b.distinctUsers

/-- With fewer meetings named as resumed, fewer are left out. -/
theorem notResumedOrphan_mono (ids : resumedIds events ⊆ resumedIds received)
    (kept : notResumedOrphan received e = true) : notResumedOrphan events e = true := by
  unfold notResumedOrphan at kept ⊢
  rw [Bool.or_eq_true] at kept ⊢
  refine kept.imp id fun counted => ?_
  cases meeting : e.meetingId with
  | none =>
      simp only [meeting, List.isEmpty_iff] at counted ⊢
      exact List.subset_nil.mp (counted ▸ ids)
  | some id =>
      simp only [meeting, decide_eq_true_eq] at counted ⊢
      exact fun named => counted (ids named)

theorem countOf_le (same : events.filter (ofDay day) = received.filter (ofDay day))
    (ids : resumedIds events ⊆ resumedIds received) (eventType : PyStr) :
    countOf received day eventType ≤ countOf events day eventType := by
  unfold countOf
  rw [same]
  apply List.countP_mono_left
  intro e _ counted
  rw [Bool.and_eq_true] at counted ⊢
  exact ⟨notResumedOrphan_mono ids counted.1, counted.2⟩

/-- The events of the day all there, and no more meetings named: no count is less. -/
theorem dayCounts_within (same : events.filter (ofDay day) = received.filter (ofDay day))
    (ids : resumedIds events ⊆ resumedIds received) :
    (dayCounts received day).Within (dayCounts events day) where
  appStarts := countOf_le same ids _
  meetingsStarted := countOf_le same ids _
  meetingsStopped := countOf_le same ids _
  distinctDevices := by
    change (((received.filter (ofDay day)).map (·.deviceId)).dedup.length ≤
      ((events.filter (ofDay day)).map (·.deviceId)).dedup.length)
    rw [same]
  distinctUsers := by
    change (((received.filter (ofDay day)).filterMap (·.userId)).dedup.length ≤
      ((events.filter (ofDay day)).filterMap (·.userId)).dedup.length)
    rw [same]

theorem resumedIds_sublist (sub : events.Sublist received) : resumedIds events ⊆ resumedIds received :=
  (sub.filterMap _).subset

/-! ### What is stored -/

/-- The stored values of a day are no less than the counts. -/
def Stored (rollups : Rollups) (day : Nat) (c : DayCounts) : Prop :=
  ∀ r ∈ c.rows, ∃ value, rollups.get (DateTime.dayText day, r.1) = some value ∧ (r.2 : Rat) ≤ value

theorem Stored.mono {rollups : Rollups} {a b : DayCounts} (within : a.Within b)
    (stored : Stored rollups day b) : Stored rollups day a := by
  unfold Stored DayCounts.rows at stored ⊢
  simp only [List.forall_mem_cons, List.not_mem_nil, false_implies, implies_true, and_true] at stored ⊢
  obtain ⟨⟨v₁, at₁, le₁⟩, ⟨v₂, at₂, le₂⟩, ⟨v₃, at₃, le₃⟩, ⟨v₄, at₄, le₄⟩, v₅, at₅, le₅⟩ := stored
  exact ⟨⟨v₁, at₁, (Nat.cast_le.mpr within.appStarts).trans le₁⟩,
    ⟨v₂, at₂, (Nat.cast_le.mpr within.meetingsStarted).trans le₂⟩,
    ⟨v₃, at₃, (Nat.cast_le.mpr within.meetingsStopped).trans le₃⟩,
    ⟨v₄, at₄, (Nat.cast_le.mpr within.distinctDevices).trans le₄⟩,
    v₅, at₅, (Nat.cast_le.mpr within.distinctUsers).trans le₅⟩

/-! ### A rollup -/

/-- Among the rows of a day, a name of the five counts has the value of its count. -/
theorem value_of_computeDay {r : PyStr × Nat} {row : (PyStr × PyStr) × Rat}
    (count : r ∈ (dayCounts events day).rows) (written : row ∈ computeDay events day)
    (named : row.1.2 = r.1) : row.2 = r.2 := by
  have five : r.1 ∈ [py "app_starts", py "meetings_started", py "meetings_stopped",
      py "distinct_devices", py "distinct_users"] := by
    have name := List.mem_map_of_mem (f := Prod.fst) count
    exact name
  unfold computeDay at written
  obtain ⟨pair, member, rfl⟩ := List.mem_map.mp written
  rw [List.append_assoc, List.mem_append, List.mem_append] at member
  rcases member with counts | models | lengths
  · obtain ⟨r', count', rfl⟩ := List.mem_map.mp counts
    have names : ((dayCounts events day).rows.map Prod.fst).Nodup := by
      change ([py "app_starts", py "meetings_started", py "meetings_stopped",
        py "distinct_devices", py "distinct_users"] : List PyStr).Nodup
      decide
    have same : r' = r := List.inj_on_of_nodup_map names count' count named
    rw [same]
  · obtain ⟨model, -, rfl⟩ := List.mem_map.mp models
    have front : (py "meetings_per_model:").isPrefixOf r.1 = true := by
      rw [← named]
      simp
    have none_ : ∀ name ∈ [py "app_starts", py "meetings_started", py "meetings_stopped",
        py "distinct_devices", py "distinct_users"],
        (py "meetings_per_model:").isPrefixOf name = false := by
      decide
    rw [none_ r.1 five] at front
    cases front
  · have apart : ∀ name ∈ [py "duration_avg_sec", py "duration_min_sec", py "duration_max_sec"],
        name ∉ [py "app_starts", py "meetings_started", py "meetings_stopped",
          py "distinct_devices", py "distinct_users"] := by
      decide
    refine absurd five (named ▸ apart pair.1 ?_)
    unfold durations at lengths
    dsimp only at lengths
    split at lengths
    · cases lengths
    · simp only [List.mem_cons, List.not_mem_nil, or_false] at lengths
      rcases lengths with rfl | rfl | rfl <;> simp

theorem key_of_computeDay {row : (PyStr × PyStr) × Rat} (written : row ∈ computeDay events day) :
    row.1.1 = DateTime.dayText day := by
  unfold computeDay at written
  obtain ⟨pair, -, rfl⟩ := List.mem_map.mp written
  rfl

/-- What a rollup stores for a day of its window. -/
theorem computeRollups_get (rollups : Rollups) (dated : (DateTime.ofInstant now).Dated)
    {i : Nat} (window : i < lookbackDays) {r : PyStr × Nat}
    (count : r ∈ (dayCounts events (now.day - i)).rows) :
    (computeRollups now events rollups).1.get (DateTime.dayText (now.day - i), r.1) =
      some (r.2 : Rat) := by
  apply Table.get_replaceAll_of_mem
  · have written : ((DateTime.dayText (now.day - i), r.1), (r.2 : Rat)) ∈
        computeDay events (now.day - i) := by
      unfold computeDay
      apply List.mem_map.mpr
      refine ⟨(r.1, (r.2 : Rat)), ?_, rfl⟩
      rw [List.append_assoc, List.mem_append]
      exact .inl (List.mem_map_of_mem (f := fun r : PyStr × Nat => (r.1, (r.2 : Rat))) count)
    exact List.mem_map.mpr ⟨_, List.mem_flatMap.mpr ⟨i, List.mem_range.mpr window, written⟩, rfl⟩
  · intro row written key
    obtain ⟨j, -, member⟩ := List.mem_flatMap.mp written
    have text : DateTime.dayText (now.day - j) = DateTime.dayText (now.day - i) := by
      rw [← key_of_computeDay member, key]
    rw [DateTime.dayText_inj (dated_day dated (Nat.sub_le _ _)) (dated_day dated (Nat.sub_le _ _))]
      at text
    rw [text] at member
    exact value_of_computeDay count member (by rw [key])

/-- A day outside the window keeps what is stored. -/
theorem computeRollups_get_other {rollups : Rollups} (dated : (DateTime.ofInstant now).Dated)
    (le : day ≤ now.day) (outside : ∀ i < lookbackDays, day ≠ now.day - i) (metric : PyStr) :
    (computeRollups now events rollups).1.get (DateTime.dayText day, metric) =
      rollups.get (DateTime.dayText day, metric) := by
  apply Table.get_replaceAll_of_not_mem
  intro written
  obtain ⟨row, member, key⟩ := List.mem_map.mp written
  obtain ⟨i, window, inDay⟩ := List.mem_flatMap.mp member
  have text : DateTime.dayText (now.day - i) = DateTime.dayText day := by
    rw [← key_of_computeDay inDay, key]
  rw [DateTime.dayText_inj (dated_day dated (Nat.sub_le _ _)) (dated_day dated le)] at text
  exact outside i (List.mem_range.mp window) text.symm

/-! ### The runs -/

/-- The rollups of the days that had ended are no less than the counts of all events received. -/
def Covered (s : EventStore) : Prop :=
  ∀ day ∈ s.rolledUp, Stored s.rollups day (dayCounts s.received day)

/-- At a startup, no event was ever received on a day that it looks back on and that its sweep has
cleared. -/
def quiet : TelemetryAction → EventStore → Prop
  | .startup swept rolled, s =>
      ∀ e ∈ s.received, rolled.day < e.receivedAt.day + lookbackDays → swept.day ≤ e.receivedAt.day + 30
  | _, _ => True

/-- What holds of every reachable state: the stored events are those of the days from some day on, at
least the last thirty; nothing is of the future; and the days that were rolled up have ended. -/
structure Swept (s : EventStore) : Prop where
  dated : (DateTime.ofInstant s.now).Dated
  past : ∀ e ∈ s.received, e.receivedAt ≤ s.now
  kept : ∃ oldest ≤ s.now.day - 30, s.events = s.received.filter fun e => oldest ≤ e.receivedAt.day
  ended : ∀ day ∈ s.rolledUp, day < s.now.day

theorem reads_iff {s : EventStore} :
    s.reads now = true ↔ s.now ≤ now ∧ (DateTime.ofInstant now).Dated := by
  simp [EventStore.reads]

namespace Swept

variable {s : EventStore}

theorem start : Swept .start := ⟨by decide, by simp [EventStore.start], ⟨0, by simp, rfl⟩,
  by simp [EventStore.start]⟩

/-- The clock alone goes on. -/
theorem tick (swept : Swept s) (reads : s.reads now = true) : Swept { s with now := now } := by
  obtain ⟨le, dated⟩ := reads_iff.mp reads
  obtain ⟨oldest, before, events⟩ := swept.kept
  have days := Instant.day_mono le
  refine ⟨dated, fun e member => (swept.past e member).trans le, ⟨oldest, ?_, events⟩, ?_⟩
  · change oldest ≤ Instant.day now - 30
    omega
  · exact fun day rolled => (swept.ended day rolled).trans_le days

theorem ingest (swept : Swept s) (reads : s.reads now = true) (body : EventBody) :
    Swept (s.ingest now body) := by
  have ticked := swept.tick reads
  unfold EventStore.ingest
  split
  · exact ticked
  · obtain ⟨oldest, before, events⟩ := ticked.kept
    have new : oldest ≤ (body.row now).receivedAt.day := before.trans (Nat.sub_le _ _)
    refine ⟨ticked.dated, ?_, ⟨oldest, before, ?_⟩, ticked.ended⟩
    · intro e member
      rcases List.mem_append.mp member with older | new
      · exact ticked.past e older
      · rw [List.mem_singleton.mp new]
        exact le_refl _
    · change s.events ++ [body.row now] = _
      rw [List.filter_append, ← events, List.filter_singleton]
      simp [new]

/-- After a sweep the events of the last thirty days are stored. -/
theorem sweep_events (swept : Swept s) (reads : s.reads now = true) :
    (s.sweep now).events = s.received.filter fun e => now.day - 30 ≤ e.receivedAt.day := by
  have ticked := swept.tick reads
  have dated : (DateTime.ofInstant now).Dated := ticked.dated
  obtain ⟨oldest, before, events⟩ := ticked.kept
  have stored : s.events = s.received.filter fun e => oldest ≤ e.receivedAt.day := events
  have present : ∀ e ∈ s.events, e.receivedAt ≤ now := by
    intro e member
    rw [stored] at member
    exact ticked.past e (List.mem_filter.mp member).1
  change purge now s.events = s.received.filter _
  rw [purge_eq_filter dated present, stored, List.filter_filter]
  apply List.filter_congr
  intro e _
  change oldest ≤ Instant.day now - 30 at before
  rw [Bool.eq_iff_iff, Bool.and_eq_true, decide_eq_true_eq, decide_eq_true_eq]
  omega

theorem sweep (swept : Swept s) (reads : s.reads now = true) : Swept (s.sweep now) where
  dated := (swept.tick reads).dated
  past := (swept.tick reads).past
  kept := ⟨now.day - 30, le_refl _, swept.sweep_events reads⟩
  ended := (swept.tick reads).ended

theorem rollUp (swept : Swept s) (reads : s.reads now = true) : Swept (s.rollUp now) := by
  have ticked := swept.tick reads
  refine ⟨ticked.dated, ticked.past, ticked.kept, ?_⟩
  intro day rolled
  rcases List.mem_append.mp rolled with older | new
  · exact ticked.ended day older
  · exact of_decide_eq_true (List.mem_filter.mp new).2

end Swept

/-- Every step keeps it. -/
theorem Swept.step {a : TelemetryAction} {s s' : EventStore} (swept : Swept s)
    (step : telemetryMachine.step a s = some s') : Swept s' := by
  cases a with
  | ingest now body =>
      obtain ⟨reads, done⟩ := Option.ite_none_right_eq_some.mp step
      cases done
      exact swept.ingest reads body
  | sweep now =>
      obtain ⟨reads, done⟩ := Option.ite_none_right_eq_some.mp step
      cases done
      exact swept.sweep reads
  | startup first second =>
      obtain ⟨reads, done⟩ := Option.ite_none_right_eq_some.mp step
      cases done
      rw [Bool.and_eq_true] at reads
      exact (swept.sweep reads.1).rollUp reads.2

/-! ### What the steps do to the rollups of ended days -/

theorem rollUp_rollups (s : EventStore) (now : Instant) :
    (s.rollUp now).rollups = (computeRollups now s.events s.rollups).1 := by
  rw [EventStore.rollUp]

theorem rollUp_received (s : EventStore) (now : Instant) : (s.rollUp now).received = s.received := rfl

namespace Covered

variable {s : EventStore}

/-- An event of a later day changes no count of an ended day for the better. -/
theorem ingest (covered : Covered s) (swept : Swept s) (reads : s.reads now = true)
    (body : EventBody) : Covered (s.ingest now body) := by
  obtain ⟨le, dated⟩ := reads_iff.mp reads
  unfold EventStore.ingest
  split
  · exact covered
  · intro day rolled
    have before := (swept.ended day rolled).trans_le (Instant.day_mono le)
    have other : ofDay day (body.row now) = false := by
      rw [← Bool.not_eq_true, ofDay_iff dated (le_refl now) before.le]
      exact before.ne'
    apply (covered day rolled).mono
    apply dayCounts_within
    · rw [List.filter_append, List.filter_singleton, other]
      exact (List.append_nil _).symm
    · exact resumedIds_sublist (List.sublist_append_left _ _)

/-- With all events of its days at hand, a rollup stores no less than the counts. -/
theorem rollUp (covered : Covered s) (swept : Swept s) (reads : s.reads now = true)
    (present : ∀ e ∈ s.received, now.day < e.receivedAt.day + lookbackDays → e ∈ s.events) :
    Covered (s.rollUp now) := by
  obtain ⟨le, dated⟩ := reads_iff.mp reads
  obtain ⟨oldest, -, events⟩ := swept.kept
  have within : s.events.Sublist s.received := by
    rw [events]
    exact List.filter_sublist
  intro day rolled
  have past : day < now.day := by
    rcases List.mem_append.mp rolled with older | new
    · exact (swept.ended day older).trans_le (Instant.day_mono le)
    · exact of_decide_eq_true (List.mem_filter.mp new).2
  by_cases window : ∃ i < lookbackDays, day = now.day - i
  · obtain ⟨i, short, rfl⟩ := window
    have stored : Stored (s.rollUp now).rollups (now.day - i) (dayCounts s.events (now.day - i)) := by
      intro r count
      rw [rollUp_rollups]
      exact ⟨r.2, computeRollups_get s.rollups dated short count, le_refl _⟩
    rw [rollUp_received]
    apply stored.mono
    refine dayCounts_within ?_ (resumedIds_sublist within)
    rw [events, List.filter_filter]
    apply List.filter_congr
    intro e member
    by_cases here : ofDay (now.day - i) e = true
    · have day := (ofDay_iff dated ((swept.past e member).trans le) (Nat.sub_le _ _)).mp here
      have kept := present e member (by rw [day]; omega)
      rw [events, List.mem_filter] at kept
      rw [here, kept.2]
      rfl
    · rw [Bool.not_eq_true] at here
      rw [here]
      rfl
  · have outside : ∀ i < lookbackDays, day ≠ now.day - i :=
      fun i short same => window ⟨i, short, same⟩
    have older : day ∈ s.rolledUp := by
      rcases List.mem_append.mp rolled with older | new
      · exact older
      · obtain ⟨i, short, same⟩ := List.mem_map.mp (List.mem_filter.mp new).1
        exact absurd same.symm (outside i (List.mem_range.mp short))
    intro r count
    obtain ⟨value, at_, le_⟩ := covered day older r count
    refine ⟨value, ?_, le_⟩
    rw [← at_, rollUp_rollups]
    exact computeRollups_get_other dated past.le outside r.1

/-- An event that was cleared before its day is rolled up once more is missing from the rollup. -/
theorem present_of_rollUp (after : Covered (s.rollUp now)) (swept : Swept s)
    (reads : s.reads now = true) {cleared : Nat}
    (events : s.events = s.received.filter fun e => cleared ≤ e.receivedAt.day)
    (recent : cleared ≤ now.day) {e : TelemetryEvent} (received : e ∈ s.received)
    (window : now.day < e.receivedAt.day + lookbackDays) : cleared ≤ e.receivedAt.day := by
  by_contra missing
  rw [not_le] at missing
  obtain ⟨le, dated⟩ := reads_iff.mp reads
  have past := missing.trans_le recent
  have short : now.day - e.receivedAt.day < lookbackDays := by omega
  have back : now.day - (now.day - e.receivedAt.day) = e.receivedAt.day := by omega
  have rolled : e.receivedAt.day ∈ (s.rollUp now).rolledUp := by
    apply List.mem_append_right
    apply List.mem_filter.mpr
    exact ⟨List.mem_map.mpr ⟨_, List.mem_range.mpr short, back⟩, decide_eq_true past⟩
  have devices : ∀ list : List TelemetryEvent,
      (py "distinct_devices", (dayCounts list e.receivedAt.day).distinctDevices) ∈
        (dayCounts list e.receivedAt.day).rows := by simp [DayCounts.rows]
  obtain ⟨value, at_, le_⟩ := after e.receivedAt.day rolled _ (devices s.received)
  have count := devices s.events
  rw [← back] at count
  have written := computeRollups_get s.rollups dated short count
  rw [back] at written
  rw [rollUp_rollups, written, Option.some.injEq] at at_
  -- nothing of the day is left, but one device was seen
  have nothing : (dayCounts s.events e.receivedAt.day).distinctDevices = 0 := by
    have empty : s.events.filter (ofDay e.receivedAt.day) = [] := by
      rw [List.filter_eq_nil_iff]
      intro other member here
      rw [events, List.mem_filter, decide_eq_true_eq] at member
      have day := (ofDay_iff dated ((swept.past other member.1).trans le) past.le).mp here
      omega
    change ((s.events.filter (ofDay e.receivedAt.day)).map (·.deviceId)).dedup.length = 0
    rw [empty]
    rfl
  have seen : 0 < (dayCounts s.received e.receivedAt.day).distinctDevices := by
    have here := (ofDay_iff dated ((swept.past e received).trans le) past.le).mpr rfl
    have member : e.deviceId ∈
        ((s.received.filter (ofDay e.receivedAt.day)).map (·.deviceId)).dedup := by
      rw [List.mem_dedup]
      exact List.mem_map_of_mem (List.mem_filter.mpr ⟨received, here⟩)
    exact List.length_pos_of_mem member
  rw [← at_, nothing] at le_
  have : (dayCounts s.received e.receivedAt.day).distinctDevices ≤ 0 := by exact_mod_cast le_
  omega

end Covered

/-- A step keeps the rollups of ended days exactly when it is quiet. -/
theorem covered_step {a : TelemetryAction} {s s' : EventStore} (swept : Swept s)
    (covered : Covered s) (step : telemetryMachine.step a s = some s') :
    Covered s' ↔ quiet a s := by
  cases a with
  | ingest now body =>
      obtain ⟨reads, done⟩ := Option.ite_none_right_eq_some.mp step
      cases done
      exact iff_of_true (covered.ingest swept reads body) trivial
  | sweep now =>
      obtain ⟨reads, done⟩ := Option.ite_none_right_eq_some.mp step
      cases done
      exact iff_of_true covered trivial
  | startup first second =>
      obtain ⟨reads, done⟩ := Option.ite_none_right_eq_some.mp step
      cases done
      rw [Bool.and_eq_true] at reads
      have between := swept.sweep reads.1
      have events := swept.sweep_events reads.1
      have later := Instant.day_mono (reads_iff.mp reads.2).1
      constructor
      · intro after e received window
        have kept := after.present_of_rollUp between reads.2 events
          ((Nat.sub_le _ _).trans later) received window
        omega
      · intro none_
        refine Covered.rollUp covered between reads.2 ?_
        intro e received window
        rw [events, List.mem_filter, decide_eq_true_eq]
        have kept := none_ e received window
        exact ⟨received, by omega⟩

/-- In every state of a run the rollups of ended days are no less than the counts of all events
received if and only if no startup looks back on a day that its sweep has cleared and on which an event
was received. -/
theorem rollups_survive_iff {actions : List TelemetryAction} {last : EventStore}
    (run : telemetryMachine.run actions .start = some last) :
    (∀ front, front <+: actions → ∀ mid, telemetryMachine.run front .start = some mid → Covered mid) ↔
      telemetryMachine.Along quiet actions .start :=
  Machine.throughout_iff_along_under (fun _ _ _ _ swept step => swept.step step)
    (fun _ _ _ _ => covered_step) .start (by intro day rolled; cases rolled) run

/-- An app start. -/
def appStart : EventBody := ⟨py "app_start", py "device", none, none, none, none, none⟩

/-- Noon, so many days after the first of September 2026. -/
def noonAfter (days : Nat) : Instant :=
  (daysBeforeMonth (12 * 2025 + 8) + days) * microsPerDay + microsPerDay / 2

/-- An app start on the first of September, and startups on the second and the day thirty days later. -/
def monthLater : List TelemetryAction :=
  [.ingest (noonAfter 0) appStart, .startup (noonAfter 1) (noonAfter 1),
    .startup (noonAfter 31) (noonAfter 31)]

/-- The rollup of the day after. -/
def rolledNextDay : EventStore :=
  ((EventStore.start.ingest (noonAfter 0) appStart).sweep (noonAfter 1)).rollUp (noonAfter 1)

theorem noonAfter_dated (days : Nat) (short : days ≤ 31) :
    (DateTime.ofInstant (noonAfter days)).Dated := by
  have last : (DateTime.ofInstant (noonAfter 31)).Dated := by decide +kernel
  apply last.of_le
  exact Nat.add_le_add_right (Nat.mul_le_mul_right _ (Nat.add_le_add_left short _)) _

theorem noonAfter_mono {a b : Nat} (le : a ≤ b) : noonAfter a ≤ noonAfter b :=
  Nat.add_le_add_right (Nat.mul_le_mul_right _ (Nat.add_le_add_left le _)) _

theorem noonAfter_day (days : Nat) :
    (noonAfter days).day = daysBeforeMonth (12 * 2025 + 8) + days := by
  unfold noonAfter Instant.day
  rw [Nat.add_div_of_dvd_right (Dvd.intro_left _ rfl), Nat.mul_div_cancel _ (by decide)]
  rfl

theorem step_ingest {s : EventStore} (reads : s.reads now = true) (body : EventBody) :
    telemetryMachine.step (.ingest now body) s = some (s.ingest now body) :=
  if_pos reads

theorem step_startup {s : EventStore} (reads : s.reads now = true) :
    telemetryMachine.step (.startup now now) s = some ((s.sweep now).rollUp now) := by
  refine if_pos (Bool.and_eq_true_iff.mpr ⟨reads, ?_⟩)
  exact reads_iff.mpr ⟨le_refl now, (reads_iff.mp reads).2⟩

theorem monthLater_reads :
    EventStore.start.reads (noonAfter 0) = true ∧
      (EventStore.start.ingest (noonAfter 0) appStart).reads (noonAfter 1) = true ∧
      rolledNextDay.reads (noonAfter 31) = true :=
  ⟨reads_iff.mpr ⟨Nat.zero_le _, noonAfter_dated 0 (by decide)⟩,
    reads_iff.mpr ⟨noonAfter_mono (by decide), noonAfter_dated 1 (by decide)⟩,
    reads_iff.mpr ⟨noonAfter_mono (by decide), noonAfter_dated 31 (by decide)⟩⟩

theorem monthLater_run :
    telemetryMachine.run monthLater .start =
      some ((rolledNextDay.sweep (noonAfter 31)).rollUp (noonAfter 31)) := by
  obtain ⟨first, second, third⟩ := monthLater_reads
  rw [monthLater, Machine.run_cons_of_step (step_ingest first appStart),
    Machine.run_cons_of_step (step_startup second)]
  exact Machine.run_cons_of_step (step_startup third)

/-- The startup at the end of the month overwrites the rollup of the first with nothing. -/
theorem rollup_overwritten :
    ∃ s, telemetryMachine.run monthLater .start = some s ∧ ¬ Covered s := by
  refine ⟨_, monthLater_run, fun after => ?_⟩
  obtain ⟨first, second, third⟩ := monthLater_reads
  have swept : Swept rolledNextDay :=
    (Swept.start.ingest first appStart).step (step_startup second)
  have received : appStart.row (noonAfter 0) ∈ rolledNextDay.received := List.mem_singleton_self _
  have kept := after.present_of_rollUp (swept.sweep third)
    (reads_iff.mpr ⟨le_refl _, noonAfter_dated 31 (by decide)⟩) (swept.sweep_events third)
    (Nat.sub_le _ _) received
    (by
      change (noonAfter 31).day < (noonAfter 0).day + lookbackDays
      rw [noonAfter_day, noonAfter_day]
      decide +kernel)
  change (noonAfter 31).day - 30 ≤ (noonAfter 0).day at kept
  rw [noonAfter_day, noonAfter_day] at kept
  omega

/-- The condition fails at that startup alone. -/
theorem monthLater_not_quiet :
    (∀ front, front <+: monthLater → ∀ mid, telemetryMachine.run front .start = some mid →
        Covered mid) ↔ telemetryMachine.Along quiet monthLater .start :=
  rollups_survive_iff monthLater_run

end GhostPour.Telemetry
