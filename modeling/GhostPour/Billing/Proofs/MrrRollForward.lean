/-
Module: GhostPour.Billing.Proofs.MrrRollForward
Layer: Proofs
Purpose: The months of the report balance, and each one agrees with the trend on its last day: both
  replays leave the tiers of the production users as the log up to that day has them.
Trusted boundary: none
Main exports: RollsForward, lastDay, mrr_rolls_forward
-/
import GhostPour.Billing.Subscriptions

namespace GhostPour.Billing

/-! ### Counting paid users -/

/-- The users on a paid tier. -/
def paidCount (state : TierState) : Nat := state.countP fun entry => isPaid entry.2

/-- An entry that is set is counted in the place of the one it replaces. -/
theorem paidCount_set (state : TierState) (userId : PyStr) (tier : Option PyStr) :
    paidCount (state.set userId tier) + (isPaid (state.get userId).join).toNat =
      paidCount state + (isPaid tier).toNat := by
  unfold paidCount
  induction state with
  | nil =>
      rw [Assoc.set, Assoc.get, List.countP_singleton]
      cases isPaid tier <;> rfl
  | cons entry state ih =>
      obtain ⟨key, old⟩ := entry
      rw [Assoc.set, Assoc.get]
      split
      · simp only [List.countP_cons, Option.join_some]
        cases isPaid old <;> cases isPaid tier <;> simp
      · simp only [List.countP_cons]
        omega

theorem sum_values_set (counts : Assoc Nat) (tier : PyStr) :
    (counts.set tier ((counts.get tier).getD 0 + 1)).values.sum = counts.values.sum + 1 := by
  induction counts with
  | nil => rfl
  | cons entry counts ih =>
      obtain ⟨key, n⟩ := entry
      rw [Assoc.set, Assoc.get]
      unfold Assoc.values at ih ⊢
      split
      · simp only [List.map_cons, List.sum_cons, Option.getD_some]
        omega
      · simp only [List.map_cons, List.sum_cons, ih]
        omega

/-- Counting the tiers of a state one after the other counts its paid users. -/
theorem foldl_values_sum {count : Assoc Nat → Option PyStr → Assoc Nat}
    (adds : ∀ counts tier, (count counts tier).values.sum =
      counts.values.sum + if isPaid tier then 1 else 0) (state : TierState) (counts : Assoc Nat) :
    (state.values.foldl count counts).values.sum = counts.values.sum + paidCount state := by
  induction state generalizing counts with
  | nil => rfl
  | cons entry state ih =>
      refine (ih _).trans ?_
      rw [adds, paidCount, paidCount, List.countP_cons]
      omega

/-- The tiers together count the paid users. -/
theorem activeByTier_sum (state : TierState) : (activeByTier state).values.sum = paidCount state := by
  rw [activeByTier, foldl_values_sum]
  · exact Nat.zero_add _
  · intro counts tier
    cases tier with
    | none => simp [isPaid]
    | some tier =>
        rcases paid : isPaidTier tier with _ | _
        · simp [isPaid, paid]
        · simp [sum_values_set, isPaid, paid]

/-! ### The months balance -/

/-- Each month has the active subscribers of the month before it, and of nobody before the first,
with the new ones and without those who churned. -/
def RollsForward : Nat → List MonthReport → Prop
  | _, [] => True
  | before, r :: report =>
      r.activeTotal + r.churns = before + r.newSubscriptions ∧ RollsForward r.activeTotal report

theorem isPaid_paidTier (r : SubscriptionEvent) : isPaid (paidTier r) = (paidTier r).isSome := by
  unfold paidTier
  split
  · next paid =>
    rw [paid]
    cases tier : r.toTier with
    | none => rw [tier] at paid; cases paid
    | some _ => rfl
  · rfl

theorem monthEvent_tiers (acc : TierState × Nat × Nat) (r : SubscriptionEvent) :
    (monthEvent acc r).1 = replayEvent acc.1 r := by
  unfold monthEvent
  simp only
  split
  · rfl
  · split <;> rfl

/-- What an event adds to the paid users is a new subscription less a churn. -/
theorem monthEvent_balance (acc : TierState × Nat × Nat) (r : SubscriptionEvent) :
    paidCount (monthEvent acc r).1 + (monthEvent acc r).2.2 + acc.2.1 =
      paidCount acc.1 + acc.2.2 + (monthEvent acc r).2.1 := by
  obtain ⟨state, newSubs, churns⟩ := acc
  have counted := paidCount_set state r.userId (paidTier r)
  rw [isPaid_paidTier] at counted
  rw [monthEvent_tiers, replayEvent]
  unfold monthEvent
  cases was : isPaid (state.get r.userId).join <;> cases now : (paidTier r).isSome <;>
    simp [was, now] at counted ⊢ <;> omega

theorem monthEvents_spec (rows : List SubscriptionEvent) (acc : TierState × Nat × Nat) :
    (rows.foldl monthEvent acc).1 = rows.foldl replayEvent acc.1 ∧
      paidCount (rows.foldl monthEvent acc).1 + (rows.foldl monthEvent acc).2.2 + acc.2.1 =
        paidCount acc.1 + acc.2.2 + (rows.foldl monthEvent acc).2.1 := by
  induction rows generalizing acc with
  | nil => exact ⟨rfl, rfl⟩
  | cons r rows ih =>
      obtain ⟨tiers, balance⟩ := ih (monthEvent acc r)
      have step := monthEvent_balance acc r
      rw [List.foldl_cons, List.foldl_cons]
      refine ⟨by rw [tiers, monthEvent_tiers], by omega⟩

theorem monthReports_rolls (rows : List SubscriptionEvent) (months : List Nat) (state : TierState) :
    RollsForward (paidCount state) (monthReports rows months state) := by
  induction months generalizing state with
  | nil => trivial
  | cons month months ih =>
      have balance := (monthEvents_spec (rows.filter fun r => r.effectiveAt.month = month)
        (state, 0, 0)).2
      rw [monthReports]
      refine ⟨?_, ?_⟩
      · simp only [activeByTier_sum] at balance ⊢
        omega
      · simp only [activeByTier_sum]
        exact ih _

/-- The months are sampled from the replay of their rows. -/
theorem monthReports_samples (rows : List SubscriptionEvent) (months : List Nat)
    (state : TierState) :
    (monthReports rows months state).map (fun r => (r.month, r.activeTotal)) =
      (Replay.samples replayEvent (fun r => r.effectiveAt.month) rows months state).map
        fun sample => (sample.1, paidCount sample.2) := by
  induction months generalizing state with
  | nil => rfl
  | cons month months ih =>
      have tiers := (monthEvents_spec (rows.filter fun r => r.effectiveAt.month = month)
        (state, 0, 0)).1
      rw [monthReports, Replay.samples, List.map_cons, List.map_cons]
      simp only [activeByTier_sum, tiers, ih]

/-! ### The order of the rows -/

/-- The last day of a month. -/
def lastDay (month : Nat) : Nat := daysBeforeMonth (month + 1) - 1

/-- A date is in a month or an earlier one exactly when it is not after its last day. -/
theorem month_le_iff_lastDay (t : DateTime) (month : Nat) :
    t.month ≤ month ↔ t.daysBefore ≤ lastDay month := by
  have low := t.day_pos
  have high := t.day_le
  have tiles := daysBeforeMonth_succ month
  have long := daysInMonth_pos month
  unfold lastDay DateTime.daysBefore
  rcases Nat.lt_trichotomy t.month month with before | same | after
  · have ends := daysBeforeMonth_lt before
    omega
  · rw [same] at high ⊢
    omega
  · have starts := daysBeforeMonth_lt after
    omega

theorem isoLe_total (a b : DateTime) : isoLe a b ∨ isoLe b a := by
  unfold isoLe
  omega

theorem isoLe_trans {a b c : DateTime} (first : isoLe a b) (second : isoLe b c) : isoLe a c := by
  unfold isoLe at *
  omega

theorem isoLe.day_le {a b : DateTime} (le : isoLe a b) : a.daysBefore ≤ b.daysBefore := by
  unfold isoLe at le
  omega

instance (first second : SubscriptionEvent → DateTime) : Std.Total (orderBy first second) where
  total a b := by
    have byFirst := isoLe_total (first a) (first b)
    have bySecond := isoLe_total (second a) (second b)
    by_cases ab : isoLe (first a) (first b)
    · by_cases ba : isoLe (first b) (first a)
      · exact bySecond.imp (fun le => ⟨ab, fun _ => le⟩) fun le => ⟨ba, fun _ => le⟩
      · exact .inl ⟨ab, fun le => absurd le ba⟩
    · exact .inr ⟨byFirst.resolve_left ab, fun le => absurd le ab⟩

instance (first second : SubscriptionEvent → DateTime) :
    IsTrans SubscriptionEvent (orderBy first second) where
  trans _ _ _ ab bc :=
    ⟨isoLe_trans ab.1 bc.1, fun ca =>
      isoLe_trans (ab.2 (isoLe_trans bc.1 ca)) (bc.2 (isoLe_trans ca ab.1))⟩

/-- The rows come day after day. -/
theorem reportRows_days (events : List SubscriptionEvent) :
    (reportRows events).Pairwise fun a b => a.effectiveAt.daysBefore ≤ b.effectiveAt.daysBefore :=
  (List.pairwise_insertionSort _ events).imp fun le => le.1.day_le

theorem reportRows_months {rows : List SubscriptionEvent}
    (days : rows.Pairwise fun a b => a.effectiveAt.daysBefore ≤ b.effectiveAt.daysBefore) :
    rows.Pairwise fun a b => a.effectiveAt.month ≤ b.effectiveAt.month := by
  refine days.imp fun {a b} le => ?_
  rw [month_le_iff_lastDay]
  exact le.trans ((month_le_iff_lastDay b.effectiveAt _).mp le_rfl)

/-! ### One replay among the others -/

/-- Setting an entry, as far as some keys are concerned. -/
theorem filter_set {α : Type} (p : PyStr → Bool) (d : Assoc α) (key : PyStr) (value : α) :
    (Assoc.set d key value).filter (fun entry => p entry.1) =
      if p key then Assoc.set (d.filter fun entry => p entry.1) key value
      else d.filter fun entry => p entry.1 := by
  induction d with
  | nil =>
      rw [Assoc.set, List.filter_singleton]
      cases p key <;> rfl
  | cons entry d ih =>
      obtain ⟨k, old⟩ := entry
      rw [Assoc.set]
      by_cases here : k = key
      · subst here
        rw [if_pos rfl, List.filter_cons, List.filter_cons]
        split
        · rw [Assoc.set, if_pos rfl]
        · rfl
      · rw [if_neg here, List.filter_cons, List.filter_cons, ih]
        by_cases kept : p k
        · simp only [kept, if_true]
          split
          · rw [Assoc.set, if_neg here]
          · rfl
        · simp [kept]

/-- The users of a kind are replayed as if they were alone. -/
theorem filter_replay (p : PyStr → Bool) (rows : List SubscriptionEvent) (state : TierState) :
    (rows.foldl replayEvent state).filter (fun entry => p entry.1) =
      (rows.filter fun r => p r.userId).foldl replayEvent
        (state.filter fun entry => p entry.1) := by
  induction rows generalizing state with
  | nil => rfl
  | cons r rows ih =>
      rw [List.foldl_cons, ih, List.filter_cons, replayEvent, filter_set]
      split
      · rfl
      · rfl

/-- The paid users of one environment are those a replay of their rows alone counts. -/
theorem paidIn_replay (envs : Assoc PyStr) (environment : PyStr) (rows : List SubscriptionEvent) :
    (paidIn envs environment (rows.foldl replayEvent [])).length =
      paidCount ((rows.filter fun r => envs.get r.userId = some environment).foldl
        replayEvent []) := by
  have alone := filter_replay (fun userId => envs.get userId = some environment) rows []
  rw [List.filter_nil] at alone
  rw [← alone, paidCount, List.countP_eq_length_filter, List.filter_filter, paidIn]

/-! ### The two reports -/

section
variable (now : DateTime) (events : List SubscriptionEvent)

/-- The production rows up to a day. -/
def productionUpTo (events : List SubscriptionEvent) (day : Nat) : List SubscriptionEvent :=
  (productionRows events).filter fun r => r.effectiveAt.daysBefore ≤ day

/-- A month of the report counts the production users as the log up to its last day has them. -/
theorem monthlyAggregates_total :
    ∀ r ∈ monthlyAggregates now events,
      (∃ e ∈ productionRows events, e.effectiveAt.month ≤ r.month) ∧
      r.activeTotal = paidCount ((productionUpTo events (lastDay r.month)).foldl replayEvent []) := by
  intro r member
  rw [monthlyAggregates] at member
  unfold productionUpTo
  have days : (productionRows events).Pairwise fun a b =>
      a.effectiveAt.daysBefore ≤ b.effectiveAt.daysBefore :=
    (reportRows_days events).filter _
  revert member days
  cases productionRows events with
  | nil => exact fun member => nomatch member
  | cons first rest =>
      intro member days
      have sampled := List.mem_map_of_mem (f := fun r : MonthReport => (r.month, r.activeTotal)) member
      rw [monthReports_samples] at sampled
      obtain ⟨sample, here, same⟩ := List.mem_map.mp sampled
      simp only [Prod.mk.injEq] at same
      obtain ⟨shown, replayed⟩ := Replay.samples_from_first replayEvent (fun r => r.effectiveAt.month)
        (reportRows_months days) [] _ sample here
      rw [same.1] at shown replayed
      have range := List.mem_range'_1.mp shown
      refine ⟨⟨first, List.mem_cons_self, range.1⟩, ?_⟩
      rw [← same.2, replayed]
      simp only [month_le_iff_lastDay]

/-- A day of the trend counts the production users as the log up to it has them. -/
theorem mrrTrend_active :
    ∀ d ∈ mrrTrend now events,
      d.activePaid = paidCount ((productionUpTo events d.day).foldl replayEvent []) := by
  intro d member
  rw [mrrTrend] at member
  have days := reportRows_days events
  have upTo (day : Nat) : productionUpTo events day =
      ((reportRows events).filter fun r => r.effectiveAt.daysBefore ≤ day).filter fun r =>
        (userEnvironments events).get r.userId = some production := by
    rw [productionUpTo, productionRows, List.filter_comm]
  simp only [upTo, ← paidIn_replay]
  revert member days
  cases reportRows events with
  | nil => exact fun member => nomatch member
  | cons first rest =>
      intro member days
      obtain ⟨sample, here, rfl⟩ := List.mem_map.mp member
      obtain ⟨_, replayed⟩ := Replay.samples_from_first replayEvent
        (fun r => r.effectiveAt.daysBefore) days [] _ sample here
      rw [dayReport, replayed]

/-- The trend has one entry for each day from the first event to today. -/
theorem mrrTrend_days :
    (mrrTrend now events).map DayReport.day = match reportRows events with
      | [] => []
      | first :: _ => List.range' first.effectiveAt.daysBefore
          (now.daysBefore + 1 - first.effectiveAt.daysBefore) := by
  rw [mrrTrend]
  cases reportRows events with
  | nil => rfl
  | cons first rest =>
      simp only [List.map_map]
      exact Replay.samples_keys _ _ _ _ _

end

/-- The months follow each other. -/
theorem monthReports_months (rows : List SubscriptionEvent) (months : List Nat) (state : TierState) :
    (monthReports rows months state).map MonthReport.month = months := by
  induction months generalizing state with
  | nil => rfl
  | cons month months ih =>
      rw [monthReports, List.map_cons, ih]

/-- The report balances month after month, and the last day of each month in the trend has as many
active subscribers. The month of today has its last day still to come: there it is today, and the
two agree unless the log holds events of days to come. -/
theorem mrr_rolls_forward (events : List SubscriptionEvent) (now : DateTime) :
    RollsForward 0 (monthlyAggregates now events) ∧
      (∃ start count, (monthlyAggregates now events).map MonthReport.month =
        List.range' start count) ∧
      ((mrrTrend now events).map DayReport.day).Nodup ∧
      ∀ r ∈ monthlyAggregates now events,
        lastDay r.month ≤ now.daysBefore ∨
            (∀ e ∈ events, e.effectiveAt.daysBefore ≤ now.daysBefore) →
          ∃ d ∈ mrrTrend now events, d.day = min (lastDay r.month) now.daysBefore ∧
            d.activePaid = r.activeTotal := by
  refine ⟨?_, ?_, ?_, ?_⟩
  · rw [monthlyAggregates]
    cases productionRows events with
    | nil => trivial
    | cons first rest => exact monthReports_rolls _ _ []
  · rw [monthlyAggregates]
    cases productionRows events with
    | nil => exact ⟨0, 0, rfl⟩
    | cons first rest => exact ⟨_, _, monthReports_months _ _ _⟩
  · rw [mrrTrend_days]
    cases reportRows events with
    | nil => exact List.nodup_nil
    | cons first rest => exact List.nodup_range'
  · intro r member reached
    obtain ⟨⟨e, known, early⟩, total⟩ := monthlyAggregates_total now events r member
    have row : e ∈ reportRows events := (List.mem_filter.mp known).1
    have logged {e : SubscriptionEvent} (row : e ∈ reportRows events) : e ∈ events :=
      (List.mem_insertionSort _).mp row
    rw [month_le_iff_lastDay] at early
    have inTime : e.effectiveAt.daysBefore ≤ now.daysBefore :=
      reached.elim early.trans fun none => none e (logged row)
    -- The day is one of the trend.
    obtain ⟨d, shown, day⟩ : ∃ d ∈ mrrTrend now events,
        d.day = min (lastDay r.month) now.daysBefore := by
      have days := mrrTrend_days now events
      have sorted := reportRows_days events
      revert days sorted row
      cases reportRows events with
      | nil => exact fun row => nomatch row
      | cons first rest =>
          intro row days sorted
          have firstDay : first.effectiveAt.daysBefore ≤ e.effectiveAt.daysBefore := by
            rcases List.mem_cons.mp row with rfl | later
            · exact le_rfl
            · exact (List.pairwise_cons.mp sorted).1 e later
          have inRange : min (lastDay r.month) now.daysBefore ∈
              (mrrTrend now events).map DayReport.day := by
            rw [days, List.mem_range'_1]
            omega
          exact List.mem_map.mp inRange
    refine ⟨d, shown, day, ?_⟩
    rw [mrrTrend_active now events d shown, total, day]
    congr 2
    refine List.filter_congr fun e known => ?_
    rw [decide_eq_decide, le_min_iff]
    refine and_iff_left_of_imp fun le => ?_
    rcases reached with ended | none
    · exact le.trans ended
    · exact none e (logged (List.mem_filter.mp known).1)

end GhostPour.Billing
