/-
Module: GhostPour.Documents.Proofs.SlipTrail
Layer: Proofs
Purpose: The trail of a task as the dates attributed to it. A meeting's day has the date spoken there
  last, else the end that its version planned, whatever the order of the versions; the trail is these
  dates in order and then the current end, without repetitions. A trail shows only real moves exactly
  when no weekend date stands next to another that is pulled onto the same working day.
Trusted boundary: none
Main exports: SnapRule, weekendEnd, reportedOn, attributed, slipRow_trail, SlipIsReal, slipIsReal_iff
-/
import GhostPour.Documents.Proofs.GanttRows
import GhostPour.Documents.Slip
import GhostPour.Library.Pieces

namespace GhostPour.Documents

/-! ### The two sources -/

theorem Spoken.asOfLe_trans (a b c : Spoken) (first : a.asOfLe b = true) (second : b.asOfLe c = true) :
    a.asOfLe c = true :=
  decide_eq_true ((of_decide_eq_true first).trans (of_decide_eq_true second))

theorem Spoken.asOfLe_total (a b : Spoken) : (a.asOfLe b || b.asOfLe a) = true := by
  rw [Bool.or_eq_true, Spoken.asOfLe, Spoken.asOfLe, decide_eq_true_eq, decide_eq_true_eq]
  exact le_total _ _

/-- The commitments of an item that can be read, as given. -/
def Item.spoken (t : Item) : List Spoken := t.commitments.filterMap Commitment.spoken

/-- Sorting keeps the order of the dates spoken in one meeting. -/
theorem commitments_on (t : Item) (day : Int) :
    (commitments t).filter (fun c => c.asOf = some day) =
      t.spoken.filter fun c => c.asOf = some day := by
  have undated : (t.spoken.filter fun c => c.asOf.isNone).filter (fun c => c.asOf = some day) = [] := by
    refine List.filter_eq_nil_iff.mpr fun c member said => ?_
    have none_ := (List.mem_filter.mp member).2
    rw [of_decide_eq_true said] at none_
    cases none_
  have dated : (t.spoken.filter fun c => c.asOf.isSome).filter (fun c => c.asOf = some day) =
      t.spoken.filter fun c => c.asOf = some day := by
    rw [List.filter_filter]
    refine List.filter_congr fun c _ => ?_
    cases c.asOf <;> simp
  have one : ((t.spoken.filter fun c => c.asOf.isSome).filter fun c => c.asOf = some day).Pairwise
      fun a b => a.asOfLe b = true := by
    refine List.pairwise_of_forall_mem_list fun a first b second => ?_
    rw [Spoken.asOfLe, of_decide_eq_true (List.mem_filter.mp first).2,
      of_decide_eq_true (List.mem_filter.mp second).2]
    exact decide_eq_true (le_refl _)
  have kept := (List.sublist_mergeSort Spoken.asOfLe_trans Spoken.asOfLe_total one
    List.filter_sublist).filter fun c => decide (c.asOf = some day)
  rw [List.filter_filter] at kept
  simp only [Bool.and_self] at kept
  have length := ((List.mergeSort_perm (t.spoken.filter fun c => c.asOf.isSome) Spoken.asOfLe).filter
    fun c => decide (c.asOf = some day)).length_eq
  change ((t.spoken.filter fun c => c.asOf.isSome).mergeSort Spoken.asOfLe ++
    t.spoken.filter fun c => c.asOf.isNone).filter _ = _
  rw [List.filter_append, undated, List.append_nil, ← kept.eq_of_length length.symm, dated]

theorem commitments_undated (t : Item) :
    (commitments t).filter (fun c => c.asOf.isNone) = t.spoken.filter fun c => c.asOf.isNone := by
  have dated : ((t.spoken.filter fun c => c.asOf.isSome).mergeSort Spoken.asOfLe).filter
      (fun c => c.asOf.isNone) = [] := by
    refine List.filter_eq_nil_iff.mpr fun c member none_ => ?_
    have some_ := (List.mem_filter.mp (List.mem_mergeSort.mp member)).2
    rw [Option.isNone_iff_eq_none.mp none_] at some_
    cases some_
  change ((t.spoken.filter fun c => c.asOf.isSome).mergeSort Spoken.asOfLe ++
    t.spoken.filter fun c => c.asOf.isNone).filter _ = _
  rw [List.filter_append, dated, List.nil_append, List.filter_filter]
  exact List.filter_congr fun c _ => Bool.and_self _

/-- The loop over the spoken dates: the undated as given, and for each day the last of its dates. -/
theorem spokenEntries_spec (spoken : List Spoken) :
    (spokenEntries spoken).1 = (spoken.filter fun c => c.asOf.isNone).map Spoken.entry ∧
      ∀ day, (spokenEntries spoken).2.get day =
        ((spoken.filter fun c => c.asOf = some day).getLast?).map Spoken.entry := by
  induction spoken using List.reverseRecOn with
  | nil => exact ⟨rfl, fun _ => rfl⟩
  | append_singleton spoken c ih =>
      obtain ⟨undated, dated⟩ := ih
      rw [List.filter_append]
      cases asOf : c.asOf with
      | none =>
          have step : spokenEntries (spoken ++ [c]) =
              ((spokenEntries spoken).1 ++ [c.entry], (spokenEntries spoken).2) := by
            rw [spokenEntries, List.foldl_append, List.foldl_cons, List.foldl_nil, asOf]
            rfl
          rw [step]
          refine ⟨?_, fun day => ?_⟩
          · rw [List.filter_cons_of_pos (by rw [asOf]; rfl), undated, List.map_append]
            rfl
          · rw [List.filter_append, List.filter_cons_of_neg (by rw [asOf]; exact Bool.false_ne_true)]
            simpa using dated day
      | some on =>
          have step : spokenEntries (spoken ++ [c]) = ((spokenEntries spoken).1,
              (spokenEntries spoken).2.upsert on c.entry fun _ => c.entry) := by
            rw [spokenEntries, List.foldl_append, List.foldl_cons, List.foldl_nil, asOf]
            rfl
          rw [step]
          refine ⟨?_, fun day => ?_⟩
          · rw [List.filter_cons_of_neg (by rw [asOf]; exact Bool.false_ne_true)]
            simpa using undated
          · rw [List.filter_append]
            by_cases same : day = on
            · subst same
              rw [List.filter_cons_of_pos (by rw [asOf]; exact decide_eq_true rfl),
                Table.get_upsert_self]
              cases (spokenEntries spoken).2.get day <;> simp
            · rw [List.filter_cons_of_neg (by rw [asOf, decide_eq_true_eq]; exact fun h => same (Option.some.inj h).symm),
                Table.get_upsert_of_ne _ _ _ same]
              simpa using dated day

variable [PyRuntime]

/-- The end that the version of a day planned. -/
def plannedOn (key : PyStr) (versions : List (Int × Version)) (day : Int) : Option Int :=
  versions.findSome? fun v => if v.1 = day then versionEnd key v.2 else none

/-- A day without a spoken date has the end its version planned. -/
theorem get_byAsOf (key : PyStr) (versions : List (Int × Version)) (spoken : Table Int SlipEntry)
    (day : Int) : (byAsOf key versions spoken).get day =
      (spoken.get day).or ((plannedOn key versions day).map (plannedEntry day)) := by
  unfold byAsOf plannedOn
  induction versions generalizing spoken with
  | nil => simp
  | cons v versions ih =>
      rw [List.foldl_cons, ih, List.findSome?_cons]
      cases planned : versionEnd key v.2 with
      | none => simp
      | some date =>
          by_cases same : v.1 = day
          · subst same
            rw [Table.get_upsert_self]
            cases spoken.get v.1 <;> simp
          · rw [if_neg same, Table.get_upsert_of_ne _ _ _ (Ne.symm same)]

/-! ### The dates of a trail -/

/-- The date spoken last in the meeting of a day. -/
def spokenOn (t : Item) (day : Int) : Option Int :=
  ((t.spoken.filter fun c => c.asOf = some day).getLast?).map (·.date)

/-- The date attributed to the meeting of a day: the one spoken there, else the one planned. -/
def reportedOn (t : Dated) (versions : List (Int × Version)) (day : Int) : Option Int :=
  (spokenOn t.toItem day).or (plannedOn (slipKey t.name) versions day)

/-- The days of the meetings that a task or a version names, in order. -/
def meetingDays (t : Dated) (versions : List (Int × Version)) : List Int :=
  (t.spoken.filterMap (·.asOf) ++ versions.map Prod.fst).toFinset.sort (· ≤ ·)

/-- The dates attributed to a task: the undated spoken ones as given, those of the meetings in order,
    and the current end. -/
def attributed (t : Dated) (versions : List (Int × Version)) : List Int :=
  (t.spoken.filter fun c => c.asOf.isNone).map (·.date) ++
    (meetingDays t versions).filterMap (reportedOn t versions) ++ [t.finish]

variable {t : Dated} {versions : List (Int × Version)}

theorem reportedOn_mem {day : Int} (reported : (reportedOn t versions day).isSome) :
    day ∈ meetingDays t versions := by
  rw [meetingDays, Finset.mem_sort, List.mem_toFinset, List.mem_append]
  rw [reportedOn, Option.isSome_or, Bool.or_eq_true] at reported
  rcases reported with spoken | planned
  · rw [spokenOn, Option.isSome_map] at spoken
    obtain ⟨c, last⟩ := Option.isSome_iff_exists.mp spoken
    obtain ⟨member, said⟩ := List.mem_filter.mp (List.mem_of_getLast? last)
    exact Or.inl (List.mem_filterMap.mpr ⟨c, member, of_decide_eq_true said⟩)
  · obtain ⟨date, found⟩ := Option.isSome_iff_exists.mp planned
    obtain ⟨v, member, here⟩ := List.exists_of_findSome?_eq_some found
    split at here
    · next same => exact Or.inr (List.mem_map.mpr ⟨v, member, same⟩)
    · cases here

omit [PyRuntime] in
theorem meetingDays_pairwise : (meetingDays t versions).Pairwise (· < ·) :=
  (Finset.sortedLT_sort _).pairwise

/-- The table of the meetings holds the dates attributed to them. -/
theorem byAsOf_date (t : Dated) (versions : List (Int × Version)) (day : Int) :
    ((byAsOf (slipKey t.name) versions (spokenEntries (commitments t.toItem)).2).get day).map (·.date) =
      reportedOn t versions day := by
  have planned : (fun e : SlipEntry => e.date) ∘ plannedEntry day = id := rfl
  rw [get_byAsOf, (spokenEntries_spec _).2, commitments_on, reportedOn, spokenOn, Option.map_or,
    Option.map_map, Option.map_map, planned, Option.map_id_fun, id]
  rfl

/-- The merged sequence, collapsed, has the attributed dates, collapsed. -/
theorem slipSequence_dates (t : Dated) (versions : List (Int × Version)) :
    ((slipSequence t versions).map (·.date)).destutter (fun a b => b ≠ a) =
      (attributed t versions).destutter fun a b => b ≠ a := by
  have all_ : ∀ day, ((byAsOf (slipKey t.name) versions
      (spokenEntries (commitments t.toItem)).2).get day).isSome → day ∈ meetingDays t versions := by
    intro day some_
    apply reportedOn_mem
    rw [← byAsOf_date, Option.isSome_map]
    exact some_
  have earlier : ((spokenEntries (commitments t.toItem)).1 ++
      (byAsOf (slipKey t.name) versions (spokenEntries (commitments t.toItem)).2).inOrder.map
        Prod.snd).map (·.date) =
      (t.spoken.filter fun c => c.asOf.isNone).map (·.date) ++
        (meetingDays t versions).filterMap (reportedOn t versions) := by
    rw [List.map_append, (spokenEntries_spec _).1, commitments_undated, List.map_map,
      Table.inOrder_map_snd meetingDays_pairwise all_, List.map_filterMap]
    simp only [byAsOf_date]
    rfl
  unfold slipSequence attributed
  dsimp only
  rw [← earlier]
  split
  · next last =>
    obtain ⟨e, at_, same⟩ := (Option.any_eq_true _ _).mp last
    refine (destutter_append_last ?_).symm
    rw [List.getLast?_map, at_, ← of_decide_eq_true same]
    rfl
  · rw [List.map_append]
    rfl

/-- The dates of a trail are the attributed ones, collapsed. -/
theorem slipRow_trail (t : Dated) (versions : List (Int × Version)) :
    (slipRow t versions).trail.map (·.date) =
      (attributed t versions).destutter fun a b => b ≠ a := by
  rw [← slipSequence_dates]
  exact List.map_destutter fun _ _ _ _ => Iff.rfl

/-- A row depends on the versions only through what they planned for each day. -/
theorem slipRow_congr {versions' : List (Int × Version)}
    (same : ∀ day, plannedOn (slipKey t.name) versions day = plannedOn (slipKey t.name) versions' day) :
    slipRow t versions = slipRow t versions' := by
  have table : ∀ spoken : Table Int SlipEntry,
      (byAsOf (slipKey t.name) versions spoken).inOrder =
        (byAsOf (slipKey t.name) versions' spoken).inOrder := fun spoken =>
    Table.inOrder_congr fun day => by rw [get_byAsOf, get_byAsOf, same]
  have seq : slipSequence t versions = slipSequence t versions' := by
    unfold slipSequence
    simp only [table]
  unfold slipRow
  rw [seq]

/-! ### The versions -/

/-- With one version for each day, the end of a day is that of its version. -/
theorem plannedOn_eq_some {key : PyStr} (distinct : (versions.map Prod.fst).Nodup) {day date : Int} :
    plannedOn key versions day = some date ↔
      ∃ ver, (day, ver) ∈ versions ∧ versionEnd key ver = some date := by
  unfold plannedOn
  induction versions with
  | nil => simp
  | cons v versions ih =>
      rw [List.map_cons, List.nodup_cons] at distinct
      rw [List.findSome?_cons]
      by_cases same : v.1 = day
      · subst same
        have alone : ∀ ver, (v.1, ver) ∈ versions → False := fun ver member =>
          distinct.1 (List.mem_map.mpr ⟨_, member, rfl⟩)
        rw [if_pos rfl]
        cases planned : versionEnd key v.2 with
        | none =>
            rw [ih distinct.2]
            constructor
            · rintro ⟨ver, member, _⟩
              exact (alone ver member).elim
            · rintro ⟨ver, member, found⟩
              rcases List.mem_cons.mp member with here | later
              · rw [← congrArg Prod.snd here, found] at planned
                cases planned
              · exact (alone ver later).elim
        | some date' =>
            constructor
            · rintro found
              exact ⟨v.2, List.mem_cons_self, planned.trans found⟩
            · rintro ⟨ver, member, found⟩
              rcases List.mem_cons.mp member with here | later
              · rw [← congrArg Prod.snd here, found] at planned
                exact planned.symm
              · exact (alone ver later).elim
      · rw [if_neg same, ih distinct.2]
        refine exists_congr fun ver => and_congr_left fun _ => ?_
        rw [List.mem_cons]
        exact (or_iff_right fun here => same (congrArg Prod.fst here).symm).symm

omit [PyRuntime] in
theorem versionsBefore_days (history : List Version) (asOf : DateField) :
    ((versionsBefore history asOf).map Prod.fst).Sublist (history.filterMap (·.asOf.read)) := by
  have days : (history.filterMap fun ver => ver.asOf.read.map fun day => (day, ver)).map Prod.fst =
      history.filterMap (·.asOf.read) := by
    rw [List.map_filterMap]
    refine List.filterMap_congr fun ver _ => ?_
    cases ver.asOf.read <;> rfl
  rw [← days]
  exact List.filter_sublist.map _

/-- The order of the versions does not matter. -/
theorem computeSlip_perm {tasks : List Dated} {history history' : List Version} {asOf : DateField}
    (oneEach : (history.filterMap (·.asOf.read)).Nodup) (perm : history'.Perm history) :
    computeSlip tasks history' asOf = computeSlip tasks history asOf := by
  have before : (versionsBefore history' asOf).Perm (versionsBefore history asOf) :=
    (perm.filterMap _).filter _
  have distinct := oneEach.sublist (versionsBefore_days history asOf)
  have distinct' := ((before.map Prod.fst).nodup_iff).mpr distinct
  refine List.map_congr_left fun t _ => slipRow_congr fun day => Option.ext fun date => ?_
  rw [plannedOn_eq_some distinct, plannedOn_eq_some distinct']
  exact exists_congr fun ver => and_congr_left fun _ => before.mem_iff

/-- The version has a day before another. -/
def DatedBefore (cur : Int) (ver : Version) : Bool := ver.asOf.read.any fun day => day < cur

omit [PyRuntime] in
theorem versionsBefore_day (history : List Version) (cur : Int) :
    versionsBefore history (.day cur) = (history.filter (DatedBefore cur)).filterMap
      fun ver => ver.asOf.read.map fun day => (day, ver) := by
  rw [versionsBefore, List.filter_filterMap, List.filterMap_filter]
  refine List.filterMap_congr fun ver _ => ?_
  rw [DatedBefore]
  cases ver.asOf.read with
  | none => rfl
  | some day => rfl

/-! ### Only real moves -/

/-- A rule that pulls days onto working days. -/
structure SnapRule where
  snap : Int → Int
  works : ∀ d, isWorkday (snap d) = true
  fixes : ∀ d, isWorkday d = true → snap d = d

/-- A weekend end moves back to Friday. -/
def weekendEnd : SnapRule where
  snap := prevWorkday
  works := isWorkday_prevWorkday
  fixes d works := by
    unfold isWorkday weekday at works
    rw [decide_eq_true_eq] at works
    unfold prevWorkday weekday
    rw [if_neg (by omega), if_neg (by omega)]

/-- The trails show real moves alone: their dates change at every step, end with the current end and
    are counted, they depend neither on the order of the versions nor on those of this meeting or
    later, and they change at every step on working days too. -/
structure SlipIsReal (rule : SnapRule) (tasks : List Dated) (history : List Version)
    (asOf : DateField) : Prop where
  trails : ∀ row ∈ computeSlip tasks history asOf,
    (row.trail.map (·.date)).IsChain (· ≠ ·) ∧
      (row.trail.map (·.date)).getLast? = some row.task.finish ∧
      row.moves = row.trail.length - 1
  order : ∀ history', history'.Perm history →
    computeSlip tasks history' asOf = computeSlip tasks history asOf
  later : ∀ cur, asOf = .day cur → ∀ history',
    history'.filter (DatedBefore cur) = history.filter (DatedBefore cur) →
    computeSlip tasks history' asOf = computeSlip tasks history asOf
  snapped : ∀ row ∈ computeSlip tasks history asOf,
    (row.trail.map (·.date)).IsChain fun a b => rule.snap a ≠ rule.snap b

/-- With one version for each day, the trails show real moves alone exactly when, among the dates
    attributed to a task, no weekend day stands next to another day that the rule pulls onto the same
    working day. -/
theorem slipIsReal_iff (rule : SnapRule) (tasks : List Dated) (history : List Version)
    (asOf : DateField) (oneEach : (history.filterMap (·.asOf.read)).Nodup) :
    SlipIsReal rule tasks history asOf ↔ ∀ t ∈ tasks, t.kind ≠ .phase →
      (attributed t (versionsBefore history asOf)).IsChain fun a b =>
        a ≠ b → (isWorkday a = false ∨ isWorkday b = false) → rule.snap a ≠ rule.snap b := by
  have rows : ∀ {row}, row ∈ computeSlip tasks history asOf ↔
      ∃ t, (t ∈ tasks ∧ t.kind ≠ .phase) ∧ slipRow t (versionsBefore history asOf) = row := by
    intro row
    rw [computeSlip, List.mem_map]
    refine exists_congr fun t => and_congr_left fun _ => ?_
    rw [List.mem_filter, decide_eq_true_eq]
  have apart : ∀ a b, a ≠ b → (rule.snap a ≠ rule.snap b ↔
      ((isWorkday a = false ∨ isWorkday b = false) → rule.snap a ≠ rule.snap b)) := by
    intro a b differ
    refine ⟨fun away _ => away, fun weekend same => ?_⟩
    by_cases works : isWorkday a = true ∧ isWorkday b = true
    · rw [rule.fixes a works.1, rule.fixes b works.2] at same
      exact differ same
    · rw [not_and_or, Bool.not_eq_true, Bool.not_eq_true] at works
      exact weekend works same
  have snapped : ∀ t, ((slipRow t (versionsBefore history asOf)).trail.map (·.date)).IsChain
      (fun a b => rule.snap a ≠ rule.snap b) ↔
      (attributed t (versionsBefore history asOf)).IsChain fun a b =>
        a ≠ b → (isWorkday a = false ∨ isWorkday b = false) → rule.snap a ≠ rule.snap b := by
    intro t
    rw [slipRow_trail, isChain_destutter_iff]
    exact ⟨List.IsChain.imp fun a b away differ => (apart a b differ).mp (away differ),
      List.IsChain.imp fun a b away differ => (apart a b differ).mpr (away differ)⟩
  constructor
  · intro real t member isReal
    exact (snapped t).mp (real.snapped _ (rows.mpr ⟨t, ⟨member, isReal⟩, rfl⟩))
  · intro weekends
    refine ⟨?_, fun history' perm => computeSlip_perm oneEach perm, ?_, ?_⟩
    · intro row member
      obtain ⟨t, _, rfl⟩ := rows.mp member
      refine ⟨?_, ?_, rfl⟩
      · rw [slipRow_trail]
        exact (List.isChain_destutter _ _).imp fun _ _ => Ne.symm
      · rw [slipRow_trail, getLast?_destutter, attributed, List.getLast?_concat]
        rfl
    · rintro cur rfl history' same
      unfold computeSlip
      rw [versionsBefore_day, versionsBefore_day, same]
    · intro row member
      obtain ⟨t, ⟨among, isReal⟩, rfl⟩ := rows.mp member
      exact (snapped t).mpr (weekends t among isReal)

omit [PyRuntime] in
/-- A task that an earlier version planned a week sooner. -/
theorem slipIsReal_iff_slipped :
    letI := PyRuntime.ascii
    SlipIsReal weekendEnd (scheduled [.sketch 1 .task none 0 11 []])
        [⟨.day 0, [.sketch 1 .task none 0 4 []]⟩] (.day 7) ↔
      ∀ t ∈ scheduled [.sketch 1 .task none 0 11 []], t.kind ≠ .phase →
        (attributed t (versionsBefore [⟨.day 0, [.sketch 1 .task none 0 4 []]⟩] (.day 7))).IsChain
          fun a b => a ≠ b → (isWorkday a = false ∨ isWorkday b = false) →
            weekendEnd.snap a ≠ weekendEnd.snap b :=
  letI := PyRuntime.ascii
  slipIsReal_iff weekendEnd _ _ _ (by decide)

omit [PyRuntime] in
/-- A task due on a Saturday, as somebody said: its end is drawn on the Friday, and the spoken
    Saturday shows as a move. -/
theorem spoken_saturday_is_a_move :
    letI := PyRuntime.ascii
    ¬SlipIsReal weekendEnd
      (scheduled [{ Item.sketch 1 .task none 0 5 [] with
        commitments := [⟨.day 5, .day 0, [], [], []⟩] }]) [] .absent := by
  let _ := PyRuntime.ascii
  intro real
  have trail : ∃ row ∈ computeSlip (scheduled [{ Item.sketch 1 .task none 0 5 [] with
      commitments := [⟨.day 5, .day 0, [], [], []⟩] }]) [] .absent,
      row.trail.map (·.date) = [5, 4] := by
    decide +kernel
  obtain ⟨row, member, dates⟩ := trail
  have moves := real.snapped row member
  rw [dates, List.isChain_cons_cons] at moves
  exact moves.1 (by decide)

end GhostPour.Documents
