/-
Module: GhostPour.Documents.Proofs.PlanHistory
Layer: Proofs
Purpose: The history of a project holds the latest build of every day, oldest first, exactly while the
  project has at most a hundred builds: the query cuts the rows off before they are collapsed, and what
  it cuts off is the newest. Builds dated with the empty text are left out: the query sorts them first.
Trusted boundary: none
Main exports: Latest, Complete, Calls, foldl_collapse, latest_iff, history_complete_iff,
  a_hundred_and_one_builds
-/
import GhostPour.Documents.PlanSnapshots

namespace GhostPour

namespace Documents.PlanSnapshots

/-! ### What a history is to hold -/

/-- The last row recorded for its day. -/
def Latest (rows : List Snapshot) (r : Snapshot) : Prop :=
  ∃ before after, rows = before ++ r :: after ∧ ∀ x ∈ after, asOf x ≠ asOf r

/-- The version a row gives. -/
def versionOf (r : Snapshot) : Option PlanVersion := r.tasks.map fun tasks => ⟨asOf r, r.createdAt, tasks⟩

/-- Oldest first, one version for each day of the rows: the latest build recorded for it. -/
def Complete (rows : List Snapshot) (versions : List PlanVersion) : Prop :=
  (versions.map PlanVersion.asOf).Pairwise (· < ·) ∧
    ∀ v, v ∈ versions ↔ ∃ r, Latest rows r ∧ versionOf r = some v

theorem Latest.mem {rows : List Snapshot} {r : Snapshot} (latest : Latest rows r) : r ∈ rows := by
  obtain ⟨before, after, rfl, _⟩ := latest
  exact List.mem_append_right before (List.mem_cons_self ..)

theorem latest_concat {rows : List Snapshot} {x r : Snapshot} :
    Latest (rows ++ [x]) r ↔ r = x ∨ Latest rows r ∧ asOf r ≠ asOf x := by
  constructor
  · rintro ⟨before, after, split, last⟩
    rcases List.eq_nil_or_concat after with rfl | ⟨after, y, rfl⟩
    · exact .inl (List.append_inj_right' split rfl |> List.cons.inj |>.1.symm)
    · rw [List.concat_eq_append] at split last
      rw [← List.cons_append, ← List.append_assoc] at split
      obtain ⟨rfl, same⟩ := List.append_inj' split rfl
      obtain rfl := (List.cons.inj same).1
      refine .inr ⟨⟨before, after, rfl, fun z member => last z (List.mem_append_left _ member)⟩, ?_⟩
      exact (last x (List.mem_append_right after (List.mem_singleton_self x))).symm
  · rintro (rfl | ⟨⟨before, after, rfl, last⟩, other⟩)
    · exact ⟨rows, [], rfl, nofun⟩
    · refine ⟨before, after ++ [x], List.append_assoc .., ?_⟩
      exact List.forall_mem_append.mpr ⟨last, List.forall_mem_singleton.mpr other.symm⟩

/-- Among rows recorded one after the other, the latest of a day is the one made last. -/
theorem latest_iff {rows : List Snapshot}
    (forward : rows.Pairwise fun a b => asOf a = asOf b → a.createdAt < b.createdAt) (r : Snapshot) :
    Latest rows r ↔ r ∈ rows ∧ ∀ x ∈ rows, asOf x = asOf r → x.createdAt ≤ r.createdAt := by
  constructor
  · intro latest
    refine ⟨latest.mem, fun x member same => ?_⟩
    obtain ⟨before, after, rfl, last⟩ := latest
    rcases List.mem_append.mp member with earlier | here
    · exact ((List.pairwise_append.mp forward).2.2 x earlier r (List.mem_cons_self ..) same).le
    · rcases List.mem_cons.mp here with rfl | later
      · exact le_rfl
      · exact absurd same (last x later)
  · rintro ⟨member, newest⟩
    obtain ⟨before, after, rfl⟩ := List.append_of_mem member
    refine ⟨before, after, rfl, fun x later same => ?_⟩
    have behind := (List.pairwise_cons.mp (List.pairwise_append.mp forward).2.1).1 x later same.symm
    exact absurd (newest x (List.mem_append_right before (List.mem_cons_of_mem r later)) same)
      (not_le.mpr behind)

/-! ### The dict -/

/-- Rows in the order of their days give the dict one entry for each, the last. -/
theorem foldl_collapse (rows : List Snapshot) (sorted : rows.Pairwise fun a b => asOf a ≤ asOf b)
    (loaded : ∀ r ∈ rows, r.tasks.isSome = true) :
    ((rows.foldl collapse []).map Prod.fst).Pairwise (· < ·) ∧
      ∀ k v, (rows.foldl collapse []).get k = some v ↔
        ∃ r, Latest rows r ∧ k = asOf r ∧ versionOf r = some v := by
  induction rows using List.reverseRecOn with
  | nil =>
      refine ⟨.nil, fun k v => iff_of_false (fun found => by cases found) ?_⟩
      rintro ⟨r, latest, _⟩
      cases latest.mem
  | append_singleton rows x ih =>
      rw [List.pairwise_append] at sorted
      rw [List.forall_mem_append] at loaded
      obtain ⟨keys, entries⟩ := ih sorted.1 loaded.1
      obtain ⟨tasks, read⟩ := Option.isSome_iff_exists.mp (loaded.2 x (List.mem_singleton_self x))
      have step : (rows ++ [x]).foldl collapse [] =
          (rows.foldl collapse []).set (asOf x) ⟨asOf x, x.createdAt, tasks⟩ := by
        rw [List.foldl_append, List.foldl_cons, List.foldl_nil, collapse, read]
      have version : versionOf x = some ⟨asOf x, x.createdAt, tasks⟩ := by rw [versionOf, read]; rfl
      have distinct : ((rows.foldl collapse []).map Prod.fst).Nodup :=
        keys.imp fun less => ne_of_lt less
      rw [step]
      constructor
      · rw [Assoc.keys_set]
        split
        · exact keys
        · next fresh =>
          refine List.pairwise_append.mpr ⟨keys, List.pairwise_singleton _ _, fun k old y new => ?_⟩
          obtain rfl := List.mem_singleton.mp new
          -- the days so far are not after this one, and it is not among them
          obtain ⟨⟨_, v⟩, member, rfl⟩ := List.mem_map.mp old
          obtain ⟨r, latest, same, _⟩ := (entries _ v).mp (Assoc.get_of_mem distinct member)
          refine lt_of_le_of_ne ?_ fun equal => fresh (equal ▸ old)
          rw [same]
          exact sorted.2.2 r latest.mem x (List.mem_singleton_self x)
      · intro k v
        rw [Assoc.get_set]
        split
        · next here =>
          constructor
          · intro same
            exact ⟨x, latest_concat.mpr (.inl rfl), here.symm, version.trans same⟩
          · rintro ⟨r, latest, same, read'⟩
            rcases latest_concat.mp latest with rfl | ⟨_, other⟩
            · exact version.symm.trans read'
            · exact absurd (same.symm.trans here.symm) other
        · next elsewhere =>
          rw [entries]
          constructor
          · rintro ⟨r, latest, same, read'⟩
            refine ⟨r, latest_concat.mpr (.inr ⟨latest, ?_⟩), same, read'⟩
            exact fun equal => elsewhere (equal.symm.trans same.symm)
          · rintro ⟨r, latest, same, read'⟩
            rcases latest_concat.mp latest with rfl | ⟨latest, _⟩
            · exact absurd same.symm elsewhere
            · exact ⟨r, latest, same, read'⟩

/-- The versions of rows in the order of their days are complete for these rows. -/
theorem complete_collapse (rows : List Snapshot) (sorted : rows.Pairwise fun a b => asOf a ≤ asOf b)
    (loaded : ∀ r ∈ rows, r.tasks.isSome = true) : Complete rows (rows.foldl collapse []).values := by
  obtain ⟨keys, entries⟩ := foldl_collapse rows sorted loaded
  have distinct : ((rows.foldl collapse []).map Prod.fst).Nodup := keys.imp fun less => ne_of_lt less
  have named : ∀ k v, (k, v) ∈ rows.foldl collapse [] → v.asOf = k := by
    intro k v member
    obtain ⟨r, _, rfl, read⟩ := (entries k v).mp (Assoc.get_of_mem distinct member)
    rw [versionOf, Option.map_eq_some_iff] at read
    obtain ⟨tasks, _, rfl⟩ := read
    rfl
  constructor
  · have same : ((rows.foldl collapse []).values.map PlanVersion.asOf) = (rows.foldl collapse []).map Prod.fst := by
      rw [Assoc.values, List.map_map]
      exact List.map_congr_left fun entry member => named entry.1 entry.2 member
    rw [same]
    exact keys
  · intro v
    constructor
    · intro member
      obtain ⟨⟨k, value⟩, listed, rfl⟩ := List.mem_map.mp member
      obtain ⟨r, latest, _, read⟩ := (entries k value).mp (Assoc.get_of_mem distinct listed)
      exact ⟨r, latest, read⟩
    · rintro ⟨r, latest, read⟩
      exact List.mem_map_of_mem (Assoc.mem_of_get ((entries (asOf r) v).mpr ⟨r, latest, rfl, read⟩))

/-! ### The query -/

theorem byQuery_iff (r s : Snapshot) : byQuery r s = true ↔
    r.sortDate < s.sortDate ∨ r.sortDate = s.sortDate ∧ r.createdAt ≤ s.createdAt := by
  rw [byQuery, Bool.or_eq_true, Bool.and_eq_true, decide_eq_true_eq, decide_eq_true_eq, beq_iff_eq]

theorem byQuery_trans (r s t : Snapshot) (one : byQuery r s = true) (two : byQuery s t = true) :
    byQuery r t = true := by
  rw [byQuery_iff] at one two ⊢
  rcases one with less | ⟨same, le⟩ <;> rcases two with less' | ⟨same', le'⟩
  · exact .inl (less.trans less')
  · exact .inl (same' ▸ less)
  · exact .inl (same ▸ less')
  · exact .inr ⟨same.trans same', le.trans le'⟩

theorem byQuery_total (r s : Snapshot) : (byQuery r s || byQuery s r) = true := by
  rw [Bool.or_eq_true, byQuery_iff, byQuery_iff]
  rcases lt_trichotomy r.sortDate s.sortDate with less | same | more
  · exact .inl (.inl less)
  · rcases le_total r.createdAt s.createdAt with le | le
    · exact .inl (.inr ⟨same, le⟩)
    · exact .inr (.inr ⟨same.symm, le⟩)
  · exact .inr (.inl more)

/-- But for the empty text, the query sorts by the day a version is of. -/
theorem sortDate_eq {r : Snapshot} (dated : r.meetingDate ≠ some []) : r.sortDate = asOf r := by
  rw [Snapshot.sortDate, asOf]
  cases meeting : r.meetingDate with
  | none => rfl
  | some date =>
      rw [meeting] at dated
      cases date with
      | nil => exact absurd rfl dated
      | cons c date => rfl

section
variable {rows : List Snapshot} (forward : rows.Pairwise fun a b => a.createdAt < b.createdAt)
  (dated : ∀ r ∈ rows, r.meetingDate ≠ some []) (loaded : ∀ r ∈ rows, r.tasks.isSome = true)
include forward dated

/-- The query's order: by day, and within a day as recorded. -/
theorem query_sorted : (rows.mergeSort byQuery).Pairwise fun a b =>
    asOf a ≤ asOf b ∧ (asOf a = asOf b → a.createdAt < b.createdAt) := by
  have sorted := List.pairwise_mergeSort byQuery_trans byQuery_total rows
  have different : (rows.mergeSort byQuery).Pairwise fun a b => a.createdAt ≠ b.createdAt :=
    ((List.mergeSort_perm rows byQuery).pairwise_iff fun other => other.symm).mpr
      (forward.imp fun less => ne_of_lt less)
  refine (sorted.and different).imp_of_mem fun {a b} inA inB both => ?_
  have ordered := (byQuery_iff a b).mp both.1
  rw [sortDate_eq (dated a (List.mem_mergeSort.mp inA)), sortDate_eq (dated b (List.mem_mergeSort.mp inB))] at ordered
  rcases ordered with less | ⟨same, le⟩
  · exact ⟨less.le, fun same => absurd same (ne_of_lt less)⟩
  · exact ⟨same.le, fun _ => lt_of_le_of_ne le both.2⟩

/-- Sorting changes no day's latest build. -/
theorem latest_query (r : Snapshot) : Latest (rows.mergeSort byQuery) r ↔ Latest rows r := by
  have recorded : rows.Pairwise fun a b => asOf a = asOf b → a.createdAt < b.createdAt := by
    apply forward.imp
    intro a b less _
    exact less
  rw [latest_iff ((query_sorted forward dated).imp fun both => both.2), latest_iff recorded]
  simp only [List.mem_mergeSort]

include loaded

theorem complete_of_few (few : rows.length ≤ 100) :
    Complete rows (((rows.mergeSort byQuery).take 100).foldl collapse []).values := by
  have all : (rows.mergeSort byQuery).take 100 = rows.mergeSort byQuery :=
    List.take_of_length_le (by rw [List.length_mergeSort]; exact few)
  obtain ⟨order, versions⟩ := complete_collapse (rows.mergeSort byQuery)
    ((query_sorted forward dated).imp fun both => both.1)
    (fun r member => loaded r (List.mem_mergeSort.mp member))
  rw [all]
  refine ⟨order, fun v => (versions v).trans ?_⟩
  simp only [latest_query forward dated]

/-- With more rows, the latest build of the newest day is cut off. -/
theorem not_complete_of_many (many : 100 < rows.length) :
    ¬Complete rows (((rows.mergeSort byQuery).take 100).foldl collapse []).values := by
  rintro ⟨_, versions⟩
  have sorted := query_sorted forward dated
  have inRows : ∀ r ∈ rows.mergeSort byQuery, r ∈ rows := fun r member => List.mem_mergeSort.mp member
  have latest := latest_query forward dated
  have length : 100 < (rows.mergeSort byQuery).length := by
    rw [List.length_mergeSort]
    exact many
  generalize rows.mergeSort byQuery = query at *
  obtain rfl | ⟨front, z, rfl⟩ := List.eq_nil_or_concat' query
  · cases length
  · rw [List.length_append, List.length_singleton] at length
    have cut : (front ++ [z]).take 100 = front.take 100 :=
      List.take_append_of_le_length (by omega)
    have newest : Latest rows z := (latest z).mp ⟨front, [], rfl, nofun⟩
    obtain ⟨tasks, read⟩ := Option.isSome_iff_exists.mp (loaded z newest.mem)
    have version : versionOf z = some ⟨asOf z, z.createdAt, tasks⟩ := by rw [versionOf, read]; rfl
    have inFront : ∀ r ∈ front.take 100, r ∈ front ++ [z] := fun r member =>
      List.mem_append_left _ (List.mem_of_mem_take member)
    rw [List.pairwise_append] at sorted
    have few := complete_collapse (front.take 100)
      ((sorted.1.sublist (List.take_sublist 100 front)).imp fun both => both.1)
      (fun r member => loaded r (inRows r (inFront r member)))
    rw [cut] at versions
    obtain ⟨r, kept, read'⟩ := (few.2 _).mp ((versions _).mpr ⟨z, newest, version⟩)
    rw [versionOf, Option.map_eq_some_iff] at read'
    obtain ⟨_, _, same⟩ := read'
    have earlier := (sorted.2.2 r (List.mem_of_mem_take kept.mem) z (List.mem_singleton_self z)).2
      (congrArg PlanVersion.asOf same)
    exact absurd (congrArg PlanVersion.createdAt same) (ne_of_lt earlier)

end

/-! ### Runs -/

/-- A sequence of recordings on a clock that moves forward, within the years a date has. -/
structure Calls where
  items : List Call
  forward : items.Pairwise fun a b => a.now < b.now
  inYears : ∀ c ∈ items, (DateTime.ofInstant c.now).Dated

section
variable [PyRuntime]

/-- The row a call adds. -/
def rowOf (c : Call) : Snapshot where
  userId := c.userId
  projectId := c.projectId
  meetingDate := c.meetingDate
  tasks := some (if c.tasks.truthy then c.tasks else .arr [])
  createdAt := (DateTime.ofInstant c.now).isoformat

theorem run_eq (calls : List Call) : run calls = calls.map rowOf := by
  have from_ : ∀ db, calls.foldl record db = db ++ calls.map rowOf := by
    induction calls with
    | nil => exact fun db => (List.append_nil db).symm
    | cons c calls ih =>
        intro db
        rw [List.foldl_cons, ih, List.map_cons, record, List.append_assoc]
        rfl
  exact from_ []

theorem run_forward (calls : Calls) : (run calls.items).Pairwise fun a b => a.createdAt < b.createdAt := by
  rw [run_eq, List.pairwise_map]
  refine calls.forward.imp_of_mem fun {a b} inA inB earlier => ?_
  exact (DateTime.isoformat_lt_iff (calls.inYears a inA) (calls.inYears b inB)).mpr earlier

theorem run_loaded (calls : List Call) : ∀ r ∈ run calls, r.tasks.isSome = true := by
  rw [run_eq]
  intro r member
  obtain ⟨c, _, rfl⟩ := List.mem_map.mp member
  rfl

omit [PyRuntime] in
theorem history_eq {projectId : PyStr} (named : projectId ≠ []) (db : List Snapshot) (userId : PyStr) :
    history db userId (some projectId) =
      ((((rowsOf userId projectId db).mergeSort byQuery).take 100).foldl collapse []).values := by
  have runs : ¬projectId.isEmpty = true := mt List.isEmpty_iff.mp named
  exact if_neg runs

/-- After any sequence of recordings, the history of a project is complete if and only if the project
has at most a hundred builds, none of them being dated with the empty text. -/
theorem history_complete_iff (calls : Calls) (userId projectId : PyStr) (named : projectId ≠ [])
    (dated : ∀ r ∈ rowsOf userId projectId (run calls.items), r.meetingDate ≠ some []) :
    Complete (rowsOf userId projectId (run calls.items))
        (history (run calls.items) userId (some projectId)) ↔
      (rowsOf userId projectId (run calls.items)).length ≤ 100 := by
  have forward := (run_forward calls).sublist (List.filter_sublist (l := run calls.items)
    (p := fun r => r.userId == userId && r.projectId == some projectId))
  have loaded : ∀ r ∈ rowsOf userId projectId (run calls.items), r.tasks.isSome = true := fun r member =>
    run_loaded calls.items r (List.mem_of_mem_filter member)
  rw [history_eq named]
  constructor
  · intro complete
    by_contra many
    exact not_complete_of_many forward dated loaded (not_le.mp many) complete
  · exact complete_of_few forward dated loaded

end

/-- So many builds of the plan of one meeting, a microsecond apart. -/
def rebuilds (n : Nat) (small : n ≤ 1000) : Calls where
  items := (List.range n).map fun i => ⟨py "u", some (py "p"), some (py "2026-07-21"), .arr [], i⟩
  forward := by
    rw [List.pairwise_map]
    exact List.pairwise_lt_range
  inYears := by
    intro c member
    obtain ⟨i, inRange, rfl⟩ := List.mem_map.mp member
    have first : (DateTime.ofInstant 1000).Dated := by decide
    exact first.of_le ((List.mem_range.mp inRange).le.trans small)

theorem rowsOf_rebuilds [PyRuntime] (n : Nat) (small : n ≤ 1000) :
    (rowsOf (py "u") (py "p") (run (rebuilds n small).items)).length = n ∧
      ∀ r ∈ rowsOf (py "u") (py "p") (run (rebuilds n small).items), r.meetingDate ≠ some [] := by
  have all : rowsOf (py "u") (py "p") (run (rebuilds n small).items) = run (rebuilds n small).items := by
    rw [rowsOf, List.filter_eq_self, run_eq]
    intro r member
    obtain ⟨c, inCalls, rfl⟩ := List.mem_map.mp member
    obtain ⟨i, _, rfl⟩ := List.mem_map.mp inCalls
    rfl
  rw [all, run_eq]
  refine ⟨by rw [List.length_map, rebuilds, List.length_map, List.length_range], fun r member => ?_⟩
  obtain ⟨c, inCalls, rfl⟩ := List.mem_map.mp member
  obtain ⟨i, _, rfl⟩ := List.mem_map.mp inCalls
  exact fun same => List.cons_ne_nil _ _ (Option.some.inj same)

theorem history_complete_after_two : letI := PyRuntime.ascii
    Complete (rowsOf (py "u") (py "p") (run (rebuilds 2 (by decide)).items))
      (history (run (rebuilds 2 (by decide)).items) (py "u") (some (py "p"))) := by
  let _ := PyRuntime.ascii
  have rows := rowsOf_rebuilds 2 (by decide)
  exact (history_complete_iff (rebuilds 2 (by decide)) (py "u") (py "p") (by decide) rows.2).mpr
    (by rw [rows.1]; decide)

/-- The hundred and first build of a plan does not show in its history. -/
theorem a_hundred_and_one_builds : letI := PyRuntime.ascii
    ¬Complete (rowsOf (py "u") (py "p") (run (rebuilds 101 (by decide)).items))
      (history (run (rebuilds 101 (by decide)).items) (py "u") (some (py "p"))) := by
  let _ := PyRuntime.ascii
  have rows := rowsOf_rebuilds 101 (by decide)
  have forward := (run_forward (rebuilds 101 (by decide))).sublist
    (List.filter_sublist (l := run (rebuilds 101 (by decide)).items)
      (p := fun r => r.userId == py "u" && r.projectId == some (py "p")))
  have loaded : ∀ r ∈ rowsOf (py "u") (py "p") (run (rebuilds 101 (by decide)).items),
      r.tasks.isSome = true := fun r member => run_loaded _ r (List.mem_of_mem_filter member)
  rw [history_eq (by decide)]
  exact not_complete_of_many forward rows.2 loaded (by rw [rows.1]; decide)

end Documents.PlanSnapshots

end GhostPour
