/-
Module: GhostPour.Generations.Proofs.StagingCap
Layer: Proofs
Purpose: What a call of `stage` leaves below the cap, keeps of the files that were not acked, and refuses.
  The purge takes an initial part of the acked files that are still stored, and counts each of them whether
  it was live or not; the cap counts live files alone.
Trusted boundary: none
Main exports: StagingStore.Sound, sound_of_reachable, ackedStored, purgeWalk_takes, StageCall.makeRoom_takes,
  StagedRightly, FreesWhatCounts, stage_rightly_iff, stage_rightly_first, expired_file_counted_as_freed
-/
import GhostPour.Generations.StagedFiles

namespace GhostPour.Generations

/-! ### Every file stands in one place -/

/-- No turn lists a file twice, no two turns list one file, and what a request holds no turn lists. -/
structure StagingStore.Sound (s : StagingStore) : Prop where
  once : ∀ r ∈ s.turns.rows, r.2.files.Nodup
  apart : ∀ r ∈ s.turns.rows, ∀ r' ∈ s.turns.rows, ∀ fid, fid ∈ r.2.files → fid ∈ r'.2.files →
    r.1 = r'.1
  notHeld : ∀ r ∈ s.turns.rows, ∀ h ∈ s.held, h.2 ∉ r.2.files

namespace StagingStore.Sound

variable {s s' : StagingStore}

/-- A step keeps the invariant when the files of each turn after it are none, or those of one turn
before. -/
theorem of_rows (sound : s.Sound) (origin : (PyStr × PyStr) → PyStr × PyStr)
    (rows : ∀ r' ∈ s'.turns.rows, r'.2.files = [] ∨
      ∃ r ∈ s.turns.rows, r'.1 = origin r.1 ∧ r'.2.files = r.2.files)
    (held : ∀ h ∈ s'.held, h ∈ s.held ∨ ∀ r ∈ s.turns.rows, h.2 ∉ r.2.files) : s'.Sound where
  once := by
    intro r' member'
    rcases rows r' member' with none | ⟨r, member, _, same⟩
    · rw [none]
      exact List.nodup_nil
    · rw [same]
      exact sound.once r member
  apart := by
    intro one memberOne two memberTwo fid listedOne listedTwo
    rcases rows one memberOne with none | ⟨r, member, key, same⟩
    · rw [none] at listedOne
      cases listedOne
    · rcases rows two memberTwo with none | ⟨r', member', key', same'⟩
      · rw [none] at listedTwo
        cases listedTwo
      · rw [same] at listedOne
        rw [same'] at listedTwo
        rw [key, key', sound.apart r member r' member' fid listedOne listedTwo]
  notHeld := by
    intro r' member' h holds listed
    rcases rows r' member' with none | ⟨r, member, _, same⟩
    · rw [none] at listed
      cases listed
    · rw [same] at listed
      rcases held h holds with old | new
      · exact sound.notHeld r member h old listed
      · exact new r member listed

/-- The same for a step that changes no key. -/
theorem of_subset (sound : s.Sound)
    (rows : ∀ r' ∈ s'.turns.rows, r'.2.files = [] ∨
      ∃ r ∈ s.turns.rows, r'.1 = r.1 ∧ r'.2.files = r.2.files)
    (held : s'.held = s.held) : s'.Sound :=
  sound.of_rows id rows fun _ member => Or.inl (held ▸ member)

end StagingStore.Sound

/-- An update that leaves the lists of files leaves each row its list. -/
theorem files_updateWhere {turns : Turns} {p : (PyStr × PyStr) → TurnRow → Bool}
    {f : TurnRow → TurnRow} {r' : (PyStr × PyStr) × TurnRow}
    (member : r' ∈ (turns.updateWhere p f).rows) (same : ∀ row, (f row).files = row.files) :
    r'.2.files = [] ∨ ∃ r ∈ turns.rows, r'.1 = r.1 ∧ r'.2.files = r.2.files := by
  obtain ⟨r, old, rfl⟩ := List.mem_map.mp member
  refine Or.inr ⟨r, old, Table.updateRow_fst p f r, ?_⟩
  unfold Table.updateRow
  by_cases here : p r.1 r.2 = true
  · rw [if_pos here]
    exact same r.2
  · rw [if_neg here]

theorem files_deleteWhere {turns : Turns} {p : (PyStr × PyStr) → TurnRow → Bool}
    {r' : (PyStr × PyStr) × TurnRow} (member : r' ∈ (turns.deleteWhere p).rows) :
    r'.2.files = [] ∨ ∃ r ∈ turns.rows, r'.1 = r.1 ∧ r'.2.files = r.2.files :=
  Or.inr ⟨r', List.mem_of_mem_filter member, rfl, rfl⟩

/-- A row after an upsert is the one upserted, or an old one of another key. -/
theorem mem_upsert {turns : Turns} {key : PyStr × PyStr} {new : TurnRow} {f : TurnRow → TurnRow}
    {r : (PyStr × PyStr) × TurnRow} (member : r ∈ (turns.upsert key new f).rows) :
    (r.1 = key ∧ r.2 = ((turns.get key).map f).getD new) ∨ (r ∈ turns.rows ∧ r.1 ≠ key) := by
  have stored := Table.get_of_mem member
  by_cases here : r.1 = key
  · rw [here, Table.get_upsert_self] at stored
    exact Or.inl ⟨here, (Option.some.inj stored).symm⟩
  · rw [Table.get_upsert_of_ne turns new f here] at stored
    exact Or.inr ⟨Table.mem_of_get stored, here⟩

namespace StagingStore.Sound

variable {s : StagingStore}

theorem stage (sound : s.Sound) {call : StageCall} (fresh : s.Fresh call.fileId) :
    (s.stage call).Sound := by
  refine sound.of_rows id (fun r member => Or.inr ⟨r, member, rfl, rfl⟩) ?_
  intro h member
  change h ∈ (if call.refused s.files then s.held else _) at member
  by_cases refused : call.refused s.files = true
  · rw [if_pos refused] at member
    exact Or.inl member
  · rw [if_neg refused] at member
    rcases List.mem_cons.mp member with rfl | old
    · exact Or.inr fresh.2.2
    · exact Or.inl old

theorem recordStart (sound : s.Sound) (user : PyStr) (app : Option PyStr) (generationId : PyStr) :
    (s.recordStart user app generationId).Sound := by
  refine sound.of_subset ?_ rfl
  intro r member
  rcases mem_upsert member with ⟨_, new⟩ | ⟨old, _⟩
  · apply Or.inl
    rw [new]
    cases s.turns.get (generationId, user) <;> rfl
  · exact Or.inr ⟨r, old, rfl, rfl⟩

/-- A turn that ends takes over files that its requests held. -/
theorem finish (sound : s.Sound) (user : PyStr) (app : Option PyStr) (generationId : PyStr)
    (done : Bool) {files : List PyStr} (distinct : files.Nodup)
    (held : ∀ fid ∈ files, (user, fid) ∈ s.held) :
    (s.finish user app generationId done files).Sound := by
  have rows : ∀ r ∈ (s.finish user app generationId done files).turns.rows,
      (r.1 = (generationId, user) ∧ r.2.files = files) ∨
        (r ∈ s.turns.rows ∧ r.1 ≠ (generationId, user)) := by
    intro r member
    rcases mem_upsert member with ⟨here, new⟩ | old
    · refine Or.inl ⟨here, ?_⟩
      rw [new]
      cases s.turns.get (generationId, user) <;> rfl
    · exact Or.inr old
  -- An old turn lists none of the files taken over.
  have other : ∀ r ∈ s.turns.rows, ∀ fid ∈ files, fid ∉ r.2.files := fun r member fid taken =>
    sound.notHeld r member (user, fid) (held fid taken)
  constructor
  · intro r member
    rcases rows r member with ⟨_, new⟩ | ⟨old, _⟩
    · rw [new]
      exact distinct
    · exact sound.once r old
  · intro r member r' member' fid listed listed'
    rcases rows r member with ⟨here, new⟩ | ⟨old, _⟩
    · rcases rows r' member' with ⟨here', _⟩ | ⟨old', _⟩
      · rw [here, here']
      · rw [new] at listed
        exact absurd listed' (other r' old' fid listed)
    · rcases rows r' member' with ⟨_, new'⟩ | ⟨old', _⟩
      · rw [new'] at listed'
        exact absurd listed (other r old fid listed')
      · exact sound.apart r old r' old' fid listed listed'
  · intro r member h holds listed
    obtain ⟨holds, notTaken⟩ := List.mem_filter.mp holds
    rcases rows r member with ⟨_, new⟩ | ⟨old, _⟩
    · rw [new] at listed
      simp [listed] at notTaken
    · exact sound.notHeld r old h holds listed

theorem step (sound : s.Sound) {a : StagingAction} {s' : StagingStore}
    (step : stagingMachine.step a s = some s') : s'.Sound := by
  have keep : ∀ {next : StagingStore}, next.turns = s.turns → next.held = s.held → next.Sound := by
    intro next turns held
    exact sound.of_subset (fun r member => Or.inr ⟨r, turns ▸ member, rfl, rfl⟩) held
  cases a with
  | tick now =>
      obtain ⟨_, same⟩ := Option.ite_none_right_eq_some.mp step
      cases same
      exact keep rfl rfl
  | stage call =>
      obtain ⟨admits, same⟩ := Option.ite_none_right_eq_some.mp step
      cases same
      exact sound.stage admits.1
  | recordStart user app generationId =>
      cases step
      exact sound.recordStart user app generationId
  | finish user app generationId done files =>
      obtain ⟨⟨distinct, held⟩, same⟩ := Option.ite_none_right_eq_some.mp step
      cases same
      exact sound.finish user app generationId done distinct held
  | extendExpiry n =>
      obtain ⟨_, _, rfl⟩ := Option.map_eq_some_iff.mp step
      exact keep rfl rfl
  | ack user generationId =>
      cases step
      exact sound.of_subset (fun r member => files_updateWhere member fun _ => rfl) rfl
  | purgeFiles =>
      cases step
      exact keep rfl rfl
  | purgeTurns =>
      cases step
      exact sound.of_subset (fun r member => files_deleteWhere member) rfl
  | sweepLostToRestart =>
      cases step
      exact sound.of_subset (fun r member => files_updateWhere member fun _ => rfl) rfl
  | merge anon apple =>
      cases step
      refine sound.of_rows (mergedKey s.turns anon apple) ?_ fun _ member => Or.inl member
      intro r' member
      obtain ⟨r, old, rfl⟩ := List.mem_map.mp member
      exact Or.inr ⟨r, old, rfl, rfl⟩
  | deleteUserData user app =>
      cases step
      exact sound.of_subset (fun r member => files_deleteWhere member) rfl

end StagingStore.Sound

theorem sound_of_reachable {s : StagingStore} (reachable : s.Reachable) : s.Sound := by
  obtain ⟨began, actions, run⟩ := reachable
  refine Machine.run_invariant (fun _ _ _ sound => sound.step) ?_ run
  constructor
  · intro r member
    cases member
  · intro r member
    cases member
  · intro r member
    cases member

/-! ### What the purge takes -/

/-- The acked files that the purge finds, in its order: the ids of rows that are still stored and the
user's. -/
def ackedStored (user : PyStr) (files : StagedFiles) (ids : List PyStr) : List (PyStr × FileRow) :=
  ids.filterMap fun fid => ((files.get fid).filter fun row => row.userId = user).map fun row => (fid, row)

/-- The bytes of some rows. -/
def totalBytes (rows : List (PyStr × FileRow)) : Nat :=
  sumWhere (fun _ => true) (fun r => r.2.sizeBytes) rows

/-- The bytes of the live ones among them. -/
def liveBytes (now : Instant) (user : PyStr) (rows : List (PyStr × FileRow)) : Nat :=
  sumWhere (fun r => r.2.live now user) (fun r => r.2.sizeBytes) rows

section
variable {user : PyStr} {files : StagedFiles}

theorem mem_ackedStored {ids : List PyStr} {r : PyStr × FileRow} :
    r ∈ ackedStored user files ids ↔ r.1 ∈ ids ∧ files.get r.1 = some r.2 ∧ r.2.userId = user := by
  simp only [ackedStored, List.mem_filterMap, Option.map_eq_some_iff, Option.filter_eq_some_iff,
    decide_eq_true_eq]
  constructor
  · rintro ⟨fid, listed, row, ⟨stored, owned⟩, rfl⟩
    exact ⟨listed, stored, owned⟩
  · rintro ⟨listed, stored, owned⟩
    exact ⟨r.1, listed, r.2, ⟨stored, owned⟩, rfl⟩

theorem ackedStored_keys {ids : List PyStr} (distinct : ids.Nodup) :
    ((ackedStored user files ids).map Prod.fst).Nodup := by
  have keys : (ackedStored user files ids).map Prod.fst =
      ids.filter fun fid => ((files.get fid).filter fun row => row.userId = user).isSome := by
    unfold ackedStored
    rw [List.map_filterMap]
    induction ids with
    | nil => rfl
    | cons fid ids ih =>
        rw [List.filterMap_cons, List.filter_cons, ih (List.nodup_cons.mp distinct).2]
        cases (files.get fid).filter fun row => row.userId = user <;> rfl
  rw [keys]
  exact distinct.filter _

/-- A delete of another file does not change which files are found. -/
theorem ackedStored_delete {fid : PyStr} {ids : List PyStr} (other : fid ∉ ids) :
    ackedStored user (files.delete fid) ids = ackedStored user files ids := by
  unfold ackedStored
  apply List.filterMap_congr
  intro id listed
  have apart : id ≠ fid := fun same => other (same ▸ listed)
  rw [Table.get_delete, if_neg apart]

/-- The rows without some files. -/
def without (files : StagedFiles) (taken : List (PyStr × FileRow)) : StagedFiles :=
  files.deleteWhere fun fid _ => fid ∈ taken.map Prod.fst

theorem without_nil : without files [] = files := by
  obtain ⟨rows, nodup⟩ := files
  simp [without, Table.deleteWhere]

theorem without_cons (r : PyStr × FileRow) (taken : List (PyStr × FileRow)) :
    without (files.delete r.1) taken = without files (r :: taken) := by
  obtain ⟨rows, nodup⟩ := files
  simp only [without, Table.delete, Table.deleteWhere, List.filter_filter, Table.mk.injEq]
  apply List.filter_congr
  intro r' _
  by_cases here : r'.1 = r.1 <;> simp [here]

theorem get_without (taken : List (PyStr × FileRow)) {fid : PyStr} (other : fid ∉ taken.map Prod.fst) :
    (without files taken).get fid = files.get fid := by
  rw [without, Table.get_deleteWhere]
  cases files.get fid with
  | none => rfl
  | some row => simp only [Option.filter_some, other, decide_false, Bool.not_false, if_true]

/-- The purge takes the shortest initial part of the acked files that is big enough, counted from what it
has freed before, or all of them. -/
theorem purgeWalk_takes {needed : Int} {ids : List PyStr} (distinct : ids.Nodup) {freed : Nat}
    (more : (freed : Int) < needed) :
    ∃ taken, taken <+: ackedStored user files ids ∧
      purgeWalk user needed ids freed files = without files taken ∧
      (∀ less, less <+: ackedStored user files ids → less.length < taken.length →
        ((freed + totalBytes less : Nat) : Int) < needed) ∧
      (needed ≤ (freed + totalBytes taken : Nat) ∨ taken = ackedStored user files ids) := by
  induction ids generalizing freed files with
  | nil =>
      refine ⟨[], List.nil_prefix, without_nil.symm, ?_, Or.inr rfl⟩
      intro less _ shorter
      cases shorter
  | cons fid ids ih =>
      obtain ⟨other, distinct⟩ := List.nodup_cons.mp distinct
      cases found : (files.get fid).filter fun row => row.userId = user with
      | none =>
          have skips : ackedStored user files (fid :: ids) = ackedStored user files ids := by
            simp only [ackedStored, List.filterMap_cons, found, Option.map_none]
          rw [purgeWalk, found, skips]
          exact ih distinct more
      | some row =>
          have starts : ackedStored user files (fid :: ids) =
              (fid, row) :: ackedStored user files ids := by
            simp only [ackedStored, List.filterMap_cons, found, Option.map_some]
          have counts : ∀ rest, totalBytes ((fid, row) :: rest) = row.sizeBytes + totalBytes rest :=
            fun rest => sumWhere_cons _ _ (fid, row) rest
          rw [purgeWalk, found, starts]
          by_cases enough : needed ≤ (freed + row.sizeBytes : Nat)
          · -- The loop stops after this file.
            refine ⟨[(fid, row)], ⟨_, rfl⟩, ?_, ?_, Or.inl ?_⟩
            · rw [← without_cons, without_nil]
              exact if_pos enough
            · intro less _ shorter
              rw [List.length_singleton, Nat.lt_one_iff, List.length_eq_zero_iff] at shorter
              rw [shorter]
              exact more
            · rw [counts]
              exact enough
          · have stillMore : ((freed + row.sizeBytes : Nat) : Int) < needed := not_le.mp enough
            obtain ⟨taken, part, walks, short, ends⟩ := @ih (files.delete fid) distinct _ stillMore
            rw [ackedStored_delete other] at part short ends
            refine ⟨(fid, row) :: taken, List.cons_prefix_cons.mpr ⟨rfl, part⟩, ?_, ?_, ?_⟩
            · rw [← without_cons, ← walks]
              exact if_neg enough
            · intro less initial shorter
              cases less with
              | nil => exact more
              | cons first less =>
                  obtain ⟨rfl, later⟩ := List.cons_prefix_cons.mp initial
                  have below := short less later (Nat.lt_of_succ_lt_succ shorter)
                  rw [counts]
                  omega
            · rw [counts]
              rcases ends with enough | all_
              · left
                omega
              · right
                rw [all_]

end

/-! ### One call -/

/-- The acked files that a call may purge. -/
def StageCall.stored (call : StageCall) (files : StagedFiles) : List (PyStr × FileRow) :=
  ackedStored call.userId files (ackedFileIdsForUser call.acked)

/-- The live bytes of the user's files that no acked turn of the user lists. -/
def liveBytesNotAcked (now : Instant) (user : PyStr) (turns : Turns) (files : StagedFiles) : Nat :=
  sumWhere (fun r => r.2.live now user && decide (r.1 ∉ ackedFileIdsForUser (turns.acked user)))
    (fun r => r.2.sizeBytes) files.rows

/-- After the call the live bytes are at most the cap; no live file of a turn that was not acked is gone;
and the call refuses only a file for which the files not acked leave no room. -/
structure StagedRightly (s : StagingStore) (call : StageCall) : Prop where
  underCap : ∀ now, call.clock.recheck ≤ now →
    liveBytesForUser now call.userId (s.stage call).files ≤ perUserLiveCapBytes
  notAckedKept : ∀ key turn, s.turns.get key = some turn → turn.ackedAt = none → ∀ fid ∈ turn.files,
    ∀ row, s.files.get fid = some row → call.clock.check < row.expiresAt →
      (s.stage call).files.get fid = some row
  refusedFull : call.refused s.files = true →
    perUserLiveCapBytes <
      liveBytesNotAcked call.clock.recheck call.userId s.turns s.files + call.size

/-- What the purge frees is what the cap counts: where the files not acked leave room, every initial part
of the acked files that is big enough in all makes the room by its live files; where they leave none, some
initial part that the purge goes through in any case brings the live bytes under the cap by its live
files. -/
structure FreesWhatCounts (s : StagingStore) (call : StageCall) : Prop where
  fits : liveBytesNotAcked call.clock.recheck call.userId s.turns s.files + call.size ≤
      perUserLiveCapBytes →
    ∀ front, front <+: call.stored s.files → call.needed s.files ≤ totalBytes front →
      liveBytesForUser call.clock.recheck call.userId s.files + call.size ≤
        perUserLiveCapBytes + liveBytes call.clock.recheck call.userId front
  bounded : perUserLiveCapBytes <
      liveBytesNotAcked call.clock.recheck call.userId s.turns s.files + call.size →
    ∃ front, front <+: call.stored s.files ∧
      (∀ less, less <+: call.stored s.files → less.length < front.length →
        (totalBytes less : Int) < call.needed s.files) ∧
      liveBytesForUser call.clock.recheck call.userId s.files ≤
        perUserLiveCapBytes + liveBytes call.clock.recheck call.userId front

section
variable {s : StagingStore} {call : StageCall}

theorem ackedFileIds_nodup (sound : s.Sound) (order : s.turns.AckOrder call.userId call.acked) :
    (ackedFileIdsForUser call.acked).Nodup := by
  have stored : ∀ r ∈ s.turns.acked call.userId, r ∈ s.turns.rows := fun r member =>
    List.mem_of_mem_filter member
  have distinct : (s.turns.acked call.userId).Pairwise fun r r' => r.1 ≠ r'.1 :=
    (List.pairwise_map.mp s.turns.nodup).filter _
  have ids : (ackedFileIdsForUser (s.turns.acked call.userId)).Nodup := by
    apply List.nodup_flatMap.mpr
    constructor
    · intro r member
      exact sound.once r (stored r member)
    · apply distinct.imp_of_mem
      intro r r' member member' other fid listed listed'
      exact other (sound.apart r (stored r member) r' (stored r' member') fid listed listed')
  exact (order.1.flatMap_right _).nodup_iff.mpr ids

theorem mem_ackedFileIds (order : s.turns.AckOrder call.userId call.acked) (fid : PyStr) :
    fid ∈ ackedFileIdsForUser call.acked ↔
      fid ∈ ackedFileIdsForUser (s.turns.acked call.userId) :=
  (order.1.flatMap_right _).mem_iff

theorem liveBytes_antitone {now later : Instant} (le : now ≤ later) (user : PyStr)
    (rows : List (PyStr × FileRow)) : liveBytes later user rows ≤ liveBytes now user rows := by
  apply sumWhere_le
  intro r _ live
  simp only [FileRow.live, decide_eq_true_eq] at live ⊢
  exact ⟨live.1, le.trans_lt live.2⟩

theorem liveBytes_le_of_prefix {now : Instant} {user : PyStr} {front rows : List (PyStr × FileRow)}
    (initial : front <+: rows) : liveBytes now user front ≤ liveBytes now user rows := by
  obtain ⟨back, rfl⟩ := initial
  unfold liveBytes
  rw [sumWhere_append]
  exact Nat.le_add_right _ _

/-- What is live of the rows without some that are stored. -/
theorem liveBytes_without {now : Instant} {user : PyStr} {files : StagedFiles} {ids : List PyStr}
    (distinct : ids.Nodup) {taken : List (PyStr × FileRow)}
    (initial : taken <+: ackedStored user files ids) :
    liveBytesForUser now user (without files taken) + liveBytes now user taken =
      liveBytesForUser now user files := by
  have keys : (taken.map Prod.fst).Nodup :=
    (ackedStored_keys distinct).sublist (initial.sublist.map _)
  have stored : ∀ r ∈ taken, r ∈ files.rows := fun r member =>
    Table.mem_of_get (mem_ackedStored.mp (initial.subset member)).2.1
  exact Table.sumWhere_deleteKeys files keys stored (fun _ _ => decide_eq_true_iff)
    (fun r => r.2.live now user) fun r => r.2.sizeBytes

/-- The live bytes are those of the files not acked and those of the acked files still stored. -/
theorem liveBytes_split (sound : s.Sound) (order : s.turns.AckOrder call.userId call.acked)
    (now : Instant) :
    liveBytesNotAcked now call.userId s.turns s.files +
        liveBytes now call.userId (call.stored s.files) =
      liveBytesForUser now call.userId s.files := by
  rw [← liveBytes_without (ackedFileIds_nodup sound order) List.prefix_rfl]
  congr 1
  unfold liveBytesNotAcked liveBytesForUser sumWhere without Table.deleteWhere
  rw [List.filter_filter]
  congr 2
  apply List.filter_congr
  intro r member
  rw [Bool.eq_iff_iff, Bool.and_eq_true, Bool.and_eq_true]
  -- A live row is the user's, so that it is among the acked files that are found if its id is acked.
  apply and_congr_right
  intro live
  have owned : r.2.userId = call.userId := by
    simp only [FileRow.live, decide_eq_true_eq] at live
    exact live.1
  have found : r.1 ∈ (call.stored s.files).map Prod.fst ↔
      r.1 ∈ ackedFileIdsForUser (s.turns.acked call.userId) := by
    rw [← mem_ackedFileIds order]
    constructor
    · intro listed
      obtain ⟨r', here, same⟩ := List.mem_map.mp listed
      rw [← same]
      exact (mem_ackedStored.mp here).1
    · intro listed
      exact List.mem_map_of_mem (mem_ackedStored.mpr ⟨listed, Table.get_of_mem member, owned⟩)
  rw [Bool.not_eq_true', decide_eq_false_iff_not, decide_eq_true_eq]
  exact (not_congr found).symm

/-- What the call takes: too little only where nothing is left to take, or where the clock makes up for
it. -/
theorem makeRoom_takes (distinct : (ackedFileIdsForUser call.acked).Nodup) (files : StagedFiles) :
    ∃ taken, taken <+: call.stored files ∧ call.makeRoom files = without files taken ∧
      (∀ less, less <+: call.stored files → less.length < taken.length →
        (totalBytes less : Int) < call.needed files) ∧
      (call.needed files ≤ totalBytes taken ∨ taken = call.stored files ∨
        liveBytesForUser call.clock.recheck call.userId files + call.size ≤ perUserLiveCapBytes) := by
  have first : liveBytesForUser call.clock.recheck call.userId files ≤
      liveBytesForUser call.clock.short call.userId files :=
    liveBytes_antitone call.clock.short_le_recheck _ _
  have second : liveBytesForUser call.clock.short call.userId files ≤
      liveBytesForUser call.clock.check call.userId files :=
    liveBytes_antitone call.clock.check_le_short _ _
  have nothing : liveBytesForUser call.clock.recheck call.userId files + call.size ≤
      perUserLiveCapBytes → call.makeRoom files = files → ∃ taken, taken <+: call.stored files ∧
      call.makeRoom files = without files taken ∧
      (∀ less, less <+: call.stored files → less.length < taken.length →
        (totalBytes less : Int) < call.needed files) ∧
      (call.needed files ≤ totalBytes taken ∨ taken = call.stored files ∨
        liveBytesForUser call.clock.recheck call.userId files + call.size ≤ perUserLiveCapBytes) := by
    intro room same
    refine ⟨[], List.nil_prefix, same.trans without_nil.symm, ?_, Or.inr (Or.inr room)⟩
    intro less _ shorter
    cases shorter
  by_cases crowded : perUserLiveCapBytes <
      liveBytesForUser call.clock.check call.userId files + call.size
  · by_cases enough : call.needed files ≤ 0
    · apply nothing
      · unfold StageCall.needed at enough
        omega
      · rw [StageCall.makeRoom, if_pos crowded, purgeOldestAckedForUser, if_pos enough]
    · obtain ⟨taken, initial, walks, short, ends⟩ :=
        @purgeWalk_takes call.userId files _ _ distinct 0 (not_le.mp enough)
      refine ⟨taken, initial, ?_, ?_, ?_⟩
      · rw [StageCall.makeRoom, if_pos crowded, purgeOldestAckedForUser, if_neg enough]
        exact walks
      · intro less part shorter
        simpa only [Nat.zero_add] using short less part shorter
      · rw [Nat.zero_add] at ends
        exact ends.imp_right Or.inl
  · apply nothing
    · omega
    · rw [StageCall.makeRoom, if_neg crowded]

/-- A file of a turn that was not acked is not among those that the purge may take. -/
theorem not_stored_of_not_acked (sound : s.Sound) (order : s.turns.AckOrder call.userId call.acked)
    {key : PyStr × PyStr} {turn : TurnRow} (recorded : s.turns.get key = some turn)
    (notAcked : turn.ackedAt = none) {fid : PyStr} (listed : fid ∈ turn.files) :
    fid ∉ (call.stored s.files).map Prod.fst := by
  intro taken
  obtain ⟨r, member, rfl⟩ := List.mem_map.mp taken
  have acked := (mem_ackedFileIds order r.1).mp (mem_ackedStored.mp member).1
  obtain ⟨other, selected, lists⟩ := List.mem_flatMap.mp acked
  obtain ⟨stored, ofUser⟩ := List.mem_filter.mp selected
  have same : other.1 = key :=
    sound.apart other stored (key, turn) (Table.mem_of_get recorded) r.1 lists listed
  have value := Table.get_of_mem stored
  rw [same, recorded, Option.some.injEq] at value
  rw [decide_eq_true_eq, ← value, notAcked] at ofUser
  exact ofUser.2 rfl

/-- The files not acked are kept, whatever the purge takes. -/
theorem stage_keeps_not_acked (sound : s.Sound) (admits : s.Admits call) {key : PyStr × PyStr}
    {turn : TurnRow} (recorded : s.turns.get key = some turn) (notAcked : turn.ackedAt = none)
    {fid : PyStr} (listed : fid ∈ turn.files) {row : FileRow} (stored : s.files.get fid = some row) :
    (s.stage call).files.get fid = some row := by
  obtain ⟨taken, initial, takes, _⟩ := makeRoom_takes (ackedFileIds_nodup sound admits.2.2) s.files
  have apart : fid ∉ taken.map Prod.fst := fun here =>
    not_stored_of_not_acked sound admits.2.2 recorded notAcked listed
      ((initial.sublist.map Prod.fst).subset here)
  have kept : (call.makeRoom s.files).get fid = some row := by
    rw [takes, get_without taken apart, stored]
  change (call.stage s.files).get fid = some row
  unfold StageCall.stage
  by_cases refused : call.refused s.files = true
  · rw [if_pos refused]
    exact kept
  · have new : fid ≠ call.fileId := by
      intro same
      rw [same, admits.1.1] at stored
      cases stored
    rw [if_neg refused, Table.get_upsert_of_ne _ _ _ new]
    exact kept

/-- From the last check on the live bytes are under the cap when the call stages the file, or when the
purge has brought them there. -/
theorem stage_under_cap_iff (sound : s.Sound) (admits : s.Admits call) :
    (∀ now, call.clock.recheck ≤ now →
      liveBytesForUser now call.userId (s.stage call).files ≤ perUserLiveCapBytes) ↔
      (call.refused s.files = true → liveBytesForUser call.clock.recheck call.userId
        (call.makeRoom s.files) ≤ perUserLiveCapBytes) := by
  have result : (s.stage call).files = call.stage s.files := rfl
  constructor
  · intro under refused
    have here := under call.clock.recheck (Nat.le_refl _)
    rwa [result, StageCall.stage, if_pos refused] at here
  · intro under now later
    have antitone : liveBytesForUser now call.userId (call.makeRoom s.files) ≤
        liveBytesForUser call.clock.recheck call.userId (call.makeRoom s.files) :=
      liveBytes_antitone later _ _
    rw [result, StageCall.stage]
    by_cases refused : call.refused s.files = true
    · rw [if_pos refused]
      exact antitone.trans (under refused)
    · obtain ⟨taken, _, takes, _⟩ := makeRoom_takes (ackedFileIds_nodup sound admits.2.2) s.files
      have absent : (call.makeRoom s.files).get call.fileId = none := by
        rw [takes, without, Table.get_deleteWhere, admits.1.1]
        rfl
      have grows : liveBytesForUser now call.userId
          ((call.makeRoom s.files).upsert call.fileId call.row fun _ => call.row) ≤
            liveBytesForUser now call.userId (call.makeRoom s.files) + call.size := by
        unfold liveBytesForUser
        rw [Table.upsert_rows absent, sumWhere_append, sumWhere_singleton]
        apply Nat.add_le_add_left
        by_cases live : call.row.live now call.userId = true
        · rw [if_pos live]
          exact Nat.le_refl _
        · rw [if_neg live]
          exact Nat.zero_le _
      have room : liveBytesForUser call.clock.recheck call.userId (call.makeRoom s.files) +
          call.size ≤ perUserLiveCapBytes := by
        simpa [StageCall.refused] using refused
      rw [if_neg refused]
      omega

/-- A call does what it should exactly when what its purge frees is what the cap counts. -/
theorem stage_rightly_iff (reachable : s.Reachable) (admits : s.Admits call) :
    StagedRightly s call ↔ FreesWhatCounts s call := by
  have sound := sound_of_reachable reachable
  have distinct := ackedFileIds_nodup sound admits.2.2
  obtain ⟨taken, initial, takes, short, ends⟩ := makeRoom_takes distinct s.files
  have left_ : liveBytesForUser call.clock.recheck call.userId (call.makeRoom s.files) +
      liveBytes call.clock.recheck call.userId taken =
        liveBytesForUser call.clock.recheck call.userId s.files := by
    rw [takes]
    exact liveBytes_without distinct initial
  have split := liveBytes_split sound admits.2.2 call.clock.recheck
  have refuses : call.refused s.files = true ↔ perUserLiveCapBytes <
      liveBytesForUser call.clock.recheck call.userId (call.makeRoom s.files) + call.size :=
    decide_eq_true_iff
  -- Of two initial parts the shorter one has fewer live bytes.
  have nested : ∀ {front back : List (PyStr × FileRow)}, front <+: call.stored s.files →
      back <+: call.stored s.files → front.length ≤ back.length →
      liveBytes call.clock.recheck call.userId front ≤
        liveBytes call.clock.recheck call.userId back := fun front back shorter =>
    liveBytes_le_of_prefix (List.prefix_of_prefix_length_le front back shorter)
  constructor
  · intro rightly
    have under := (stage_under_cap_iff sound admits).mp rightly.underCap
    constructor
    · intro room front part enough
      have longer : taken.length ≤ front.length := by
        by_contra shorter
        have := short front part (not_le.mp shorter)
        omega
      have more := nested initial part longer
      by_cases refused : call.refused s.files = true
      · have full := rightly.refusedFull refused
        omega
      · rw [refuses] at refused
        omega
    · intro full
      refine ⟨taken, initial, short, ?_⟩
      by_cases refused : call.refused s.files = true
      · have := under refused
        omega
      · rw [refuses] at refused
        omega
  · intro frees
    have full : call.refused s.files = true → perUserLiveCapBytes <
        liveBytesNotAcked call.clock.recheck call.userId s.turns s.files + call.size := by
      intro refused
      rw [refuses] at refused
      by_contra room
      rcases ends with enough | all_ | later
      · have := frees.fits (not_lt.mp room) taken initial enough
        omega
      · rw [← all_] at split
        omega
      · omega
    refine ⟨(stage_under_cap_iff sound admits).mpr ?_, ?_, full⟩
    · intro refused
      obtain ⟨front, part, before, bound⟩ := frees.bounded (full refused)
      rw [refuses] at refused
      rcases Nat.le_total front.length taken.length with shorter | longer
      · have := nested part initial shorter
        omega
      · rcases ends with enough | all_ | later
        · -- Then the purge stopped at this part.
          have same : front.length ≤ taken.length := by
            by_contra longer
            have := before taken initial (not_le.mp longer)
            omega
          have := nested part initial same
          omega
        · have same : front.length ≤ taken.length := by
            rw [all_]
            exact part.length_le
          have := nested part initial same
          omega
        · omega
    · intro key turn recorded notAcked fid listed row stored _
      exact stage_keeps_not_acked sound admits recorded notAcked listed stored

end
/-- One instant for every reading. -/
def StageClock.steady (now : Instant) : StageClock :=
  ⟨now, now, now, now, Nat.le_refl now, Nat.le_refl now, Nat.le_refl now⟩

/-- A first file in an empty store. -/
def firstCall : StageCall := ⟨py "u", none, 1024, py "gpf_a", .steady 0, []⟩

/-- The first file is staged as it should be. -/
theorem stage_rightly_first : StagedRightly (.empty 0) firstCall :=
  (stage_rightly_iff ⟨0, [], rfl⟩ (by decide)).mpr
    { fits := fun _ front part _ => by
        rw [List.prefix_nil.mp part]
        decide
      bounded := fun full => absurd full (by decide) }

/-! ### A file that expired -/

/-- A turn that ended with one file, and was acked. -/
def ackedTurn (fid : PyStr) (acked : Instant) : TurnRow :=
  ⟨none, .done, [fid], some acked, acked + hours (7 * 24)⟩

/-- Forty megabytes that expired this moment and are not swept yet, forty-five that are live, both
acked. -/
def crowded : StagingStore where
  now := hours (7 * 24)
  files := ⟨[(py "gpf_a", ⟨py "u", none, 40 * 1024 * 1024, hours (7 * 24)⟩),
    (py "gpf_b", ⟨py "u", none, 45 * 1024 * 1024, hours (14 * 24)⟩)], by decide⟩
  turns := ⟨[((py "1", py "u"), ackedTurn (py "gpf_a") 0),
    ((py "2", py "u"), ackedTurn (py "gpf_b") (hours (7 * 24)))], by decide⟩
  held := []
  extensions := []

/-- How the store comes to this. -/
def crowding : List StagingAction :=
  [.stage ⟨py "u", none, 40 * 1024 * 1024, py "gpf_a", .steady 0, []⟩,
    .finish (py "u") none (py "1") true [py "gpf_a"], .extendExpiry 0, .ack (py "u") (py "1"),
    .tick (hours (7 * 24)),
    .stage ⟨py "u", none, 45 * 1024 * 1024, py "gpf_b", .steady (hours (7 * 24)),
      [((py "1", py "u"), ackedTurn (py "gpf_a") 0)]⟩,
    .finish (py "u") none (py "2") true [py "gpf_b"], .extendExpiry 0, .ack (py "u") (py "2")]

theorem crowded_reachable : crowded.Reachable := ⟨0, crowding, rfl⟩

/-- A new file of ten megabytes. -/
def tenMegabytes : StageCall :=
  ⟨py "u", none, 10 * 1024 * 1024, py "gpf_c", .steady (hours (7 * 24)), crowded.turns.rows⟩

/-- The expired file is counted as freed, the live one stays, and the new file is refused although every
file has been acked. -/
theorem expired_file_counted_as_freed :
    ∃ s call, s.Reachable ∧ s.Admits call ∧ ¬ StagedRightly s call := by
  refine ⟨crowded, tenMegabytes, crowded_reachable, by decide, ?_⟩
  intro rightly
  have full := rightly.refusedFull (by decide)
  revert full
  decide

end GhostPour.Generations
