/-
Module: GhostPour.Shares.Proofs.FilesDie
Layer: Proofs
Purpose: When the files of the shares die with them. A sweep finds the files of a share by the storage
  path of its row, which a revoke clears, so a sidecar that is there at the revoke stays for good.
Trusted boundary: none
Main exports: FileOf, goesWith_iff, Kept, Owned, KeepsOwned, Adopts, SparesLive, AllLive,
  shares_leave_no_file_iff
-/
import GhostPour.Shares.MeetingShares

namespace GhostPour.Shares

/-! ### Names -/

/-- The names of the files of a share. -/
inductive FileOf (id : ShareId) : PyStr → Prop where
  | archive : FileOf id (archiveName id)
  | audio (n : Nat) : FileOf id (audioSidecar (archiveName id) n)
  | card (version : Nat) : FileOf id (cardSidecar (archiveName id) version)

theorem FileOf.startsWith {id : ShareId} {f : PyStr} (file : FileOf id f) :
    archiveName id <+: f := by
  cases file with
  | archive => exact List.prefix_refl _
  | audio n => exact List.prefix_append _ _
  | card version => exact List.prefix_append _ _

/-- The ids have one length, so the archive names of two shares start no file in common. -/
theorem id_eq_of_prefix {id id' : ShareId} {f : PyStr} (first : archiveName id <+: f)
    (second : archiveName id' <+: f) : id = id' := by
  have text : id.text = id'.text := by
    have taken : ∀ i : ShareId, archiveName i <+: f → i.text = f.take 16 := by
      intro i starts
      obtain ⟨rest, rfl⟩ := starts
      rw [archiveName, List.append_assoc, ← i.length, List.take_left']
      rfl
    rw [taken id first, taken id' second]
  cases id
  cases id'
  cases text
  rfl

theorem FileOf.id_eq {id id' : ShareId} {f : PyStr} (first : FileOf id f) (second : FileOf id' f) :
    id = id' :=
  id_eq_of_prefix first.startsWith second.startsWith

theorem globMatches_append (front middle back : PyStr) :
    globMatches front back (front ++ (middle ++ back)) = true := by
  simp [globMatches, GhostPour.startsWith, endsWith]

theorem prefix_of_globMatches {front back name : PyStr} (found : globMatches front back name = true) :
    front <+: name := by
  rw [globMatches, Bool.and_eq_true] at found
  exact List.isPrefixOf_iff_prefix.mp found.1

/-- What goes with the archive of one share is the files of that share. -/
theorem goesWith_iff {id id' : ShareId} {f : PyStr} (file : FileOf id f) :
    goesWith (archiveName id') f = true ↔ id' = id := by
  constructor
  · intro taken
    have starts : archiveName id' <+: f := by
      rw [goesWith, Bool.or_eq_true, Bool.or_eq_true, beq_iff_eq] at taken
      rcases taken with (rfl | audio) | card
      · exact List.prefix_refl _
      · exact (List.prefix_append _ _).trans (prefix_of_globMatches audio)
      · exact (List.prefix_append _ _).trans (prefix_of_globMatches card)
    exact id_eq_of_prefix starts file.startsWith
  · rintro rfl
    rw [goesWith, Bool.or_eq_true, Bool.or_eq_true]
    cases file with
    | archive => exact .inl (.inl (beq_self_eq_true _))
    | audio n =>
        refine .inl (.inr ?_)
        rw [audioSidecar, ← List.append_assoc]
        exact globMatches_append _ _ _
    | card version =>
        refine .inr ?_
        rw [cardSidecar, ← List.append_assoc, ← List.append_assoc (py ".v")]
        exact globMatches_append _ _ _

theorem archiveName_ne_nil (id : ShareId) : archiveName id ≠ [] := by
  intro empty
  have length := congrArg List.length empty
  rw [archiveName, List.length_append, id.length] at length
  cases length

/-! ### What every action keeps -/

/-- Ids are distinct, a row that is not revoked holds the path of its archive, a revoked one none, and
every file is named after some share. -/
structure Kept (s : ShareStore) : Prop where
  ids : (s.rows.map ShareRow.id).Nodup
  paths : ∀ r ∈ s.rows, r.storagePath = if r.revokedAt.isSome then [] else archiveName r.id
  names : ∀ f ∈ s.files, ∃ id, FileOf id f

theorem Kept.row_eq {s : ShareStore} (kept : Kept s) {r r' : ShareRow} (first : r ∈ s.rows)
    (second : r' ∈ s.rows) (same : r.id = r'.id) : r = r' :=
  List.inj_on_of_nodup_map kept.ids first second same

theorem Kept.path_of_unrevoked {s : ShareStore} (kept : Kept s) {r : ShareRow} (stored : r ∈ s.rows)
    (unrevoked : r.revokedAt = none) : r.storagePath = archiveName r.id := by
  rw [kept.paths r stored, unrevoked]
  rfl

theorem Kept.path_of_revoked {s : ShareStore} (kept : Kept s) {r : ShareRow} (stored : r ∈ s.rows)
    (revoked : r.revokedAt ≠ none) : r.storagePath = [] := by
  rw [kept.paths r stored, if_pos (Option.isSome_iff_ne_none.mpr revoked)]

theorem Kept.write {s : ShareStore} (kept : Kept s) {id : ShareId} {name : PyStr}
    (file : FileOf id name) : Kept (s.write name) where
  ids := kept.ids
  paths := kept.paths
  names := by
    intro f member
    rcases Finset.mem_insert.mp member with rfl | before
    · exact ⟨id, file⟩
    · exact kept.names f before

/-! ### What an action does -/

/-- The row is entered: neither its id nor its token is taken, and it expires in time. -/
def Enters (id : ShareId) (token : PyStr) (expiryDays : Int) (s : ShareStore) : Prop :=
  s.taken id token = false ∧ (s.now.addDays expiryDays).isSome = true

theorem createShare_cases (id : ShareId) (token : PyStr) (expiryDays : Int) (s : ShareStore) :
    (∃ expires, Enters id token expiryDays s ∧ createShare id token expiryDays s =
      { s.write (archiveName id) with
        rows := s.rows ++ [⟨id, token, archiveName id, expires, none⟩] }) ∨
    (¬Enters id token expiryDays s ∧
      createShare id token expiryDays s = s.write (archiveName id)) := by
  rw [createShare, Enters]
  cases s.now.addDays expiryDays with
  | none => exact .inr ⟨by simp, rfl⟩
  | some expires =>
      cases taken : s.taken id token with
      | true => exact .inr ⟨by simp, by simp⟩
      | false => exact .inl ⟨expires, ⟨rfl, rfl⟩, by simp⟩

theorem ne_id_of_enters {id : ShareId} {token : PyStr} {expiryDays : Int} {s : ShareStore}
    (enters : Enters id token expiryDays s) : ∀ r ∈ s.rows, r.id ≠ id := by
  intro r stored same
  have fresh := enters.1
  rw [ShareStore.taken, List.any_eq_false] at fresh
  exact fresh r stored (by simp [same])

/-- A file that is put beside an archive is one of its share, which is not revoked. -/
theorem putBeside_cases {s : ShareStore} (kept : Kept s) (token : PyStr) (name : PyStr → PyStr)
    (made : Bool) (named : ∀ id, FileOf id (name (archiveName id))) :
    putBeside token name made s = s ∨
    ∃ r ∈ s.rows, r.revokedAt = none ∧ FileOf r.id (name r.storagePath) ∧
      putBeside token name made s = s.write (name r.storagePath) := by
  rw [putBeside]
  cases found : shareByToken token s with
  | none => exact .inl rfl
  | some r =>
      dsimp only
      split
      · next live =>
        have stored : r ∈ s.rows := List.mem_of_find?_eq_some found
        simp only [isLive, Bool.and_eq_true, Option.isNone_iff_eq_none] at live
        refine .inr ⟨r, stored, live.1.1.1, ?_, rfl⟩
        rw [kept.path_of_unrevoked stored live.1.1.1]
        exact named r.id
      · exact .inl rfl

theorem mem_unlink {path f : PyStr} {files : Finset PyStr} :
    f ∈ unlink path files ↔ f ∈ files ∧ (path ≠ [] → f ≠ path) := by
  rw [unlink]
  split
  · next empty => simp [empty]
  · next some_ => simp [some_, and_comm]

/-- The row of a revoke, as it is left. -/
def ShareRow.revoked (now : Moment) (r : ShareRow) : ShareRow :=
  { r with storagePath := [], revokedAt := some now }

theorem revoke_cases (id : ShareId) (s : ShareStore) :
    ((∀ r ∈ s.rows, r.id ≠ id) ∧ revoke id s = s) ∨
    ∃ row ∈ s.rows, row.id = id ∧ revoke id s =
      { s with
        rows := s.rows.map fun r => if r.id = id then r.revoked s.now else r
        files := unlink row.storagePath s.files } := by
  rw [revoke]
  cases found : s.rows.find? fun row => row.id = id with
  | none =>
      refine .inl ⟨fun r stored same => ?_, rfl⟩
      exact List.find?_eq_none.mp found r stored (decide_eq_true same)
  | some row =>
      exact .inr ⟨row, List.mem_of_find?_eq_some found,
        by simpa using List.find?_some found, rfl⟩

theorem mem_foldl_sweepRow {rows : List ShareRow} {files : Finset PyStr} {f : PyStr} :
    f ∈ rows.foldl sweepRow files ↔
      f ∈ files ∧ ∀ r ∈ rows, r.storagePath ≠ [] → goesWith r.storagePath f = false := by
  induction rows generalizing files with
  | nil => simp
  | cons r rows ih =>
      have here : f ∈ sweepRow files r ↔
          f ∈ files ∧ (r.storagePath ≠ [] → goesWith r.storagePath f = false) := by
        rw [sweepRow]
        split
        · next empty => simp [empty]
        · next some_ => simp [some_]
      rw [List.foldl_cons, ih, here, List.forall_mem_cons, and_assoc]

/-- A file of a share goes in a sweep exactly when the row of the share is dead and not revoked. -/
theorem mem_purge_files {s : ShareStore} (kept : Kept s) {id : ShareId} {f : PyStr}
    (file : FileOf id f) :
    f ∈ (purgeExpired s).files ↔ f ∈ s.files ∧
      ∀ r ∈ s.rows, r.id = id → r.revokedAt = none → isDead s.now r = false := by
  rw [purgeExpired]
  change f ∈ (s.rows.filter (isDead s.now)).foldl sweepRow s.files ↔ _
  rw [mem_foldl_sweepRow]
  refine and_congr_right fun _ => ⟨fun spared r stored same unrevoked => ?_, fun spared r dead path => ?_⟩
  · rw [Bool.eq_false_iff]
    intro dead
    have path := kept.path_of_unrevoked stored unrevoked
    have untaken := spared r (List.mem_filter.mpr ⟨stored, dead⟩)
      (by rw [path]; exact archiveName_ne_nil r.id)
    rw [path, Bool.eq_false_iff] at untaken
    exact untaken ((goesWith_iff file).mpr same)
  · obtain ⟨stored, dead⟩ := List.mem_filter.mp dead
    have unrevoked : r.revokedAt = none := by
      by_contra revoked
      exact path (kept.path_of_revoked stored revoked)
    rw [kept.path_of_unrevoked stored unrevoked, Bool.eq_false_iff, Ne, goesWith_iff file]
    intro same
    rw [spared r stored same unrevoked] at dead
    cases dead

theorem mem_purge_rows {s : ShareStore} (kept : Kept s) {r : ShareRow} :
    r ∈ (purgeExpired s).rows ↔ r ∈ s.rows ∧ isDead s.now r = false := by
  rw [purgeExpired]
  change r ∈ s.rows.filter _ ↔ _
  rw [List.mem_filter]
  refine and_congr_right fun stored => ?_
  rw [decide_eq_true_iff, List.mem_map, Bool.eq_false_iff, ← not_iff_not, not_not, Ne, not_not]
  constructor
  · rintro ⟨r', listed, same⟩
    obtain ⟨stored', dead⟩ := List.mem_filter.mp listed
    rwa [kept.row_eq stored stored' same.symm]
  · exact fun dead => ⟨r, List.mem_filter.mpr ⟨stored, dead⟩, rfl⟩

/-- Every action keeps the rows and the names in order. -/
theorem kept_apply {s : ShareStore} (kept : Kept s) (a : ShareAction) : Kept (a.apply s) := by
  cases a with
  | create id token expiryDays =>
      rw [ShareAction.apply]
      rcases createShare_cases id token expiryDays s with ⟨expires, enters, same⟩ | ⟨_, same⟩
      · have other := ne_id_of_enters enters
        rw [same]
        refine ⟨?_, ?_, (kept.write .archive).names⟩
        · change ((s.rows ++ [_]).map ShareRow.id).Nodup
          rw [List.map_append, List.nodup_append']
          refine ⟨kept.ids, List.nodup_singleton _, ?_⟩
          intro i listed new
          obtain ⟨r, stored, rfl⟩ := List.mem_map.mp listed
          exact other r stored (List.mem_singleton.mp new)
        · intro r member
          rcases List.mem_append.mp member with stored | new
          · exact kept.paths r stored
          · rw [List.mem_singleton.mp new]
            rfl
      · rw [same]
        exact kept.write .archive
  | audio token n inflates =>
      rcases putBeside_cases kept token (audioSidecar · n) inflates fun _ => .audio n with
        same | ⟨r, _, _, file, same⟩
      · rw [ShareAction.apply, shareAudio, same]
        exact kept
      · rw [ShareAction.apply, shareAudio, same]
        exact kept.write file
  | card token version =>
      rcases putBeside_cases kept token (cardSidecar · version) true fun _ => .card version with
        same | ⟨r, _, _, file, same⟩
      · rw [ShareAction.apply, shareCard, same]
        exact kept
      · rw [ShareAction.apply, shareCard, same]
        exact kept.write file
  | revoke id =>
      rw [ShareAction.apply]
      rcases revoke_cases id s with ⟨_, same⟩ | ⟨row, _, _, same⟩
      · rw [same]
        exact kept
      · rw [same]
        refine ⟨?_, ?_, fun f member => kept.names f (mem_unlink.mp member).1⟩
        · change ((s.rows.map _).map ShareRow.id).Nodup
          rw [List.map_map]
          convert kept.ids using 2
          funext r
          rw [Function.comp_apply]
          split <;> rfl
        · intro r member
          obtain ⟨r, stored, rfl⟩ := List.mem_map.mp member
          split
          · rfl
          · exact kept.paths r stored
  | purge =>
      refine ⟨(List.filter_sublist.map ShareRow.id).nodup kept.ids, ?_, ?_⟩
      · exact fun r member => kept.paths r ((mem_purge_rows kept).mp member).1
      · exact fun f member => kept.names f (mem_foldl_sweepRow.mp member).1
  | wait till =>
      rw [ShareAction.apply]
      split
      · exact ⟨kept.ids, kept.paths, kept.names⟩
      · exact kept

theorem kept_empty (now : Moment) : Kept (.empty now) where
  ids := List.nodup_nil
  paths := fun _ stored => nomatch stored
  names := fun _ member => absurd member (Finset.notMem_empty _)

/-! ### Whose files they are -/

/-- A share that is not revoked has the file. -/
def Owned (s : ShareStore) (f : PyStr) : Prop :=
  ∃ r ∈ s.rows, r.revokedAt = none ∧ FileOf r.id f

/-- Every file is one of a share that is not revoked. -/
def AllOwned (s : ShareStore) : Prop := ∀ f ∈ s.files, Owned s f

/-- An action leaves no file without its share: a revoke finds no sidecar of its share, and a create
that enters no row draws the id of a share that is not revoked. -/
def KeepsOwned : ShareAction → ShareStore → Prop
  | .create id token expiryDays, s =>
      Enters id token expiryDays s ∨ ∃ r ∈ s.rows, r.revokedAt = none ∧ r.id = id
  | .revoke id, s => ∀ f ∈ s.files, FileOf id f → f = archiveName id
  | _, _ => True

/-- A new share draws the id of the only files that have none. -/
def Adopts : ShareAction → ShareStore → Prop
  | .create id token expiryDays, s => Enters id token expiryDays s ∧ ¬AllOwned s ∧
      ∀ f ∈ s.files, Owned s f ∨ FileOf id f
  | _, _ => False

/-- A file that is put beside its archive has its share. -/
theorem allOwned_write {s : ShareStore} {r : ShareRow} {name : PyStr} (stored : r ∈ s.rows)
    (unrevoked : r.revokedAt = none) (file : FileOf r.id name) :
    AllOwned (s.write name) ↔ AllOwned s := by
  constructor
  · exact fun all f member => all f (Finset.mem_insert_of_mem member)
  · intro all f member
    rcases Finset.mem_insert.mp member with rfl | before
    · exact ⟨r, stored, unrevoked, file⟩
    · exact all f before

theorem allOwned_create (s : ShareStore) (id : ShareId) (token : PyStr) (expiryDays : Int) :
    AllOwned (createShare id token expiryDays s) ↔
      Adopts (.create id token expiryDays) s ∨
        AllOwned s ∧ KeepsOwned (.create id token expiryDays) s := by
  rw [Adopts, KeepsOwned]
  rcases createShare_cases id token expiryDays s with ⟨expires, enters, same⟩ | ⟨shut, same⟩
  · have owned : ∀ f, Owned (createShare id token expiryDays s) f ↔ Owned s f ∨ FileOf id f := by
      intro f
      rw [same, Owned, Owned]
      simp [or_and_right, exists_or]
    have all : AllOwned (createShare id token expiryDays s) ↔
        ∀ f ∈ s.files, Owned s f ∨ FileOf id f := by
      simp only [AllOwned, owned]
      rw [same]
      constructor
      · exact fun each f member => each f (Finset.mem_insert_of_mem member)
      · intro each f member
        rcases Finset.mem_insert.mp member with rfl | before
        · exact .inr .archive
        · exact each f before
    rw [all]
    constructor
    · intro each
      by_cases here : AllOwned s
      · exact .inr ⟨here, .inl enters⟩
      · exact .inl ⟨enters, here, each⟩
    · rintro (⟨_, _, each⟩ | ⟨here, _⟩)
      · exact each
      · exact fun f member => .inl (here f member)
  · rw [same]
    have all : AllOwned (s.write (archiveName id)) ↔
        AllOwned s ∧ ∃ r ∈ s.rows, r.revokedAt = none ∧ r.id = id := by
      constructor
      · intro each
        refine ⟨fun f member => each f (Finset.mem_insert_of_mem member), ?_⟩
        obtain ⟨r, stored, unrevoked, file⟩ := each _ (Finset.mem_insert_self _ _)
        exact ⟨r, stored, unrevoked, file.id_eq .archive⟩
      · rintro ⟨each, r, stored, unrevoked, rfl⟩
        exact (allOwned_write stored unrevoked .archive).mpr each
    rw [all]
    simp [shut]

theorem allOwned_revoke {s : ShareStore} (kept : Kept s) (id : ShareId) :
    AllOwned (revoke id s) ↔ AllOwned s ∧ KeepsOwned (.revoke id) s := by
  rw [KeepsOwned]
  rcases revoke_cases id s with ⟨absent, same⟩ | ⟨row, stored, rfl, same⟩
  · rw [same, iff_self_and]
    intro each f member file
    obtain ⟨r, stored, _, named⟩ := each f member
    exact absurd (named.id_eq file) (absent r stored)
  · have owned : ∀ f, Owned (revoke row.id s) f ↔ Owned s f ∧ ¬FileOf row.id f := by
      intro f
      rw [same]
      constructor
      · rintro ⟨r, member, unrevoked, file⟩
        obtain ⟨r, stored', rfl⟩ := List.mem_map.mp member
        split at unrevoked
        · cases unrevoked
        · next other =>
          rw [if_neg other] at file
          exact ⟨⟨r, stored', unrevoked, file⟩, fun file' => other (file.id_eq file')⟩
      · rintro ⟨⟨r, stored', unrevoked, file⟩, other⟩
        have apart : r.id ≠ row.id := by
          intro same
          rw [same] at file
          exact other file
        exact ⟨r, List.mem_map.mpr ⟨r, stored', if_neg apart⟩, unrevoked, file⟩
    have member : ∀ f, f ∈ (revoke row.id s).files ↔
        f ∈ s.files ∧ (row.storagePath ≠ [] → f ≠ row.storagePath) := by
      intro f
      rw [same]
      exact mem_unlink
    constructor
    · intro each
      have apart : ∀ f ∈ s.files, FileOf row.id f → row.storagePath ≠ [] ∧ f = row.storagePath := by
        intro f there file
        by_contra left
        refine ((owned f).mp (each f ((member f).mpr ⟨there, fun path is => ?_⟩))).2 file
        exact left ⟨path, is⟩
      refine ⟨fun f there => ?_, fun f there file => ?_⟩
      · by_cases left : f ∈ (revoke row.id s).files
        · exact ((owned f).mp (each f left)).1
        · rw [member, not_and, not_forall] at left
          obtain ⟨path, is⟩ := left there
          have unrevoked : row.revokedAt = none := by
            by_contra revoked
            exact path (kept.path_of_revoked stored revoked)
          rw [not_not.mp is, kept.path_of_unrevoked stored unrevoked]
          exact ⟨row, stored, unrevoked, .archive⟩
      · obtain ⟨path, is⟩ := apart f there file
        have unrevoked : row.revokedAt = none := by
          by_contra revoked
          exact path (kept.path_of_revoked stored revoked)
        rw [is, kept.path_of_unrevoked stored unrevoked]
    · rintro ⟨each, alone⟩ f left
      obtain ⟨there, spared⟩ := (member f).mp left
      refine (owned f).mpr ⟨each f there, fun file => ?_⟩
      obtain ⟨r, stored', unrevoked, file'⟩ := each f there
      rw [kept.row_eq stored' stored (file'.id_eq file)] at unrevoked
      have path := kept.path_of_unrevoked stored unrevoked
      rw [path] at spared
      exact spared (archiveName_ne_nil _) (alone f there file)

theorem allOwned_purge {s : ShareStore} (kept : Kept s) :
    AllOwned (purgeExpired s) ↔ AllOwned s := by
  have owned : ∀ f ∈ (purgeExpired s).files, Owned (purgeExpired s) f ↔ Owned s f := by
    intro f left
    constructor
    · rintro ⟨r, member, unrevoked, file⟩
      exact ⟨r, ((mem_purge_rows kept).mp member).1, unrevoked, file⟩
    · rintro ⟨r, stored, unrevoked, file⟩
      have alive := ((mem_purge_files kept file).mp left).2 r stored rfl unrevoked
      exact ⟨r, (mem_purge_rows kept).mpr ⟨stored, alive⟩, unrevoked, file⟩
  constructor
  · intro each f there
    by_cases left : f ∈ (purgeExpired s).files
    · exact (owned f left).mp (each f left)
    · obtain ⟨id, file⟩ := kept.names f there
      rw [mem_purge_files kept file] at left
      push Not at left
      obtain ⟨r, stored, same, unrevoked, _⟩ := left there
      exact ⟨r, stored, unrevoked, by rw [same]; exact file⟩
  · intro each f left
    exact (owned f left).mpr (each f (mem_foldl_sweepRow.mp left).1)

/-- What one action does to the owning of the files. -/
theorem allOwned_apply {s : ShareStore} (kept : Kept s) (a : ShareAction) :
    AllOwned (a.apply s) ↔ Adopts a s ∨ AllOwned s ∧ KeepsOwned a s := by
  have plain : ∀ {s' : ShareStore}, (AllOwned s' ↔ AllOwned s) →
      (AllOwned s' ↔ False ∨ AllOwned s ∧ True) := by
    intro s' same
    rw [same, false_or, and_true]
  cases a with
  | create id token expiryDays => exact allOwned_create s id token expiryDays
  | audio token n inflates =>
      apply plain
      rcases putBeside_cases kept token (audioSidecar · n) inflates fun _ => .audio n with
        same | ⟨r, stored, unrevoked, file, same⟩
      · rw [ShareAction.apply, shareAudio, same]
      · rw [ShareAction.apply, shareAudio, same]
        exact allOwned_write stored unrevoked file
  | card token version =>
      apply plain
      rcases putBeside_cases kept token (cardSidecar · version) true fun _ => .card version with
        same | ⟨r, stored, unrevoked, file, same⟩
      · rw [ShareAction.apply, shareCard, same]
      · rw [ShareAction.apply, shareCard, same]
        exact allOwned_write stored unrevoked file
  | revoke id =>
      change _ ↔ False ∨ _
      rw [false_or]
      exact allOwned_revoke kept id
  | purge =>
      apply plain
      exact allOwned_purge kept
  | wait till =>
      apply plain
      rw [ShareAction.apply]
      split <;> exact Iff.rfl

/-! ### Live shares -/

theorem Moment.isoText_le_iff {s t : Moment} : s.isoText ≤ t.isoText ↔ s.instant ≤ t.instant := by
  rw [← not_lt, ← not_lt]
  exact not_congr (DateTime.isoformat_lt_iff t.dated s.dated)

/-- What the sweep selects is what the page does not serve. -/
theorem isLive_iff {now : Moment} {r : ShareRow} : isLive now r = true ↔ isDead now r = false := by
  rw [isLive, isDead, Bool.and_eq_true, Bool.or_eq_false_iff, decide_eq_true_iff,
    decide_eq_false_iff_not, Moment.isoText_le_iff, not_le, Option.isSome_eq_false_iff, and_comm]

theorem unrevoked_of_isLive {now : Moment} {r : ShareRow} (live : isLive now r = true) :
    r.revokedAt = none := by
  rw [isLive, Bool.and_eq_true, Option.isNone_iff_eq_none] at live
  exact live.1

/-- Every file is one of a live share. -/
def AllLive (s : ShareStore) : Prop :=
  ∀ f ∈ s.files, ∃ r ∈ s.rows, isLive s.now r = true ∧ FileOf r.id f

theorem allLive_purge_iff {s : ShareStore} (kept : Kept s) :
    AllLive (purgeExpired s) ↔ AllOwned (purgeExpired s) := by
  refine forall_congr' fun f => imp_congr_right fun _ => exists_congr fun r => ?_
  refine and_congr_right fun stored => and_congr_left fun _ => ⟨unrevoked_of_isLive, fun _ => ?_⟩
  exact isLive_iff.mpr ((mem_purge_rows kept).mp stored).2

/-- The action deletes no file of a share that is live after it. -/
def SparesLive (a : ShareAction) (s : ShareStore) : Prop :=
  ∀ s', shareMachine.step a s = some s' →
    ∀ r ∈ s'.rows, isLive s'.now r = true → ∀ f ∈ s.files, FileOf r.id f → f ∈ s'.files

theorem sparesLive {s : ShareStore} (kept : Kept s) (a : ShareAction) : SparesLive a s := by
  intro s' step r stored live f there file
  have same : a.apply s = s' := Option.some.inj step
  rw [← same] at stored live ⊢
  have put : ∀ token name made, f ∈ (putBeside token name made s).files := by
    intro token name made
    rw [putBeside]
    split
    · exact there
    · split
      · exact Finset.mem_insert_of_mem there
      · exact there
  cases a with
  | create id token expiryDays =>
      rw [ShareAction.apply]
      rcases createShare_cases id token expiryDays s with ⟨_, _, outcome⟩ | ⟨_, outcome⟩
      · rw [outcome]
        exact Finset.mem_insert_of_mem there
      · rw [outcome]
        exact Finset.mem_insert_of_mem there
  | audio token n inflates => exact put _ _ _
  | card token version => exact put _ _ _
  | revoke id =>
      rw [ShareAction.apply] at stored live ⊢
      rcases revoke_cases id s with ⟨_, outcome⟩ | ⟨row, before, rfl, outcome⟩
      · rw [outcome]
        exact there
      · rw [outcome] at stored ⊢
        refine mem_unlink.mpr ⟨there, fun path is => ?_⟩
        -- the archive that goes is that of the revoked share, which is not live
        have unrevoked : row.revokedAt = none := by
          by_contra revoked
          exact path (kept.path_of_revoked before revoked)
        rw [is, kept.path_of_unrevoked before unrevoked] at file
        obtain ⟨r, _, rfl⟩ := List.mem_map.mp stored
        split at live
        · cases unrevoked_of_isLive live
        · next other =>
          rw [if_neg other] at file
          exact other (file.id_eq .archive)
  | purge =>
      obtain ⟨before, alive⟩ := (mem_purge_rows kept).mp stored
      refine (mem_purge_files kept file).mpr ⟨there, fun r' stored' same _ => ?_⟩
      rw [kept.row_eq stored' before same]
      exact alive
  | wait till =>
      rw [ShareAction.apply]
      split <;> exact there

/-! ### Runs -/

/-- After a sweep, every file in the directory is one of a live share, and no action before deleted a
file of a live share, exactly when no revoke found a sidecar of its share and no create that entered no
row left its archive; or a later share drew the id of the files that were left, and none was since. -/
theorem shares_leave_no_file_iff (now : Moment) (actions : List ShareAction) {last : ShareStore}
    (run : shareMachine.run (actions ++ [.purge]) (.empty now) = some last) :
    AllLive last ∧ shareMachine.Along SparesLive (actions ++ [.purge]) (.empty now) ↔
      shareMachine.Along KeepsOwned (actions ++ [.purge]) (.empty now) ∨
        shareMachine.Lasts Adopts KeepsOwned (actions ++ [.purge]) (.empty now) := by
  have keeps : ∀ a s s', Kept s → shareMachine.step a s = some s' → Kept s' := by
    intro a s s' kept step
    cases step
    exact kept_apply kept a
  have spares : shareMachine.Along SparesLive (actions ++ [.purge]) (.empty now) :=
    (Machine.along_congr keeps (fun a s kept => iff_of_true (sparesLive kept a) trivial)
      (kept_empty now)).mpr (Machine.along_of_forall (fun _ _ _ => trivial) _)
  have exactly : ∀ a s s', Kept s → shareMachine.step a s = some s' →
      (AllOwned s' ↔ Adopts a s ∨ AllOwned s ∧ KeepsOwned a s) := by
    intro a s s' kept step
    cases step
    exact allOwned_apply kept a
  have owned : AllOwned last ↔ _ := Machine.run_lasts_iff_under keeps exactly (kept_empty now) run
  have swept : AllLive last ↔ AllOwned last := by
    obtain ⟨s, before, sweep⟩ := Option.bind_eq_some_iff.mp ((Machine.run_append _ _ _).symm.trans run)
    cases sweep
    exact allLive_purge_iff (Machine.run_invariant keeps (kept_empty now) before)
  have start : AllOwned (.empty now) := fun f member => absurd member (Finset.notMem_empty f)
  rw [and_iff_left spares, swept, owned, and_iff_right start]

/-! ### A revoke after a recording was played -/

/-- The first moment of the calendar. -/
def firstMoment : Moment := ⟨0, by decide⟩

/-- A share with an id of zeros. -/
def zeroShare : ShareId := ⟨List.replicate 16 48, by decide, by decide⟩

/-- A share is made, its recording is played, and it is revoked. -/
def playedThenRevoked : List ShareAction :=
  [.create zeroShare (py "t") 30, .audio (py "t") 0 true, .revoke zeroShare]

/-- The sweep drops the row and leaves the recording. -/
theorem playedThenRevoked_swept :
    ∃ last, shareMachine.run (playedThenRevoked ++ [.purge]) (.empty firstMoment) = some last ∧
      last.rows = [] ∧ audioSidecar (archiveName zeroShare) 0 ∈ last.files :=
  ⟨_, rfl, by decide +kernel, by decide +kernel⟩

theorem shares_leave_no_file_iff_played :
    ∃ last, shareMachine.run (playedThenRevoked ++ [.purge]) (.empty firstMoment) = some last ∧
      (AllLive last ∧ shareMachine.Along SparesLive (playedThenRevoked ++ [.purge])
          (.empty firstMoment) ↔
        shareMachine.Along KeepsOwned (playedThenRevoked ++ [.purge]) (.empty firstMoment) ∨
          shareMachine.Lasts Adopts KeepsOwned (playedThenRevoked ++ [.purge])
            (.empty firstMoment)) := by
  obtain ⟨last, run, _, _⟩ := playedThenRevoked_swept
  exact ⟨last, run, shares_leave_no_file_iff firstMoment playedThenRevoked run⟩

/-- The recording outlives its share. -/
theorem recording_outlives_share :
    ¬∀ (now : Moment) (actions : List ShareAction) (last : ShareStore),
      shareMachine.run (actions ++ [.purge]) (.empty now) = some last →
      AllLive last ∧ shareMachine.Along SparesLive (actions ++ [.purge]) (.empty now) := by
  intro never
  obtain ⟨last, run, gone, left⟩ := playedThenRevoked_swept
  obtain ⟨r, stored, _⟩ := (never firstMoment playedThenRevoked last run).1 _ left
  rw [gone] at stored
  cases stored

end GhostPour.Shares
