/-
Module: GhostPour.Purchases.Proofs.UnlockConfluence
Layer: Proof
Purpose: Whatever the order in which unlocks are recorded on two accounts and the accounts are merged, the
  account that is left holds what the set of transactions unlocks: the least set that every transaction
  without a requirement and every upgrade whose requirement is met adds to. Before that, what deciding,
  recording, refunding and merging do to one row, stated once for whatever a reader reads of it.
Trusted boundary: none
Main exports: resolvePending_reads, addPrice_same, UnlockEvent, Unlocked, LedgerSound,
  unlocks_determined_by_transactions
-/
import GhostPour.Purchases.Unlocks

namespace GhostPour.Purchases

section
variable {β : Type} (reads : Purchase → β) {catalog : UnlockCatalog} {userId : PyStr}
  {db db' : UnlockDb}

/-- An update that a reader does not see. -/
theorem update_reads {key : PyStr} {f : Purchase → Purchase}
    (blind : ∀ row, reads (f row) = reads row) (txn : PyStr) :
    ((db.onPurchases fun t => t.update key f).purchases.get txn).map reads =
      (db.purchases.get txn).map reads := by
  rw [UnlockDb.onPurchases_purchases, Table.get_update]
  split
  · rw [Option.map_map]
    exact congrArg (fun g => Option.map g (db.purchases.get txn)) (funext blind)
  · rfl

/-- A new row, as a reader sees it. -/
theorem insert_reads {key : PyStr} (row : Purchase) (absent : db.purchases.get key = none)
    (txn : PyStr) :
    ((db.onPurchases fun t => t.upsert key row id).purchases.get txn).map reads =
      if txn = key then some (reads row) else (db.purchases.get txn).map reads := by
  rw [UnlockDb.onPurchases_purchases]
  split
  · next same =>
    rw [same, Table.get_upsert_self, absent]
    rfl
  · next ne => rw [Table.get_upsert_of_ne _ _ _ ne]

/-- Deciding what waits changes nothing but statuses and grants, and removes no row. -/
theorem resolvePending_reads
    (blind : ∀ row status grants, reads { row with status := status, grants := grants } = reads row)
    (txn : PyStr) :
    ((resolvePending catalog userId db).purchases.get txn).map reads =
      (db.purchases.get txn).map reads := by
  have round : ∀ (db : UnlockDb) entry,
      ((resolveOne catalog userId db entry).purchases.get txn).map reads =
        (db.purchases.get txn).map reads := by
    intro db entry
    unfold resolveOne
    split
    · rfl
    · split
      · exact update_reads reads (fun row => blind row .granted _) txn
      · exact update_reads reads (fun row => blind row .refundFlagged row.grants) txn
      · rfl
  unfold resolvePending
  generalize pendingOf userId db = entries
  induction entries generalizing db with
  | nil => rfl
  | cons entry entries ih => exact ih.trans (round db entry)

end

theorem addPrice_same (post : UnlockPost) (row : Purchase) :
    (post.addPrice row).productId = row.productId ∧ (post.addPrice row).grants = row.grants ∧
      (post.addPrice row).status = row.status ∧ (post.addPrice row).revokedAt = row.revokedAt ∧
      (post.addPrice row).userId = row.userId ∧
      (post.addPrice row).originalTransactionId = row.originalTransactionId := by
  unfold UnlockPost.addPrice
  split <;> exact ⟨rfl, rfl, rfl, rfl, rfl, rfl⟩

theorem insertLink_purchases {pair : PyStr × PyStr} {link : AccountLink} {db db' : UnlockDb}
    (inserted : insertLink pair link db = .ok db') : db'.purchases = db.purchases := by
  unfold insertLink at inserted
  split at inserted
  · cases inserted
  · cases inserted
    rfl

theorem linkAccounts_purchases {db : UnlockDb} (source target : PyStr) (link : AccountLink) :
    (linkAccounts source target link db).purchases = db.purchases := by
  unfold linkAccounts
  split <;> rfl

end GhostPour.Purchases

namespace GhostPour.Purchases

/-! ### Histories -/

/-- A transaction that is recorded on an account, or the merge of the two accounts. -/
inductive UnlockEvent where
  | record (now : Instant) (userId : PyStr) (post : UnlockPost)
  | merge (now : Instant) (otid : Option PyStr)

/-- The tables an event leaves. -/
def UnlockEvent.apply (catalog : UnlockCatalog) (anonymous apple : PyStr) (db : UnlockDb) :
    UnlockEvent → UnlockDb
  | .record now userId post => (Purchases.record catalog now userId post db).1
  | .merge now otid => mergePurchases catalog now anonymous apple otid db

/-- The transaction of an event with its product. -/
def UnlockEvent.transaction? : UnlockEvent → Option (PyStr × PyStr)
  | .record _ _ post => some (post.transactionId, post.productId)
  | .merge _ _ => none

/-- The transactions that are posted. -/
def transactionsOf (events : List UnlockEvent) : List (PyStr × PyStr) :=
  events.filterMap UnlockEvent.transaction?

/-- An event of the two accounts. -/
def UnlockEvent.Between (anonymous apple : PyStr) : UnlockEvent → Prop
  | .record _ userId _ => userId = anonymous ∨ userId = apple
  | .merge _ _ => True

def UnlockEvent.isMerge : UnlockEvent → Bool
  | .record _ _ _ => false
  | .merge _ _ => true

/-- A transaction that is not posted by the Apple account. -/
def UnlockEvent.leavesApple (apple : PyStr) : UnlockEvent → Bool
  | .record _ userId _ => userId ≠ apple
  | .merge _ _ => false

/-- What is recorded on the anonymous account is recorded before a merge. -/
def EndsMerged (apple : PyStr) : List UnlockEvent → Prop
  | [] => True
  | event :: events =>
      (event.leavesApple apple = true → events.any UnlockEvent.isMerge = true) ∧
        EndsMerged apple events

/-- Apple's signature fixes the product of a transaction. -/
def Consistent (txns : List (PyStr × PyStr)) : Prop :=
  ∀ one ∈ txns, ∀ two ∈ txns, one.1 = two.1 → one.2 = two.2

/-- What a set of transactions unlocks. -/
inductive Unlocked (catalog : UnlockCatalog) (txns : List (PyStr × PyStr)) : PyStr → Prop where
  | base {txn productId feature : PyStr} {spec : UnlockSpec} (posted : (txn, productId) ∈ txns)
      (named : txn ≠ []) (product : catalog.get productId = some spec) (free : spec.requires = none)
      (grants : feature ∈ spec.unlocks) : Unlocked catalog txns feature
  | upgrade {txn productId feature required : PyStr} {spec : UnlockSpec}
      (posted : (txn, productId) ∈ txns) (named : txn ≠ [])
      (product : catalog.get productId = some spec) (requires : spec.requires = some required)
      (owned : Unlocked catalog txns required) (grants : feature ∈ spec.unlocks) :
      Unlocked catalog txns feature

section
variable {catalog : UnlockCatalog} {txns more : List (PyStr × PyStr)}

theorem Unlocked.mono (grows : txns ⊆ more) {feature : PyStr}
    (unlocked : Unlocked catalog txns feature) : Unlocked catalog more feature := by
  induction unlocked with
  | base posted named product free grants => exact .base (grows posted) named product free grants
  | upgrade posted named product requires _ grants ih =>
      exact .upgrade (grows posted) named product requires ih grants

end

/-! ### What the decision says -/

section
variable {spec : UnlockSpec} {have_ : List PyStr}

theorem decide_granted {grants : List PyStr} (decided : decideUnlock spec have_ = (.granted, grants)) :
    grants = spec.unlocks ∧ ∀ r, spec.requires = some r → r ∈ have_ := by
  unfold decideUnlock at decided
  split at decided
  · next free =>
    cases decided
    refine ⟨rfl, fun r requires => ?_⟩
    rw [free] at requires
    cases requires
  · next required requires =>
    split at decided
    · cases decided
    · split at decided
      · cases decided
      · next met =>
        cases decided
        refine ⟨rfl, fun r same => ?_⟩
        rw [requires, Option.some.injEq] at same
        rw [← same]
        exact not_not.mp met

theorem decide_flagged {grants : List PyStr}
    (decided : decideUnlock spec have_ = (.refundFlagged, grants)) :
    spec.requires ≠ none ∧ ∀ feature ∈ spec.unlocks, feature ∈ have_ := by
  unfold decideUnlock at decided
  split at decided
  · cases decided
  · next required requires =>
    split at decided
    · next all => exact ⟨by simp [requires], all⟩
    · split at decided <;> cases decided

theorem decide_pending {grants : List PyStr}
    (decided : decideUnlock spec have_ = (.pending, grants)) :
    ∃ required, spec.requires = some required ∧ required ∉ have_ := by
  unfold decideUnlock at decided
  split at decided
  · cases decided
  · next required requires =>
    split at decided
    · cases decided
    · split at decided
      · next missing => exact ⟨required, requires, missing⟩
      · cases decided

end

/-- With two features, an upgrade that is granted leaves its account with both, or leaves what the
account did not have before unneeded. -/
theorem all_of_both {required other feature : PyStr} {have_ : List PyStr}
    (features : other ∈ unlockFeatures) (within : feature ∈ unlockFeatures)
    (inFeatures : required ∈ unlockFeatures) (owned : required ∈ have_) (missing : other ∉ have_) :
    feature = required ∨ feature = other := by
  have ne : required ≠ other := by
    rintro rfl
    exact missing owned
  obtain ⟨one, two, pair⟩ : ∃ one two, unlockFeatures = [one, two] := ⟨_, _, rfl⟩
  rw [pair, List.mem_pair] at features within inFeatures
  grind

/-! ### What an account owns -/

section
variable {db db' : UnlockDb}

theorem mem_owned {userId feature : PyStr} :
    feature ∈ owned userId db ↔ feature ∈ unlockFeatures ∧
      ∃ txn row, db.purchases.get txn = some row ∧ row.counts userId = true ∧
        feature ∈ row.grants := by
  simp only [owned, List.mem_filter, List.any_eq_true, Bool.and_eq_true, decide_eq_true_eq]
  constructor
  · rintro ⟨known, ⟨txn, row⟩, member, counts, grants⟩
    exact ⟨known, txn, row, Table.get_of_mem member, counts, grants⟩
  · rintro ⟨known, txn, row, stored, counts, grants⟩
    exact ⟨known, (txn, row), Table.mem_of_get stored, counts, grants⟩

/-- The unlocks are listed in the order of the features. -/
theorem owned_ext {userId other : PyStr}
    (same : ∀ feature, feature ∈ owned userId db ↔ feature ∈ owned other db') :
    owned userId db = owned other db' := by
  unfold owned at same ⊢
  apply List.filter_congr
  intro feature known
  have both := same feature
  simp only [List.mem_filter, known, true_and] at both
  exact Bool.eq_iff_iff.mpr both

/-- A feature some row grants, whoever holds it. -/
def Held (db : UnlockDb) (feature : PyStr) : Prop :=
  ∃ txn row, db.purchases.get txn = some row ∧ row.status = .granted ∧ feature ∈ row.grants

theorem held_of_owned {userId feature : PyStr} (owns : feature ∈ owned userId db) :
    Held db feature := by
  obtain ⟨_, txn, row, stored, counts, grants⟩ := mem_owned.mp owns
  simp only [Purchase.counts, decide_eq_true_eq] at counts
  exact ⟨txn, row, stored, counts.2.1, grants⟩

end

/-! ### What holds between any two events -/

/-- What is known of a stored transaction. -/
structure RowSound (catalog : UnlockCatalog) (anonymous apple : PyStr) (txns : List (PyStr × PyStr))
    (db : UnlockDb) (txn : PyStr) (row : Purchase) (spec : UnlockSpec) : Prop where
  posted : (txn, row.productId) ∈ txns
  named : txn ≠ []
  product : catalog.get row.productId = some spec
  user : row.userId = anonymous ∨ row.userId = apple
  live : row.revokedAt = none
  granted : row.status = .granted →
    row.grants = spec.unlocks ∧ ∀ feature ∈ spec.unlocks, Unlocked catalog txns feature
  flagged : row.status = .refundFlagged → ∀ feature ∈ spec.unlocks, Held db feature
  pending : row.status = .pending → spec.requires ≠ none

/-- A pending upgrade waits for a feature its account does not own, or grants nothing new. -/
def Waits (db : UnlockDb) (row : Purchase) (spec : UnlockSpec) : Prop :=
  ∀ required, spec.requires = some required →
    required ∉ owned row.userId db ∨ ∀ feature ∈ spec.unlocks, Held db feature

/-- The ledger after some events; the upgrades in a list have still to be decided again. -/
structure LedgerSound (catalog : UnlockCatalog) (anonymous apple : PyStr)
    (txns : List (PyStr × PyStr)) (undecided : List PyStr) (db : UnlockDb) : Prop where
  rows : ∀ txn row, db.purchases.get txn = some row →
    ∃ spec, RowSound catalog anonymous apple txns db txn row spec
  waits : ∀ txn row, db.purchases.get txn = some row → row.status = .pending → txn ∉ undecided →
    ∀ spec, catalog.get row.productId = some spec → Waits db row spec

section
variable {catalog : UnlockCatalog} {anonymous apple : PyStr} {txns : List (PyStr × PyStr)}
  {undecided : List PyStr} {db db' : UnlockDb}

/-- Two ledgers whose rows differ in who holds them, and in what nothing depends on. -/
structure Reassigned (db db' : UnlockDb) (holder : PyStr → Purchase → PyStr) : Prop where
  same : ∀ txn, (db'.purchases.get txn).map (fun row => (row.productId, row.grants, row.status,
      row.revokedAt, row.userId)) =
    (db.purchases.get txn).map fun row => (row.productId, row.grants, row.status, row.revokedAt,
      holder txn row)

theorem Reassigned.get {holder : PyStr → Purchase → PyStr} (moved : Reassigned db db' holder)
    {txn : PyStr} {row' : Purchase} (stored : db'.purchases.get txn = some row') :
    ∃ row, db.purchases.get txn = some row ∧ row'.productId = row.productId ∧
      row'.grants = row.grants ∧ row'.status = row.status ∧ row'.revokedAt = row.revokedAt ∧
      row'.userId = holder txn row := by
  have same := moved.same txn
  rw [stored, Option.map_some] at same
  obtain ⟨row, before, eq⟩ := Option.map_eq_some_iff.mp same.symm
  simp only [Prod.mk.injEq] at eq
  obtain ⟨product, grants, status, revoked, user⟩ := eq
  exact ⟨row, before, product.symm, grants.symm, status.symm, revoked.symm, user.symm⟩

theorem Reassigned.get' {holder : PyStr → Purchase → PyStr} (moved : Reassigned db db' holder)
    {txn : PyStr} {row : Purchase} (stored : db.purchases.get txn = some row) :
    ∃ row', db'.purchases.get txn = some row' ∧ row'.grants = row.grants ∧
      row'.status = row.status := by
  have same := moved.same txn
  rw [stored, Option.map_some] at same
  obtain ⟨row', after, eq⟩ := Option.map_eq_some_iff.mp same
  simp only [Prod.mk.injEq] at eq
  exact ⟨row', after, eq.2.1, eq.2.2.1⟩

theorem Reassigned.held {holder : PyStr → Purchase → PyStr} (moved : Reassigned db db' holder)
    {feature : PyStr} (held : Held db feature) : Held db' feature := by
  obtain ⟨txn, row, stored, granted, grants⟩ := held
  obtain ⟨row', after, sameGrants, sameStatus⟩ := moved.get' stored
  exact ⟨txn, row', after, sameStatus.trans granted, sameGrants ▸ grants⟩

/-- Rows that change hands stay what they were; an upgrade has to be decided again where its account
has gained something. -/
theorem LedgerSound.reassign (sound : LedgerSound catalog anonymous apple txns undecided db)
    {holder : PyStr → Purchase → PyStr} (moved : Reassigned db db' holder)
    (users : ∀ txn row, db.purchases.get txn = some row →
      holder txn row = anonymous ∨ holder txn row = apple)
    {undecided' : List PyStr}
    (gains : ∀ txn row, db.purchases.get txn = some row → row.status = .pending →
      txn ∉ undecided' → txn ∉ undecided ∧
        ∀ feature ∈ owned (holder txn row) db', feature ∈ owned row.userId db) :
    LedgerSound catalog anonymous apple txns undecided' db' := by
  refine ⟨fun txn row' stored => ?_, fun txn row' stored pending outside spec product => ?_⟩
  · obtain ⟨row, before, product, grants, status, revoked, user⟩ := moved.get stored
    obtain ⟨spec, row_sound⟩ := sound.rows txn row before
    refine ⟨spec, ?_, row_sound.named, ?_, ?_, ?_, ?_, ?_, ?_⟩
    · rw [product]
      exact row_sound.posted
    · rw [product]
      exact row_sound.product
    · rw [user]
      exact users txn row before
    · rw [revoked]
      exact row_sound.live
    · rw [status, grants]
      exact row_sound.granted
    · rw [status]
      exact fun flagged feature unlocks => moved.held (row_sound.flagged flagged feature unlocks)
    · rw [status]
      exact row_sound.pending
  · obtain ⟨row, before, sameProduct, _, status, _, user⟩ := moved.get stored
    rw [status] at pending
    rw [sameProduct] at product
    obtain ⟨decided, gain⟩ := gains txn row before pending outside
    intro required requires
    rcases sound.waits txn row before pending decided spec product required requires with
      missing | idle
    · left
      rw [user]
      exact fun owns => missing (gain required owns)
    · exact .inr fun feature unlocks => moved.held (idle feature unlocks)

/-! ### One row that is decided -/

/-- The second ledger differs from the first in the row of one transaction. -/
structure Placed (db db' : UnlockDb) (txn : PyStr) (row : Purchase) : Prop where
  here : db'.purchases.get txn = some row
  others : ∀ other, other ≠ txn → db'.purchases.get other = db.purchases.get other

variable {txn userId : PyStr} {row : Purchase} {spec : UnlockSpec}

theorem Placed.held (placed : Placed db db' txn row)
    (fresh : ∀ old, db.purchases.get txn = some old → old.status ≠ .granted) {feature : PyStr}
    (held : Held db feature) : Held db' feature := by
  obtain ⟨other, old, stored, granted, grants⟩ := held
  have ne : other ≠ txn := by
    rintro rfl
    exact fresh old stored granted
  exact ⟨other, old, (placed.others other ne).trans stored, granted, grants⟩

theorem Placed.owned_of (placed : Placed db db' txn row) {feature : PyStr}
    (owns : feature ∈ owned userId db') :
    feature ∈ owned userId db ∨ row.counts userId = true ∧ feature ∈ row.grants := by
  obtain ⟨known, other, held, stored, counts, grants⟩ := mem_owned.mp owns
  rcases eq_or_ne other txn with rfl | ne
  · rw [placed.here] at stored
    cases stored
    exact .inr ⟨counts, grants⟩
  · rw [placed.others other ne] at stored
    exact .inl (mem_owned.mpr ⟨known, other, held, stored, counts, grants⟩)

/-- A row that was not granted before is put in its place. -/
theorem LedgerSound.place (sound : LedgerSound catalog anonymous apple txns undecided db)
    (placed : Placed db db' txn row)
    (fresh : ∀ old, db.purchases.get txn = some old → old.status ≠ .granted)
    (row_sound : RowSound catalog anonymous apple txns db' txn row spec) {undecided' : List PyStr}
    (own : row.status = .pending → txn ∉ undecided' → Waits db' row spec)
    (waits : ∀ other old, other ≠ txn → db.purchases.get other = some old →
      old.status = .pending → other ∉ undecided' → ∀ spec', catalog.get old.productId = some spec' →
        Waits db' old spec') :
    LedgerSound catalog anonymous apple txns undecided' db' := by
  refine ⟨fun other old stored => ?_, fun other old stored pending outside spec' product => ?_⟩
  · rcases eq_or_ne other txn with rfl | ne
    · rw [placed.here] at stored
      cases stored
      exact ⟨spec, row_sound⟩
    · rw [placed.others other ne] at stored
      obtain ⟨spec', old_sound⟩ := sound.rows other old stored
      exact ⟨spec', old_sound.posted, old_sound.named, old_sound.product, old_sound.user,
        old_sound.live, old_sound.granted, fun flagged feature unlocks =>
          placed.held fresh (old_sound.flagged flagged feature unlocks), old_sound.pending⟩
  · rcases eq_or_ne other txn with rfl | ne
    · rw [placed.here] at stored
      cases stored
      rw [row_sound.product] at product
      cases product
      exact own pending outside
    · rw [placed.others other ne] at stored
      exact waits other old ne stored pending outside spec' product

/-- What an account owns, the transactions unlock. -/
theorem LedgerSound.unlocked (sound : LedgerSound catalog anonymous apple txns undecided db)
    {feature : PyStr} (owns : feature ∈ owned userId db) : Unlocked catalog txns feature := by
  obtain ⟨_, other, old, stored, counts, grants⟩ := mem_owned.mp owns
  simp only [Purchase.counts, decide_eq_true_eq] at counts
  obtain ⟨spec', old_sound⟩ := sound.rows other old stored
  obtain ⟨same, unlocked⟩ := old_sound.granted counts.2.1
  rw [same] at grants
  exact unlocked feature grants

/-- The features of a product that is granted are held, and are unlocked by the transactions. -/
theorem LedgerSound.place_granted (sound : LedgerSound catalog anonymous apple txns undecided db)
    (placed : Placed db db' txn row)
    (fresh : ∀ old, db.purchases.get txn = some old → old.status ≠ .granted)
    (posted : (txn, row.productId) ∈ txns) (named : txn ≠ [])
    (product : catalog.get row.productId = some spec)
    (user : row.userId = anonymous ∨ row.userId = apple) (live : row.revokedAt = none)
    (granted : row.status = .granted) (grants : row.grants = spec.unlocks)
    (met : ∀ r, spec.requires = some r → r ∈ owned row.userId db) {undecided' : List PyStr}
    (again : ∀ other old, other ≠ txn → db.purchases.get other = some old →
      old.status = .pending → other ∉ undecided' →
        other ∉ undecided ∧ (old.userId = row.userId → spec.requires ≠ none)) :
    LedgerSound catalog anonymous apple txns undecided' db' := by
  have held : ∀ feature ∈ spec.unlocks, Held db' feature := fun feature unlocks =>
    ⟨txn, row, placed.here, granted, grants ▸ unlocks⟩
  have unlocked : ∀ feature ∈ spec.unlocks, Unlocked catalog txns feature := by
    intro feature unlocks
    rcases requires : spec.requires with _ | r
    · exact .base posted named product requires unlocks
    · exact .upgrade posted named product requires (sound.unlocked (met r requires)) unlocks
  refine sound.place placed fresh
    ⟨posted, named, product, user, live, fun _ => ⟨grants, unlocked⟩, fun flagged => ?_,
      fun pending => ?_⟩ (fun pending => ?_) ?_
  · rw [granted] at flagged
    cases flagged
  · rw [granted] at pending
    cases pending
  · rw [granted] at pending
    cases pending
  · intro other old ne stored pending outside spec' product' r' requires'
    obtain ⟨decided, mine⟩ := again other old ne stored pending outside
    rcases sound.waits other old stored pending decided spec' product' r' requires' with
      missing | idle
    · by_cases owns : r' ∈ owned old.userId db'
      · -- what it waits for has just been granted: its account has both features now
        right
        obtain ⟨counts, gained⟩ := (placed.owned_of owns).resolve_left missing
        simp only [Purchase.counts, decide_eq_true_eq] at counts
        obtain ⟨r, requires⟩ := Option.ne_none_iff_exists'.mp (mine counts.1.symm)
        have base := met r requires
        rw [counts.1] at base
        intro feature unlocks
        rcases all_of_both (mem_owned.mp owns).1
          (by simpa using (List.mem_filter.mp unlocks).2) (mem_owned.mp base).1 base missing with
          rfl | rfl
        · exact placed.held fresh (held_of_owned base)
        · exact held_of_owned owns
      · exact .inl owns
    · exact .inr fun feature unlocks => placed.held fresh (idle feature unlocks)

/-- An upgrade for what is owned already is flagged, and one whose requirement is missing waits:
neither changes what anyone owns. -/
theorem LedgerSound.place_idle (sound : LedgerSound catalog anonymous apple txns undecided db)
    (placed : Placed db db' txn row)
    (fresh : ∀ old, db.purchases.get txn = some old → old.status ≠ .granted)
    (posted : (txn, row.productId) ∈ txns) (named : txn ≠ [])
    (product : catalog.get row.productId = some spec)
    (user : row.userId = anonymous ∨ row.userId = apple) (live : row.revokedAt = none)
    (idle : row.status = .refundFlagged ∧ (∀ feature ∈ spec.unlocks, feature ∈ owned row.userId db) ∨
      row.status = .pending ∧ ∃ r, spec.requires = some r ∧ r ∉ owned row.userId db)
    {undecided' : List PyStr}
    (again : ∀ other old, other ≠ txn → db.purchases.get other = some old →
      old.status = .pending → other ∉ undecided' → other ∉ undecided) :
    LedgerSound catalog anonymous apple txns undecided' db' := by
  have notGranted : row.status ≠ .granted := by
    rcases idle with ⟨status, _⟩ | ⟨status, _⟩ <;> rw [status] <;> decide
  have same : ∀ {userId feature}, feature ∈ owned userId db' → feature ∈ owned userId db := by
    intro userId feature owns
    refine (placed.owned_of owns).resolve_right fun ⟨counts, _⟩ => ?_
    simp only [Purchase.counts, decide_eq_true_eq] at counts
    exact notGranted counts.2.1
  refine sound.place placed fresh
    ⟨posted, named, product, user, live, fun granted => absurd granted notGranted,
      fun flagged => ?_, fun pending => ?_⟩ (fun pending _ => ?_) ?_
  · rcases idle with ⟨_, all⟩ | ⟨status, _⟩
    · exact fun feature unlocks => placed.held fresh (held_of_owned (all feature unlocks))
    · rw [status] at flagged
      cases flagged
  · rcases idle with ⟨status, _⟩ | ⟨_, r, requires, _⟩
    · rw [status] at pending
      cases pending
    · simp [requires]
  · rcases idle with ⟨status, _⟩ | ⟨_, r, requires, missing⟩
    · rw [status] at pending
      cases pending
    · intro r' requires'
      rw [requires] at requires'
      cases requires'
      exact .inl fun owns => missing (same owns)
  · intro other old ne stored pending outside spec' product' r' requires'
    have decided := again other old ne stored pending outside
    rcases sound.waits other old stored pending decided spec' product' r' requires' with
      missing | idle
    · exact .inl fun owns => missing (same owns)
    · exact .inr fun feature unlocks => placed.held fresh (idle feature unlocks)

/-! ### Deciding what waits -/

/-- An entry of the list of pending upgrades. -/
def Entered (userId : PyStr) (db : UnlockDb) (entry : PyStr × PyStr) : Prop :=
  ∃ row, db.purchases.get entry.1 = some row ∧ row.waits userId = true ∧ row.productId = entry.2

theorem update_placed {f : Purchase → Purchase} (stored : db.purchases.get txn = some row) :
    Placed db (db.onPurchases fun t => t.update txn f) txn (f row) where
  here := by rw [UnlockDb.onPurchases_purchases, Table.get_update_self, stored, Option.map_some]
  others other ne := Table.get_update_of_ne _ _ ne

/-- One round decides its own upgrade, and leaves no other to be decided again. -/
theorem LedgerSound.resolveOne (entry : PyStr × PyStr)
    (sound : LedgerSound catalog anonymous apple txns (entry.1 :: undecided) db)
    (entered : Entered userId db entry) :
    LedgerSound catalog anonymous apple txns undecided (resolveOne catalog userId db entry) ∧
      ∀ other, other ≠ entry.1 →
        (Purchases.resolveOne catalog userId db entry).purchases.get other =
          db.purchases.get other := by
  obtain ⟨row, stored, waits, sameProduct⟩ := entered
  simp only [Purchase.waits, decide_eq_true_eq] at waits
  obtain ⟨rfl, pending, live⟩ := waits
  obtain ⟨spec, row_sound⟩ := sound.rows entry.1 row stored
  have fresh : ∀ old, db.purchases.get entry.1 = some old → old.status ≠ .granted := by
    intro old same granted
    rw [stored] at same
    cases same
    rw [pending] at granted
    cases granted
  have product : catalog.get entry.2 = some spec := sameProduct ▸ row_sound.product
  have earlier : ∀ other, other ≠ entry.1 → other ∉ undecided → other ∉ entry.1 :: undecided :=
    fun other ne outside => List.not_mem_cons_of_ne_of_not_mem ne outside
  unfold Purchases.resolveOne
  rw [product]
  simp only
  rcases decided : decideUnlock spec (owned row.userId db) with ⟨status, grants⟩
  cases status with
  | granted =>
      obtain ⟨rfl, met⟩ := decide_granted decided
      have placed := update_placed (f := fun row : Purchase =>
        { row with status := .granted, grants := spec.unlocks }) stored
      refine ⟨sound.place_granted placed fresh row_sound.posted row_sound.named row_sound.product
        row_sound.user live rfl rfl met ?_, placed.others⟩
      exact fun other old ne _ _ outside => ⟨earlier other ne outside,
        fun _ => row_sound.pending pending⟩
  | refundFlagged =>
      have placed := update_placed (f := fun row : Purchase =>
        { row with status := .refundFlagged }) stored
      refine ⟨sound.place_idle placed fresh row_sound.posted row_sound.named row_sound.product
        row_sound.user live (.inl ⟨rfl, (decide_flagged decided).2⟩) ?_, placed.others⟩
      exact fun other old ne _ _ outside => earlier other ne outside
  | pending =>
      obtain ⟨r, requires, missing⟩ := decide_pending decided
      refine ⟨sound.place_idle ⟨stored, fun _ _ => rfl⟩ fresh row_sound.posted row_sound.named
        row_sound.product row_sound.user live (.inr ⟨pending, r, requires, missing⟩) ?_,
        fun _ _ => rfl⟩
      exact fun other old ne _ _ outside => earlier other ne outside

/-- The rounds decide every upgrade of the list. -/
theorem LedgerSound.resolve_rounds (entries : List (PyStr × PyStr)) :
    ∀ {db : UnlockDb}, LedgerSound catalog anonymous apple txns (entries.map Prod.fst) db →
      (∀ entry ∈ entries, Entered userId db entry) → (entries.map Prod.fst).Nodup →
      LedgerSound catalog anonymous apple txns []
        (entries.foldl (Purchases.resolveOne catalog userId) db) := by
  induction entries with
  | nil => exact fun sound _ _ => sound
  | cons entry entries ih =>
      intro db sound entered distinct
      rw [List.map_cons, List.nodup_cons] at distinct
      obtain ⟨next, others⟩ := sound.resolveOne entry (entered entry List.mem_cons_self)
      refine ih next (fun other member => ?_) distinct.2
      obtain ⟨row, stored, waits⟩ := entered other (List.mem_cons_of_mem _ member)
      refine ⟨row, ?_, waits⟩
      rw [others other.1, stored]
      rintro same
      exact distinct.1 (same ▸ List.mem_map_of_mem member)

theorem mem_pendingOf {entry : PyStr × PyStr} :
    entry ∈ pendingOf userId db ↔ Entered userId db entry := by
  unfold pendingOf Entered Table.select
  constructor
  · intro member
    obtain ⟨⟨other, row⟩, picked, rfl⟩ := List.mem_map.mp member
    obtain ⟨stored, waits⟩ := List.mem_filter.mp (List.mem_mergeSort.mp picked)
    exact ⟨row, Table.get_of_mem stored, waits, rfl⟩
  · rintro ⟨row, stored, waits, product⟩
    refine List.mem_map.mpr ⟨(entry.1, row), List.mem_mergeSort.mpr ?_, by rw [product]⟩
    exact List.mem_filter.mpr ⟨Table.mem_of_get stored, waits⟩

theorem pendingOf_nodup : ((pendingOf userId db).map Prod.fst).Nodup := by
  unfold pendingOf
  rw [List.map_map]
  have order := List.mergeSort_perm (db.purchases.select fun _ row => row.waits userId)
    fun one two => one.2.recordedAt ≤ two.2.recordedAt
  refine ((order.map _).nodup_iff).mpr ?_
  exact db.purchases.nodup.sublist (List.filter_sublist.map Prod.fst)

/-- After `_resolve_pending` of an account nothing of it has to be decided again. -/
theorem LedgerSound.resolvePending
    (sound : LedgerSound catalog anonymous apple txns ((pendingOf userId db).map Prod.fst) db) :
    LedgerSound catalog anonymous apple txns [] (resolvePending catalog userId db) :=
  sound.resolve_rounds _ (fun _ member => mem_pendingOf.mp member) pendingOf_nodup

/-! ### What deciding leaves alone -/

/-- No row disappears, and no row changes hands. -/
structure Stays (db db' : UnlockDb) : Prop where
  user : ∀ txn, (db'.purchases.get txn).map Purchase.userId =
    (db.purchases.get txn).map Purchase.userId

theorem resolvePending_stays : Stays db (resolvePending catalog userId db) :=
  ⟨resolvePending_reads _ fun _ _ _ => rfl⟩

/-! ### Recording and merging -/

/-- Ledgers with the same purchases. -/
theorem reassigned_of_eq (same : db'.purchases = db.purchases) :
    Reassigned db db' fun _ row => row.userId :=
  ⟨fun txn => by rw [same]⟩

/-- An update that touches nothing but who holds a row. -/
theorem update_reassigned {p : PyStr → Purchase → Bool} {f : Purchase → Purchase}
    (update : db'.purchases = db.purchases.updateWhere p f)
    (same : ∀ row, (f row).productId = row.productId ∧ (f row).grants = row.grants ∧
      (f row).status = row.status ∧ (f row).revokedAt = row.revokedAt) :
    Reassigned db db' fun txn row => if p txn row then (f row).userId else row.userId := by
  refine ⟨fun txn => ?_⟩
  rw [update, Table.get_updateWhere, Option.map_map]
  refine congrArg (fun g => Option.map g (db.purchases.get txn)) (funext fun row => ?_)
  rw [Function.comp_apply]
  split
  · obtain ⟨product, grants, status, revoked⟩ := same row
    rw [product, grants, status, revoked]
  · rfl

/-- What an account owns depends on who holds the granted rows. -/
theorem Reassigned.owned_of {holder : PyStr → Purchase → PyStr} (moved : Reassigned db db' holder)
    (keeps : ∀ txn row, db.purchases.get txn = some row → holder txn row = userId →
      row.userId = userId) {feature : PyStr} (owns : feature ∈ owned userId db') :
    feature ∈ owned userId db := by
  obtain ⟨known, txn, row', stored, counts, grants⟩ := mem_owned.mp owns
  obtain ⟨row, before, _, sameGrants, status, revoked, user⟩ := moved.get stored
  simp only [Purchase.counts, decide_eq_true_eq] at counts
  refine mem_owned.mpr ⟨known, txn, row, before, ?_, sameGrants ▸ grants⟩
  simp only [Purchase.counts, decide_eq_true_eq]
  exact ⟨keeps txn row before (user.symm.trans counts.1), status.symm.trans counts.2.1,
    revoked.symm.trans counts.2.2⟩

/-- Rows that stay where they are. -/
theorem LedgerSound.keep (sound : LedgerSound catalog anonymous apple txns undecided db)
    (moved : Reassigned db db' fun _ row => row.userId) :
    LedgerSound catalog anonymous apple txns undecided db' := by
  refine sound.reassign moved (fun txn row stored => ?_) fun other row stored pending outside =>
    ⟨outside, fun feature => moved.owned_of fun _ _ _ h => h⟩
  obtain ⟨spec, row_sound⟩ := sound.rows txn row stored
  exact row_sound.user

/-- A price changes nothing else. -/
theorem LedgerSound.addPrice (sound : LedgerSound catalog anonymous apple txns undecided db)
    (post : UnlockPost) :
    LedgerSound catalog anonymous apple txns undecided
      (db.onPurchases fun t => t.update txn post.addPrice) := by
  refine sound.keep ⟨fun other => ?_⟩
  rw [UnlockDb.onPurchases_purchases, Table.get_update]
  split
  · rw [Option.map_map]
    refine congrArg (fun g => Option.map g (db.purchases.get other)) (funext fun row => ?_)
    obtain ⟨product, grants, status, revoked, user, _⟩ := addPrice_same post row
    rw [Function.comp_apply, product, grants, status, revoked, user]
  · rfl

theorem mem_pending_keys (stored : db.purchases.get txn = some row)
    (waits : row.waits userId = true) : txn ∈ (pendingOf userId db).map Prod.fst :=
  List.mem_map.mpr ⟨(txn, row.productId), mem_pendingOf.mpr ⟨row, stored, waits, rfl⟩, rfl⟩

/-- The account that rows move to decides its pending upgrades again; others only lose. -/
theorem LedgerSound.move (sound : LedgerSound catalog anonymous apple txns [] db)
    (between : userId = anonymous ∨ userId = apple) {p : PyStr → Purchase → Bool}
    (update : db'.purchases = db.purchases.updateWhere p fun row => { row with userId := userId }) :
    LedgerSound catalog anonymous apple txns [] (Purchases.resolvePending catalog userId db') := by
  have moved := update_reassigned update fun row => ⟨rfl, rfl, rfl, rfl⟩
  have after : ∀ other row, db.purchases.get other = some row →
      db'.purchases.get other = some (if p other row then { row with userId := userId } else row) := by
    intro other row stored
    rw [update, Table.get_updateWhere, stored, Option.map_some]
  refine LedgerSound.resolvePending (sound.reassign moved (fun other row stored => ?_) ?_)
  · split
    · exact between
    · obtain ⟨spec, row_sound⟩ := sound.rows other row stored
      exact row_sound.user
  · intro other row stored pending outside
    refine ⟨List.not_mem_nil, fun feature => ?_⟩
    obtain ⟨spec, row_sound⟩ := sound.rows other row stored
    have stored' := after other row stored
    by_cases moves : p other row = true
    · -- a pending row that moves is decided again
      rw [if_pos moves] at stored'
      exact absurd (mem_pending_keys stored' (by simp [Purchase.waits, pending, row_sound.live]))
        outside
    · rw [if_neg moves] at stored'
      have elsewhere : row.userId ≠ userId := by
        rintro rfl
        exact outside (mem_pending_keys stored'
          (by simp [Purchase.waits, pending, row_sound.live]))
      rw [if_neg moves]
      apply moved.owned_of
      intro one held _ holds
      split at holds
      · exact absurd holds.symm elsewhere
      · exact holds

/-- A new transaction. -/
theorem LedgerSound.recordNew (sound : LedgerSound catalog anonymous apple txns [] db)
    (between : userId = anonymous ∨ userId = apple) (now : Instant) {post : UnlockPost}
    (posted : (post.transactionId, post.productId) ∈ txns) (named : post.transactionId ≠ [])
    (product : catalog.get post.productId = some spec)
    (absent : db.purchases.get post.transactionId = none) :
    LedgerSound catalog anonymous apple txns []
      (Purchases.recordNew catalog now userId post spec db).1 := by
  have placed : ∀ row, Placed db (db.onPurchases fun t => t.upsert post.transactionId row id)
      post.transactionId row := fun row =>
    ⟨by rw [UnlockDb.onPurchases_purchases, Table.get_upsert_self, absent]; rfl,
      fun other ne => Table.get_upsert_of_ne _ _ _ ne⟩
  have fresh : ∀ old, db.purchases.get post.transactionId = some old → old.status ≠ .granted := by
    intro old stored
    rw [absent] at stored
    cases stored
  unfold Purchases.recordNew
  rcases decided : decideUnlock spec (owned userId db) with ⟨status, grants⟩
  cases status with
  | granted =>
      obtain ⟨rfl, met⟩ := decide_granted decided
      simp only [if_true]
      refine LedgerSound.resolvePending (sound.place_granted (placed _) fresh posted named product
        between rfl rfl rfl met ?_)
      intro other old ne stored pending outside
      refine ⟨List.not_mem_nil, fun same => absurd ?_ outside⟩
      obtain ⟨spec', old_sound⟩ := sound.rows other old stored
      rw [← (placed _).others other ne] at stored
      exact mem_pending_keys stored (by simp [Purchase.waits, pending, old_sound.live, same])
  | refundFlagged =>
      simp only [reduceCtorEq, if_false]
      exact sound.place_idle (placed _) fresh posted named product between rfl
        (.inl ⟨rfl, (decide_flagged decided).2⟩) fun _ _ _ _ _ outside => outside
  | pending =>
      simp only [reduceCtorEq, if_false]
      exact sound.place_idle (placed _) fresh posted named product between rfl
        (.inr ⟨rfl, decide_pending decided⟩) fun _ _ _ _ _ outside => outside

/-- `record` keeps the ledger sound, whether it returns or raises. -/
theorem LedgerSound.record (sound : LedgerSound catalog anonymous apple txns [] db)
    (between : userId = anonymous ∨ userId = apple) (now : Instant) {post : UnlockPost}
    (posted : (post.transactionId, post.productId) ∈ txns) :
    LedgerSound catalog anonymous apple txns [] (Purchases.record catalog now userId post db).1 := by
  unfold Purchases.record
  split
  · exact sound
  · next spec product =>
    split
    · exact sound
    · next named =>
      split
      · next row stored =>
        have priced : LedgerSound catalog anonymous apple txns []
            (db.onPurchases fun t => t.update post.transactionId post.addPrice) :=
          sound.addPrice post
        unfold recordAgain
        simp only
        split
        · exact priced
        · split
          · exact priced
          · next moved inserted =>
            exact priced.move between (insertLink_purchases inserted)
      · next absent => exact sound.recordNew between now posted named product absent

/-- A merge keeps the ledger sound. -/
theorem LedgerSound.merge (sound : LedgerSound catalog anonymous apple txns [] db) (now : Instant)
    (otid : Option PyStr) :
    LedgerSound catalog anonymous apple txns []
      (mergePurchases catalog now anonymous apple otid db) := by
  unfold mergePurchases
  refine LedgerSound.keep ?_ (reassigned_of_eq (linkAccounts_purchases _ _ _))
  split
  · exact sound.move (.inr rfl) rfl
  · next unmoved =>
    refine sound.keep ⟨fun txn => ?_⟩
    rw [UnlockDb.onPurchases_purchases, Table.get_updateWhere]
    rcases stored : db.purchases.get txn with _ | row
    · rfl
    · have stays : row.userId ≠ anonymous := by
        intro same
        exact unmoved (List.any_eq_true.mpr ⟨_, Table.mem_of_get stored, by simpa using same⟩)
      simp [stays]

/-! ### What every event keeps -/

section
variable (catalog anonymous apple db userId)

/-- The account of a row after a new transaction. -/
theorem recordNew_user (now : Instant) {post : UnlockPost} (spec : UnlockSpec)
    (absent : db.purchases.get post.transactionId = none) (txn : PyStr) :
    ((recordNew catalog now userId post spec db).1.purchases.get txn).map Purchase.userId =
      if txn = post.transactionId then some userId
      else (db.purchases.get txn).map Purchase.userId := by
  unfold recordNew
  simp only
  split
  · rw [resolvePending_stays.user txn]
    exact insert_reads _ _ absent txn
  · exact insert_reads _ _ absent txn

/-- The account of a row after a transaction that was stored. -/
theorem recordAgain_user (now : Instant) (post : UnlockPost) (prevUser : PyStr)
    (stored : db.purchases.get post.transactionId ≠ none) (txn : PyStr) :
    ((recordAgain catalog now userId post prevUser db).1.purchases.get txn).map Purchase.userId =
        (db.purchases.get txn).map Purchase.userId ∨
      ((recordAgain catalog now userId post prevUser db).1.purchases.get txn).map Purchase.userId =
        some userId := by
  have priced : Stays db (db.onPurchases fun t => t.update post.transactionId post.addPrice) :=
    ⟨update_reads _ fun row => (addPrice_same post row).2.2.2.2.1⟩
  unfold recordAgain
  simp only
  split
  · exact .inl (priced.user txn)
  · split
    · exact .inl (priced.user txn)
    · next moved inserted =>
      have decided : Stays moved (resolvePending catalog userId moved) := resolvePending_stays
      simp only
      rw [decided.user txn, insertLink_purchases inserted, UnlockDb.onPurchases_purchases,
        Table.get_update]
      split
      · next same =>
        right
        obtain ⟨row, there⟩ := Option.ne_none_iff_exists'.mp stored
        rw [same, UnlockDb.onPurchases_purchases, Table.get_update_self, there]
        rfl
      · exact .inl (priced.user txn)

/-- The account of a row after a record: the one it had, or the one that posts it. -/
theorem record_user (now : Instant) (post : UnlockPost) (txn : PyStr) :
    ((record catalog now userId post db).1.purchases.get txn).map Purchase.userId =
        (db.purchases.get txn).map Purchase.userId ∨
      ((record catalog now userId post db).1.purchases.get txn).map Purchase.userId =
        some userId := by
  unfold record
  split
  · exact .inl rfl
  · next spec product =>
    split
    · exact .inl rfl
    · split
      · next row stored => exact recordAgain_user catalog db userId now post row.userId (by simp [stored]) txn
      · next absent =>
        rw [recordNew_user catalog db userId now spec absent txn]
        split
        · exact .inr rfl
        · exact .inl rfl

/-- An unlock is stored once it was posted. -/
theorem record_stores (now : Instant) (post : UnlockPost) (named : post.transactionId ≠ [])
    (unlock : catalog.get post.productId ≠ none) :
    (record catalog now userId post db).1.purchases.get post.transactionId ≠ none := by
  obtain ⟨spec, product⟩ := Option.ne_none_iff_exists'.mp unlock
  unfold record
  rw [product]
  simp only
  rw [if_neg named]
  split
  · next row stored =>
    intro gone
    rcases recordAgain_user catalog db userId now post row.userId (by simp [stored])
      post.transactionId with same | own
    · rw [gone, stored] at same
      cases same
    · rw [gone] at own
      cases own
  · next absent =>
    intro gone
    have own := recordNew_user catalog db userId now spec absent post.transactionId
    rw [gone, if_pos rfl] at own
    cases own

/-- The account of a row after a merge. -/
theorem merge_user (now : Instant) (otid : Option PyStr) (txn : PyStr) :
    ((mergePurchases catalog now anonymous apple otid db).purchases.get txn).map Purchase.userId =
      (db.purchases.get txn).map fun row =>
        if row.userId = anonymous then apple else row.userId := by
  have moved : ((db.onPurchases fun t => t.updateWhere (fun _ row => row.userId = anonymous)
      fun row => { row with userId := apple }).purchases.get txn).map Purchase.userId =
        (db.purchases.get txn).map fun row =>
          if row.userId = anonymous then apple else row.userId := by
    rw [UnlockDb.onPurchases_purchases, Table.get_updateWhere, Option.map_map]
    refine congrArg (fun g => Option.map g (db.purchases.get txn)) (funext fun row => ?_)
    rw [Function.comp_apply]
    by_cases own : row.userId = anonymous <;> simp [own]
  unfold mergePurchases
  rw [linkAccounts_purchases]
  split
  · rw [resolvePending_stays.user txn]
    exact moved
  · exact moved

end

/-- No event removes a row. -/
theorem apply_keeps (event : UnlockEvent) (stored : db.purchases.get txn ≠ none) :
    (event.apply catalog anonymous apple db).purchases.get txn ≠ none := by
  obtain ⟨row, there⟩ := Option.ne_none_iff_exists'.mp stored
  intro gone
  cases event with
  | record now userId post =>
      rcases record_user catalog db userId now post txn with same | own
      · rw [show (record catalog now userId post db).1.purchases.get txn = none from gone,
          there] at same
        cases same
      · rw [show (record catalog now userId post db).1.purchases.get txn = none from gone] at own
        cases own
  | merge now otid =>
      have user := merge_user catalog anonymous apple db now otid txn
      rw [show (mergePurchases catalog now anonymous apple otid db).purchases.get txn = none
        from gone, there] at user
      cases user

end

/-! ### Runs -/

section
variable {catalog : UnlockCatalog} {anonymous apple : PyStr} {txns : List (PyStr × PyStr)}
  {db : UnlockDb}

/-- Every row is of the Apple account. -/
def AllOn (apple : PyStr) (db : UnlockDb) : Prop :=
  ∀ txn row, db.purchases.get txn = some row → row.userId = apple

/-- The tables after a list of events. -/
def runEvents (catalog : UnlockCatalog) (anonymous apple : PyStr) (events : List UnlockEvent)
    (db : UnlockDb) : UnlockDb :=
  events.foldl (UnlockEvent.apply catalog anonymous apple) db

theorem LedgerSound.run (events : List UnlockEvent) :
    ∀ {db : UnlockDb}, LedgerSound catalog anonymous apple txns [] db →
      (∀ event ∈ events, event.Between anonymous apple) → transactionsOf events ⊆ txns →
      LedgerSound catalog anonymous apple txns [] (runEvents catalog anonymous apple events db) := by
  induction events with
  | nil => exact fun sound _ _ => sound
  | cons event events ih =>
      intro db sound between posted
      have rest : transactionsOf events ⊆ txns := fun t member =>
        posted (List.mem_filterMap.mpr (by
          obtain ⟨e, later, eq⟩ := List.mem_filterMap.mp member
          exact ⟨e, List.mem_cons_of_mem _ later, eq⟩))
      have next : LedgerSound catalog anonymous apple txns []
          (event.apply catalog anonymous apple db) := by
        cases event with
        | record now userId post =>
            exact sound.record (between _ List.mem_cons_self) now
              (posted (List.mem_filterMap.mpr ⟨_, List.mem_cons_self, rfl⟩))
        | merge now otid => exact sound.merge now otid
      exact ih next (fun e member => between e (List.mem_cons_of_mem _ member)) rest

theorem run_keeps (events : List UnlockEvent) {txn : PyStr} :
    ∀ {db : UnlockDb}, db.purchases.get txn ≠ none →
      (runEvents catalog anonymous apple events db).purchases.get txn ≠ none := by
  induction events with
  | nil => exact fun stored => stored
  | cons event events ih => exact fun stored => ih (apply_keeps event stored)

/-- Every unlock that was posted is stored in the end. -/
theorem run_stores (events : List UnlockEvent) {txn productId : PyStr} (named : txn ≠ [])
    (unlock : catalog.get productId ≠ none) :
    ∀ {db : UnlockDb}, (txn, productId) ∈ transactionsOf events →
      (runEvents catalog anonymous apple events db).purchases.get txn ≠ none := by
  induction events with
  | nil =>
      intro db posted
      cases posted
  | cons event events ih =>
      intro db posted
      obtain ⟨e, member, eq⟩ := List.mem_filterMap.mp posted
      rcases List.mem_cons.mp member with rfl | later
      · cases e with
        | merge now otid => cases eq
        | record now userId post =>
            cases eq
            exact run_keeps events (record_stores catalog db userId now post named unlock)
      · exact ih (List.mem_filterMap.mpr ⟨e, later, eq⟩)

/-- What is recorded before the last merge or by the Apple account ends on the Apple account. -/
theorem run_allOn (events : List UnlockEvent) :
    ∀ {db : UnlockDb}, LedgerSound catalog anonymous apple txns [] db →
      (∀ event ∈ events, event.Between anonymous apple) → transactionsOf events ⊆ txns →
      EndsMerged apple events → (AllOn apple db ∨ events.any UnlockEvent.isMerge = true) →
      AllOn apple (runEvents catalog anonymous apple events db) := by
  induction events with
  | nil =>
      intro db _ _ _ _ all
      exact all.resolve_right (by simp)
  | cons event events ih =>
      intro db sound between posted merged all
      have next := sound.run [event] (fun e member => between e (by
        rw [List.mem_singleton.mp member]
        exact List.mem_cons_self)) (fun t member => posted (by
          obtain ⟨e, here, eq⟩ := List.mem_filterMap.mp member
          rw [List.mem_singleton.mp here] at eq
          exact List.mem_filterMap.mpr ⟨_, List.mem_cons_self, eq⟩))
      refine ih next (fun e member => between e (List.mem_cons_of_mem _ member))
        (fun t member => posted (by
          obtain ⟨e, later, eq⟩ := List.mem_filterMap.mp member
          exact List.mem_filterMap.mpr ⟨e, List.mem_cons_of_mem _ later, eq⟩)) merged.2 ?_
      cases event with
      | merge now otid =>
          left
          intro txn row stored
          have user := merge_user catalog anonymous apple db now otid txn
          rw [show (mergePurchases catalog now anonymous apple otid db).purchases.get txn = some row
            from stored] at user
          obtain ⟨before, there, eq⟩ := Option.map_eq_some_iff.mp user.symm
          obtain ⟨spec, row_sound⟩ := sound.rows txn before there
          rw [← eq]
          split
          · rfl
          · next other => exact row_sound.user.resolve_left other
      | record now userId post =>
          by_cases own : userId = apple
          · rcases all with all | later
            · left
              intro txn row stored
              rcases record_user catalog db userId now post txn with same | posts
              · rw [show (record catalog now userId post db).1.purchases.get txn = some row
                  from stored] at same
                obtain ⟨before, there, eq⟩ := Option.map_eq_some_iff.mp same.symm
                rw [← eq]
                exact all txn before there
              · rw [show (record catalog now userId post db).1.purchases.get txn = some row
                  from stored] at posts
                exact (Option.some.inj posts).trans own
            · exact .inr later
          · exact .inr (merged.1 (by simpa [UnlockEvent.leavesApple] using own))

/-- The tables before any purchase. -/
theorem LedgerSound.start (links : Table (PyStr × PyStr) AccountLink) :
    LedgerSound catalog anonymous apple txns [] ⟨⟨[], List.nodup_nil⟩, links⟩ := by
  refine ⟨fun txn row stored => ?_, fun txn row stored => ?_⟩ <;> cases stored

/-- A sound ledger with every unlock on one account owns what the transactions unlock. -/
theorem LedgerSound.owns (sound : LedgerSound catalog anonymous apple txns [] db)
    (all : AllOn apple db) (consistent : Consistent txns)
    (stored : ∀ txn productId, (txn, productId) ∈ txns → txn ≠ [] → catalog.get productId ≠ none →
      db.purchases.get txn ≠ none) (feature : PyStr) :
    feature ∈ owned apple db ↔ Unlocked catalog txns feature := by
  refine ⟨sound.unlocked, fun unlocked => ?_⟩
  have owns : ∀ {txn productId spec}, (txn, productId) ∈ txns → txn ≠ [] →
      catalog.get productId = some spec →
      (∀ r, spec.requires = some r → r ∈ owned apple db) →
      ∀ feature ∈ spec.unlocks, feature ∈ owned apple db := by
    intro txn productId spec posted named product met feature unlocks
    have held : Held db feature := by
      obtain ⟨row, there⟩ := Option.ne_none_iff_exists'.mp
        (stored txn productId posted named (by simp [product]))
      obtain ⟨spec', row_sound⟩ := sound.rows txn row there
      have same := consistent _ row_sound.posted _ posted rfl
      simp only at same
      have product' := row_sound.product
      rw [same, product, Option.some.injEq] at product'
      subst product'
      rcases status : row.status with _ | _ | _
      · exact ⟨txn, row, there, status, (row_sound.granted status).1 ▸ unlocks⟩
      · obtain ⟨r, requires⟩ := Option.ne_none_iff_exists'.mp (row_sound.pending status)
        rcases sound.waits txn row there status List.not_mem_nil spec row_sound.product r requires
          with missing | idle
        · rw [all txn row there] at missing
          exact absurd (met r requires) missing
        · exact idle feature unlocks
      · exact row_sound.flagged status feature unlocks
    obtain ⟨txn', row, there, granted, grants⟩ := held
    obtain ⟨spec', row_sound⟩ := sound.rows txn' row there
    refine mem_owned.mpr ⟨by simpa using (List.mem_filter.mp unlocks).2, txn', row, there, ?_, grants⟩
    simp [Purchase.counts, all txn' row there, granted, row_sound.live]
  induction unlocked with
  | base posted named product free grants =>
      refine owns posted named product (fun r requires => ?_) _ grants
      rw [free] at requires
      cases requires
  | upgrade posted named product requires _ grants ih =>
      refine owns posted named product (fun r same => ?_) _ grants
      rw [requires, Option.some.injEq] at same
      rw [← same]
      exact ih

end

/-- The Apple account ends with what the set of transactions unlocks. -/
theorem owned_iff_unlocked (catalog : UnlockCatalog) (anonymous apple : PyStr)
    (links : Table (PyStr × PyStr) AccountLink) (events : List UnlockEvent)
    (between : ∀ event ∈ events, event.Between anonymous apple) (merged : EndsMerged apple events)
    (consistent : Consistent (transactionsOf events)) (feature : PyStr) :
    feature ∈ owned apple
        (runEvents catalog anonymous apple events ⟨⟨[], List.nodup_nil⟩, links⟩) ↔
      Unlocked catalog (transactionsOf events) feature := by
  have start : LedgerSound catalog anonymous apple (transactionsOf events) []
      ⟨⟨[], List.nodup_nil⟩, links⟩ := .start links
  have all : AllOn apple ⟨⟨[], List.nodup_nil⟩, links⟩ := by
    intro txn row stored
    cases stored
  exact (start.run events between (List.Subset.refl _)).owns
    (run_allOn events start between (List.Subset.refl _) merged (.inl all)) consistent
    (fun txn productId posted named unlock => run_stores events named unlock posted) feature

/-- However the transactions of a set are posted by the two accounts and the accounts are merged, as
long as a merge follows what the anonymous account posts, the Apple account ends with the same
unlocks: the least set the transactions add to, where an upgrade adds its features only when what it
requires is in the set. -/
theorem unlocks_determined_by_transactions (catalog : UnlockCatalog) (anonymous apple : PyStr)
    (links links' : Table (PyStr × PyStr) AccountLink) (events events' : List UnlockEvent)
    (between : ∀ event ∈ events, event.Between anonymous apple) (merged : EndsMerged apple events)
    (between' : ∀ event ∈ events', event.Between anonymous apple) (merged' : EndsMerged apple events')
    (consistent : Consistent (transactionsOf events))
    (same : ∀ t, t ∈ transactionsOf events ↔ t ∈ transactionsOf events') :
    let final := runEvents catalog anonymous apple events ⟨⟨[], List.nodup_nil⟩, links⟩
    owned apple final =
        owned apple (runEvents catalog anonymous apple events' ⟨⟨[], List.nodup_nil⟩, links'⟩) ∧
      (∀ feature, feature ∈ owned apple final ↔ Unlocked catalog (transactionsOf events) feature) ∧
      ∀ feature ∈ owned apple final, ∃ t ∈ transactionsOf events, ∃ spec,
        catalog.get t.2 = some spec ∧ feature ∈ spec.unlocks ∧
          ∀ required, spec.requires = some required → required ∈ owned apple final := by
  intro final
  have one := owned_iff_unlocked catalog anonymous apple links events between merged consistent
  have consistent' : Consistent (transactionsOf events') := fun t member u member' =>
    consistent t ((same t).mpr member) u ((same u).mpr member')
  have two := owned_iff_unlocked catalog anonymous apple links' events' between' merged' consistent'
  refine ⟨owned_ext fun feature => ?_, one, fun feature owns => ?_⟩
  · rw [one feature, two feature]
    exact ⟨Unlocked.mono fun t member => (same t).mp member,
      Unlocked.mono fun t member => (same t).mpr member⟩
  · cases (one feature).mp owns with
    | base posted named product free grants =>
        refine ⟨_, posted, _, product, grants, fun required requires => ?_⟩
        rw [free] at requires
        cases requires
    | upgrade posted named product requires owned grants =>
        refine ⟨_, posted, _, product, grants, fun required same => ?_⟩
        rw [requires, Option.some.injEq] at same
        rw [← same]
        exact (one _).mpr owned

/-! ### An upgrade before its base, and an upgrade too many -/

/-- A post of a product of `unlocks.yml`. -/
def postOf (transactionId : PyStr) (product : PyStr) : UnlockPost :=
  ⟨transactionId, py "com.weirtech.shouldersurf.unlock." ++ product, none, none, none⟩

/-- An upgrade is posted signed out, and its base by the Apple account before they are merged. -/
def upgradeFirst : List UnlockEvent :=
  [ .record 1 (py "a") (postOf (py "t1") (py "applecloud.upgrade")),
    .record 2 (py "p") (postOf (py "t2") (py "byok")), .merge 3 none ]

/-- The same transactions, all posted by the Apple account, with the base first. -/
def baseFirst : List UnlockEvent :=
  [ .record 1 (py "p") (postOf (py "t2") (py "byok")),
    .record 2 (py "p") (postOf (py "t1") (py "applecloud.upgrade")),
    .record 3 (py "p") (postOf (py "t2") (py "byok")) ]

/-- The theorem at these histories. -/
theorem unlocks_determined_by_transactions_upgrade :
    owned (py "p") (runEvents unlocksYml (py "a") (py "p") upgradeFirst
        ⟨⟨[], List.nodup_nil⟩, ⟨[], List.nodup_nil⟩⟩) = unlockFeatures ∧
      owned (py "p") (runEvents unlocksYml (py "a") (py "p") baseFirst
        ⟨⟨[], List.nodup_nil⟩, ⟨[], List.nodup_nil⟩⟩) = unlockFeatures := by
  have between : ∀ event ∈ upgradeFirst, event.Between (py "a") (py "p") := by
    simp [upgradeFirst, UnlockEvent.Between]
  have between' : ∀ event ∈ baseFirst, event.Between (py "a") (py "p") := by
    simp [baseFirst, UnlockEvent.Between]
  have merged : EndsMerged (py "p") upgradeFirst := by
    refine ⟨fun _ => rfl, fun away => ?_, fun away => ?_, trivial⟩
    · exact absurd away (by decide)
    · exact absurd away (by decide)
  have merged' : EndsMerged (py "p") baseFirst := by
    refine ⟨fun away => ?_, fun away => ?_, fun away => ?_, trivial⟩ <;>
      exact absurd away (by decide)
  have consistent : Consistent (transactionsOf upgradeFirst) := by
    unfold Consistent
    decide +kernel
  have same : ∀ t, t ∈ transactionsOf upgradeFirst ↔ t ∈ transactionsOf baseFirst := by
    intro t
    simp only [transactionsOf, upgradeFirst, baseFirst, List.filterMap_cons, List.filterMap_nil,
      UnlockEvent.transaction?, List.mem_cons, List.not_mem_nil, or_false, postOf]
    tauto
  obtain ⟨equal, _, _⟩ := unlocks_determined_by_transactions unlocksYml (py "a") (py "p")
    ⟨[], List.nodup_nil⟩ ⟨[], List.nodup_nil⟩ upgradeFirst baseFirst between merged between' merged'
    consistent same
  have both : owned (py "p") (runEvents unlocksYml (py "a") (py "p") upgradeFirst
      ⟨⟨[], List.nodup_nil⟩, ⟨[], List.nodup_nil⟩⟩) = unlockFeatures := by decide +kernel
  exact ⟨both, equal.symm.trans both⟩

/-- A pack is bought, and then its upgrade, which is flagged for a refund. -/
def needlessUpgrade : List UnlockEvent :=
  [ .record 1 (py "p") (postOf (py "t1") (py "applecloud")),
    .record 2 (py "p") (postOf (py "t2") (py "applecloud.upgrade")), .merge 3 none ]

/-- The target of the upgrade is owned, and what it requires is not. -/
theorem target_owned_without_base :
    owned (py "p") (runEvents unlocksYml (py "a") (py "p") needlessUpgrade
        ⟨⟨[], List.nodup_nil⟩, ⟨[], List.nodup_nil⟩⟩) = [py "unlock_apple_cloud"] ∧
      (unlocksYml.get (postOf (py "t2") (py "applecloud.upgrade")).productId).map
          (fun spec => (spec.unlocks, spec.requires)) =
        some ([py "unlock_apple_cloud"], some (py "unlock_byok")) := by
  decide +kernel

end GhostPour.Purchases
