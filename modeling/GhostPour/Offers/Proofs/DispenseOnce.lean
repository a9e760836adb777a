/-
Module: GhostPour.Offers.Proofs.DispenseOnce
Layer: Proof
Purpose: In every interleaving of dispense calls a code is returned to one actor only: it is returned
  when its reservation is committed, and a reservation that is committed stays. An actor gets one
  code of a campaign as long as no other call of the actor reserves one between a call's look-up and
  its own update; two calls that both look first get two codes.
Trusted boundary: none
Main exports: PoolSound, OnePerActor, DispenseSound, claimsAlone, codes_injective_and_stable,
  two_codes_for_one_actor
-/
import GhostPour.Offers.OfferDispense

namespace GhostPour.Offers

/-! ### The pool -/

/-- A code is reserved under one column. -/
def OfferCode.Sound (row : OfferCode) : Prop :=
  match row.status with
  | .available => row.reservedByUser = none ∧ row.reservedByDevice = none
  | .reserved => row.reservedByUser = none ∨ row.reservedByDevice = none

def PoolSound (pool : OfferPool) : Prop := ∀ code row, pool.get code = some row → row.Sound

/-- An actor has at most one code of a campaign. -/
def OnePerActor (pool : OfferPool) : Prop :=
  ∀ call code code' row row', pool.get code = some row → pool.get code' = some row' →
    DispenseCall.owns call row = true → DispenseCall.owns call row' = true → code = code'

/-- Codes stay in their campaign, and reserved ones stay as they are. -/
def KeepsCodes (pool pool' : OfferPool) : Prop :=
  ∀ code row, pool.get code = some row → ∃ row', pool'.get code = some row' ∧
    row'.offerId = row.offerId ∧ row'.environment = row.environment ∧
    (row.status = .reserved → row' = row)

/-- A code of the campaign of a call. -/
def InCampaign (call : DispenseCall) (code : PyStr) (pool : OfferPool) : Prop :=
  ∃ row, pool.get code = some row ∧ row.inCampaign call.offerId call.environment = true

section
variable {pool pool' pool'' : OfferPool} {call : DispenseCall} {code : PyStr} {row : OfferCode}

theorem KeepsCodes.refl (pool : OfferPool) : KeepsCodes pool pool := fun _ row stored =>
  ⟨row, stored, rfl, rfl, fun _ => rfl⟩

theorem KeepsCodes.trans (one : KeepsCodes pool pool') (two : KeepsCodes pool' pool'') :
    KeepsCodes pool pool'' := by
  intro code row stored
  obtain ⟨row', stored', offer, environment, same⟩ := one code row stored
  obtain ⟨row'', stored'', offer', environment', same'⟩ := two code row' stored'
  refine ⟨row'', stored'', offer'.trans offer, environment'.trans environment, fun reserved => ?_⟩
  rw [same reserved] at same'
  exact same' reserved

theorem InCampaign.keeps (inside : InCampaign call code pool) (keeps : KeepsCodes pool pool') :
    InCampaign call code pool' := by
  obtain ⟨row, stored, campaign⟩ := inside
  obtain ⟨row', stored', offer, environment, _⟩ := keeps code row stored
  refine ⟨row', stored', ?_⟩
  unfold OfferCode.inCampaign at campaign ⊢
  rw [offer, environment]
  exact campaign

theorem reserved_of_owns (owns : call.owns row = true) : row.status = .reserved := by
  unfold DispenseCall.owns OfferCode.reservedBy at owns
  rw [Bool.and_eq_true] at owns
  cases actor : call.actor with
  | user id =>
      simp only [actor, decide_eq_true_eq] at owns
      exact owns.2.1
  | device id =>
      simp only [actor, decide_eq_true_eq] at owns
      exact owns.2.1

/-- A sound code is reserved by one actor. -/
theorem actor_of_reservedBy {actor actor' : Actor} (sound : row.Sound)
    (one : row.reservedBy actor = true) (two : row.reservedBy actor' = true) : actor = actor' := by
  unfold OfferCode.Sound at sound
  unfold OfferCode.reservedBy at one two
  cases actor with
  | user id =>
      simp only [decide_eq_true_eq] at one
      cases actor' with
      | user id' =>
          simp only [decide_eq_true_eq] at two
          rw [one.2, Option.some.injEq] at two
          rw [two.2]
      | device id' =>
          simp only [decide_eq_true_eq] at two
          simp [one.1, one.2, two.2] at sound
  | device id =>
      simp only [decide_eq_true_eq] at one
      cases actor' with
      | user id' =>
          simp only [decide_eq_true_eq] at two
          simp [one.1, one.2, two.2] at sound
      | device id' =>
          simp only [decide_eq_true_eq] at two
          rw [one.2, Option.some.injEq] at two
          rw [two.2]

/-! ### The selects -/

theorem existingCode_eq_some (found : existingCode call pool = some code) :
    ∃ row, pool.get code = some row ∧ call.owns row = true := by
  obtain ⟨⟨key, row⟩, head, rfl⟩ := Option.map_eq_some_iff.mp found
  have member := (List.mem_insertionSort _).mp (List.mem_of_head? head)
  obtain ⟨stored, owns⟩ := List.mem_filter.mp member
  exact ⟨row, Table.get_of_mem stored, owns⟩

theorem existingCode_eq_none (nothing : existingCode call pool = none) (stored : pool.get code = some row) :
    call.owns row = false := by
  by_contra owns
  rw [Bool.not_eq_false] at owns
  have empty := List.head?_eq_none_iff.mp (Option.map_eq_none_iff.mp nothing)
  have member : (code, row) ∈ (pool.select fun _ row => call.owns row).insertionSort
      fun one two => orderedAt one.2.reservedAt two.2.reservedAt :=
    (List.mem_insertionSort _).mpr (List.mem_filter.mpr ⟨Table.mem_of_get stored, owns⟩)
  rw [empty] at member
  cases member

theorem candidateCode_eq_some (found : candidateCode call pool = some code) :
    InCampaign call code pool := by
  obtain ⟨⟨key, row⟩, head, rfl⟩ := Option.map_eq_some_iff.mp found
  have member := (List.mem_insertionSort _).mp (List.mem_of_head? head)
  obtain ⟨stored, mayTake⟩ := List.mem_filter.mp member
  simp only [DispenseCall.mayTake, Bool.and_eq_true] at mayTake
  exact ⟨row, Table.get_of_mem stored, mayTake.1⟩

/-! ### The writes -/

theorem reserve_reservedBy (actor : Actor) (now : Instant) (row : OfferCode) :
    (row.reserve actor now).reservedBy actor = true ∧
      (row.reserve actor now).offerId = row.offerId ∧
      (row.reserve actor now).environment = row.environment := by
  cases actor <;> simp [OfferCode.reserve, OfferCode.reservedBy]

theorem reserve_sound (actor : Actor) (now : Instant) (available : row.status = .available)
    (sound : row.Sound) : (row.reserve actor now).Sound := by
  unfold OfferCode.Sound at sound
  rw [available] at sound
  cases actor with
  | user id => exact .inr sound.2
  | device id => exact .inl sound.1

theorem claimCode_get (now : Instant) (key : PyStr) :
    (claimCode call now code pool).get key = (pool.get key).map fun row =>
      if key = code ∧ row.status = .available then row.reserve call.actor now else row := by
  rw [claimCode, Table.get_updateWhere]
  simp only [decide_eq_true_eq]

/-- An update that hits reserves the code for the actor, and changes no other. -/
theorem claimCode_hit (call : DispenseCall) (now : Instant) (hit : claims code pool = true) :
    ∃ row, pool.get code = some row ∧ row.status = .available ∧
      (claimCode call now code pool).get code = some (row.reserve call.actor now) := by
  obtain ⟨row, stored, available⟩ := Option.map_eq_some_iff.mp (of_decide_eq_true hit)
  refine ⟨row, stored, available, ?_⟩
  rw [claimCode_get, stored, Option.map_some, if_pos ⟨rfl, available⟩]

theorem claimCode_keeps (now : Instant) (pool : OfferPool) :
    KeepsCodes pool (claimCode call now code pool) := by
  intro key row stored
  refine ⟨_, by rw [claimCode_get, stored, Option.map_some], ?_⟩
  split
  · next hit =>
    obtain ⟨_, offer, environment⟩ := reserve_reservedBy call.actor now row
    refine ⟨offer, environment, fun reserved => ?_⟩
    rw [hit.2] at reserved
    cases reserved
  · exact ⟨rfl, rfl, fun _ => rfl⟩

theorem claimCode_sound (now : Instant) (sound : PoolSound pool) :
    PoolSound (claimCode call now code pool) := by
  intro key row' stored
  rw [claimCode_get] at stored
  obtain ⟨row, before, rfl⟩ := Option.map_eq_some_iff.mp stored
  split
  · next hit => exact reserve_sound call.actor now hit.2 (sound key row before)
  · exact sound key row before

/-- A code the update leaves was there before, or is the one it reserves. -/
theorem claimCode_reserved (now : Instant) {key : PyStr}
    (stored : (claimCode call now code pool).get key = some row) :
    pool.get key = some row ∨ key = code ∧ claims code pool = true := by
  rw [claimCode_get] at stored
  obtain ⟨before, there, eq⟩ := Option.map_eq_some_iff.mp stored
  split at eq
  · next hit =>
    obtain ⟨rfl, available⟩ := hit
    right
    simp [claims, there, available]
  · left
    rw [there, eq]

/-- A reservation made while the actor has none leaves it with one. -/
theorem claimCode_onePerActor (now : Instant) (one : OnePerActor pool) (sound : PoolSound pool)
    (alone : existingCode call pool = none) (inside : InCampaign call code pool) :
    OnePerActor (claimCode call now code pool) := by
  -- a code that a call owns was owned before, or is the reserved one and the call is this one
  have before : ∀ other key row, (claimCode call now code pool).get key = some row →
      DispenseCall.owns other row = true →
        pool.get key = some row ∨ key = code ∧ other = call := by
    intro other key row stored owns
    rw [claimCode_get] at stored
    obtain ⟨old, there, eq⟩ := Option.map_eq_some_iff.mp stored
    split at eq
    · next hit =>
      obtain ⟨rfl, available⟩ := hit
      right
      subst eq
      obtain ⟨mine, offer, environment⟩ := reserve_reservedBy call.actor now old
      obtain ⟨old', there', campaign⟩ := inside
      rw [there, Option.some.injEq] at there'
      subst there'
      rw [DispenseCall.owns, Bool.and_eq_true, OfferCode.inCampaign, decide_eq_true_eq] at owns
      rw [OfferCode.inCampaign, decide_eq_true_eq] at campaign
      have actor := actor_of_reservedBy (reserve_sound call.actor now available (sound _ old there))
        owns.2 mine
      refine ⟨rfl, ?_⟩
      obtain ⟨offerId', environment', actor'⟩ := other
      obtain ⟨offerId, environment', actor''⟩ := call
      simp only [DispenseCall.mk.injEq]
      exact ⟨owns.1.1.symm.trans (offer.trans campaign.1),
        owns.1.2.symm.trans (environment.trans campaign.2), actor⟩
    · exact .inl (there.trans (congrArg some eq))
  intro other key key' row row' stored stored' owns owns'
  rcases before other key row stored owns with old | ⟨rfl, rfl⟩
  · rcases before other key' row' stored' owns' with old' | ⟨rfl, rfl⟩
    · exact one other key key' row row' old old' owns owns'
    · rw [existingCode_eq_none alone old] at owns
      cases owns
  · rcases before other key' row' stored' owns' with old' | ⟨same, _⟩
    · rw [existingCode_eq_none alone old'] at owns'
      cases owns'
    · exact same.symm

/-- A new code is reserved for nobody. -/
theorem loadCode_get {offerId environment key : PyStr} {now : Instant}
    (stored : (loadCode offerId environment code now pool).get key = some row) :
    pool.get key = some row ∨ row = ⟨offerId, environment, .available, none, none, none, now⟩ := by
  rcases eq_or_ne key code with rfl | ne
  · rw [loadCode, Table.get_upsert_self] at stored
    rcases before : pool.get key with _ | old
    · rw [before] at stored
      exact .inr (Option.some.inj stored).symm
    · rw [before] at stored
      exact .inl stored
  · rw [loadCode, Table.get_upsert_of_ne _ _ _ ne] at stored
    exact .inl stored

theorem loadCode_keeps (offerId environment : PyStr) (now : Instant) (pool : OfferPool) :
    KeepsCodes pool (loadCode offerId environment code now pool) := by
  intro key row stored
  refine ⟨row, ?_, rfl, rfl, fun _ => rfl⟩
  rcases eq_or_ne key code with rfl | ne
  · rw [loadCode, Table.get_upsert_self, stored]
    rfl
  · rw [loadCode, Table.get_upsert_of_ne _ _ _ ne, stored]

end

/-! ### What holds between any two statements -/

/-- The codes a connection may hold reserved that are not committed as such. -/
def DispensePhase.holds (code : PyStr) : DispensePhase → Prop
  | .claimed _ own => code = own
  | .failed => True
  | _ => False

/-- What a phase knows: the candidate is of the campaign, and a claimed code is reserved for the
actor in the copy that will be committed. -/
def Knows (d : Dispensary) (c : Nat) : DispensePhase → Prop
  | .picked call _ code =>
      d.store.Holds c ∧ InCampaign call code (d.store.view c) ∨
        InCampaign call code d.store.committed
  | .claimed call code =>
      ∃ copy row, d.store.copyOf c = some copy ∧ copy.get code = some row ∧ call.owns row = true
  | _ => True

/-- What holds of a connection in a phase. -/
structure PhaseSound (d : Dispensary) (c : Nat) (phase : DispensePhase) : Prop where
  copy : ∀ copy, d.store.copyOf c = some copy → ∀ code row, copy.get code = some row →
    row.status = .reserved → d.store.committed.get code = some row ∨ phase.holds code
  knows : Knows d c phase

/-- The pool is sound; with `alone`, an actor has at most one code of a campaign. -/
def Kept (alone : Bool) (pool : OfferPool) : Prop :=
  PoolSound pool ∧ (alone = true → OnePerActor pool)

/-- The invariant. -/
structure DispenseSound (alone : Bool) (d : Dispensary) : Prop where
  store : d.store.All (Kept alone)
  grows : d.store.Grows KeepsCodes
  phases : ∀ c, PhaseSound d c (d.phases c)
  returned : ∀ r ∈ d.returned, ∃ row, d.store.committed.get r.2 = some row ∧ r.1.owns row = true

section
variable {alone : Bool} {d : Dispensary} {c : Nat}

/-- What another connection knows stays true. -/
theorem PhaseSound.took_other (op : StoreOp OfferPool) (phase : DispensePhase)
    (grown : KeepsCodes d.store.committed (d.store.apply c op).committed) {c' : Nat} (ne : c' ≠ c)
    {own : DispensePhase} (before : PhaseSound d c' own) : PhaseSound (d.took c op phase) c' own := by
  constructor
  · intro copy writes code row stored reserved
    have writes' := Store.copyOf_of_apply_other writes ne
    rw [show (d.took c op phase).store.committed = d.store.committed from
      (Store.copyOf_apply_other op writes' ne).2]
    exact before.copy copy writes' code row stored reserved
  · have knows := before.knows
    cases own with
    | picked call rounds code =>
        rcases knows with ⟨holds, inside⟩ | inside
        · obtain ⟨holds', same⟩ := Store.holds_apply_other op holds ne
          exact .inl ⟨holds', same ▸ inside⟩
        · exact .inr (inside.keeps grown)
    | claimed call code =>
        obtain ⟨copy, row, writes, stored, owns⟩ := knows
        exact ⟨copy, row, (Store.copyOf_apply_other op writes ne).1, stored, owns⟩
    | _ => trivial

/-- A transaction statement whose writes are sound leads to a sound state, when what the next phase
knows is true. -/
theorem DispenseSound.took (sound : DispenseSound alone d) (op : StoreOp OfferPool)
    {phase : DispensePhase}
    (writes : ∀ f, op = .write f →
      Kept alone (f (d.store.view c)) ∧ KeepsCodes (d.store.view c) (f (d.store.view c)))
    (own : PhaseSound (d.took c op phase) c phase) : DispenseSound alone (d.took c op phase) := by
  obtain ⟨grows, grown⟩ := sound.grows.apply (c := c) sound.store KeepsCodes.refl KeepsCodes.trans
    op fun f eq => (writes f eq).2
  refine ⟨sound.store.apply op fun f eq _ => (writes f eq).1, grows, fun c' => ?_, fun r member => ?_⟩
  · rcases eq_or_ne c' c with rfl | ne
    · rw [show (d.took c' op phase).phases c' = phase from Function.update_self ..]
      exact own
    · rw [show (d.took c op phase).phases c' = d.phases c' from Function.update_of_ne ne ..]
      exact PhaseSound.took_other op phase grown ne (sound.phases c')
  · obtain ⟨row, stored, owns⟩ := sound.returned r member
    obtain ⟨row', stored', _, _, same⟩ := grown r.2 row stored
    rw [same (reserved_of_owns owns)] at stored'
    exact ⟨row, stored', owns⟩

/-- What a connection sees reserved is committed, unless it has reserved it itself. -/
theorem DispenseSound.view_reserved (sound : DispenseSound alone d) {code : PyStr} {row : OfferCode}
    (stored : (d.store.view c).get code = some row) (reserved : row.status = .reserved) :
    d.store.committed.get code = some row ∨ (d.phases c).holds code := by
  rcases writes : d.store.copyOf c with _ | copy
  · left
    unfold Store.view at stored
    rw [writes, Option.getD_none] at stored
    rcases session : d.store.sessions c with _ | _ | ⟨snapshot, version⟩
    · rw [session] at stored
      exact stored
    · rw [session] at stored
      exact stored
    · rw [session] at stored
      obtain ⟨row', stored', _, _, same⟩ :=
        sound.grows.snapshot c snapshot version session code row stored
      rw [same reserved] at stored'
      exact stored'
  · rw [Store.view_of_copy writes] at stored
    exact (sound.phases c).copy copy writes code row stored reserved

/-- A statement that reserves no other code than the next phase holds. -/
theorem DispenseSound.copy_took (sound : DispenseSound alone d) (op : StoreOp OfferPool)
    {phase : DispensePhase}
    (quiet : ∀ f, op = .write f → ∀ code row, (f (d.store.view c)).get code = some row →
      row.status = .reserved → (d.store.view c).get code = some row ∨ phase.holds code)
    (holds : ∀ code, (d.phases c).holds code → phase.holds code) :
    ∀ copy, (d.took c op phase).store.copyOf c = some copy → ∀ code row, copy.get code = some row →
      row.status = .reserved →
        (d.took c op phase).store.committed.get code = some row ∨ phase.holds code := by
  intro copy writes code row stored reserved
  have same : ∀ s : Store Nat OfferPool, s.copyOf c = d.store.copyOf c →
      s.committed = d.store.committed → s.copyOf c = some copy →
      s.committed.get code = some row ∨ phase.holds code := by
    intro s copies commits writes
    rw [commits]
    rw [copies] at writes
    exact ((sound.phases c).copy copy writes code row stored reserved).imp_right (holds code)
  have begun : (d.store.begin c).committed = d.store.committed := by
    unfold Store.begin
    split <;> rfl
  cases op with
  | begin => exact same (d.store.begin c) Store.copyOf_begin_self begun writes
  | read =>
      refine same (d.store.read c) Store.copyOf_read_self ?_ writes
      unfold Store.read
      split <;> rfl
  | write f =>
      rcases free : d.store.free c with _ | _
      · have locked : d.store.write c f = d.store.begin c := by simp [Store.write, free]
        simp only [Dispensary.took, Store.apply, locked] at writes ⊢
        exact same (d.store.begin c) Store.copyOf_begin_self begun writes
      · have wrote : (d.store.write c f).copyOf c = some copy := writes
        rw [Store.copyOf_write_self f free, Option.some.injEq] at wrote
        subst wrote
        have commits : (d.took c (.write f) phase).store.committed = d.store.committed := by
          simp [Dispensary.took, Store.apply, Store.write, free]
        rw [commits]
        rcases quiet f rfl code row stored reserved with before | held
        · exact (sound.view_reserved before reserved).imp_right (holds code)
        · exact .inr held
  | commit =>
      rw [show (d.took c .commit phase).store.copyOf c = none from Store.copyOf_commit_self] at writes
      cases writes
  | rollback =>
      rw [show (d.took c .rollback phase).store.copyOf c = none from
        Store.copyOf_rollback_self] at writes
      cases writes

/-- A phase that knows nothing of its own. -/
def DispensePhase.plain : DispensePhase → Prop
  | .picked _ _ _ => False
  | .claimed _ _ => False
  | _ => True

theorem knows_of_plain {phase : DispensePhase} (plain : phase.plain) : Knows d c phase := by
  cases phase with
  | picked call rounds code => exact plain.elim
  | claimed call code => exact plain.elim
  | _ => trivial

/-- A transaction statement that writes nothing. -/
theorem DispenseSound.took_plain (sound : DispenseSound alone d) (op : StoreOp OfferPool)
    {phase : DispensePhase} (noWrite : ∀ f, op ≠ .write f) (plain : phase.plain)
    (holds : ∀ code, (d.phases c).holds code → phase.holds code) :
    DispenseSound alone (d.took c op phase) := by
  refine sound.took op (fun f eq => absurd eq (noWrite f)) ⟨?_, knows_of_plain plain⟩
  exact sound.copy_took op (fun f eq => absurd eq (noWrite f)) holds

/-- A call that raises leaves its transaction to the end of the connection. -/
theorem DispenseSound.fail (sound : DispenseSound alone d) :
    DispenseSound alone (d.setPhase c .failed) := by
  refine ⟨sound.store, sound.grows, fun c' => ?_, sound.returned⟩
  rcases eq_or_ne c' c with rfl | ne
  · rw [show (d.setPhase c' .failed).phases c' = .failed from Function.update_self ..]
    exact ⟨fun _ _ _ _ _ _ => .inr trivial, trivial⟩
  · rw [show (d.setPhase c .failed).phases c' = d.phases c' from Function.update_of_ne ne ..]
    exact ⟨(sound.phases c').copy, (sound.phases c').knows⟩

/-- The end of a connection gives up what it has not committed. -/
theorem DispenseSound.close (sound : DispenseSound alone d) :
    DispenseSound alone (d.took c .rollback .ready) := by
  refine sound.took .rollback (fun _ eq => by cases eq) ⟨fun copy writes => ?_, trivial⟩
  rw [show (d.took c .rollback .ready).store.copyOf c = none from
    Store.copyOf_rollback_self] at writes
  cases writes

/-- A code is returned that is committed for its actor. -/
theorem DispenseSound.returns (sound : DispenseSound alone d) {call : DispenseCall} {code : PyStr}
    {row : OfferCode} (stored : d.store.committed.get code = some row)
    (owns : call.owns row = true) : DispenseSound alone (d.returns call code) := by
  refine ⟨sound.store, sound.grows, fun c => ⟨(sound.phases c).copy, (sound.phases c).knows⟩,
    fun r member => ?_⟩
  rcases List.mem_append.mp member with before | now
  · exact sound.returned r before
  · rw [List.mem_singleton.mp now]
    exact ⟨row, stored, owns⟩

theorem committed_read (s : Store Nat OfferPool) : (s.read c).committed = s.committed := by
  unfold Store.read
  split <;> rfl

/-- The look-up returns what is committed for the actor. -/
theorem DispenseSound.check (sound : DispenseSound alone d) (request : DispenseRequest)
    (phase : d.phases c = .ready) : DispenseSound alone (d.check c request) := by
  have quiet : ∀ (next : DispensePhase) code, (d.phases c).holds code → next.holds code := by
    intro next code held
    rw [phase] at held
    exact held.elim
  unfold Dispensary.check
  split
  · exact sound
  · next call _ =>
    split
    · next code found =>
      obtain ⟨row, stored, owns⟩ := existingCode_eq_some found
      have committed := (sound.view_reserved stored (reserved_of_owns owns)).resolve_right
        (by rw [phase]; exact id)
      have read : DispenseSound alone (d.took c .read .ready) :=
        sound.took_plain .read (fun _ eq => by cases eq) trivial (quiet _)
      refine read.returns ?_ owns
      rw [show (d.took c .read .ready).store.committed = d.store.committed from committed_read _]
      exact committed
    · exact sound.took_plain .read (fun _ eq => by cases eq) trivial (quiet _)

/-- The candidate is of the campaign. -/
theorem DispenseSound.pick (sound : DispenseSound alone d) {call : DispenseCall} {rounds : Nat}
    (phase : d.phases c = .checked call (rounds + 1)) : DispenseSound alone (d.pick c call rounds) := by
  have quiet : ∀ (next : DispensePhase) code, (d.phases c).holds code → next.holds code := by
    intro next code held
    rw [phase] at held
    exact held.elim
  unfold Dispensary.pick
  split
  · next code found =>
    have inside := candidateCode_eq_some found
    refine sound.took .read (fun _ eq => by cases eq)
      ⟨sound.copy_took .read (fun _ eq => by cases eq) (quiet _), ?_⟩
    by_cases open_ : d.store.InTransaction c
    · left
      refine ⟨Store.holds_read open_, ?_⟩
      rw [show (d.took c .read (.picked call rounds code)).store.view c = d.store.view c
        from Store.view_read]
      exact inside
    · right
      unfold Store.InTransaction at open_
      rw [not_or, not_not, not_not] at open_
      have committed : d.store.view c = d.store.committed := by
        rw [Store.view, open_.1, open_.2, Option.getD_none, Session.sees]
      rw [show (d.took c .read (.picked call rounds code)).store.committed = d.store.committed
        from committed_read _, ← committed]
      exact inside
  · exact sound.took_plain .read (fun _ eq => by cases eq) trivial (quiet _)

/-- A write that is locked out raises. -/
theorem DispenseSound.wrote (sound : DispenseSound alone d) (locked : Bool)
    {f : OfferPool → OfferPool} {phase : DispensePhase}
    (writes : d.store.free c = true → DispenseSound alone (d.took c (.write f) phase)) :
    DispenseSound alone (d.wrote c locked f phase) := by
  unfold Dispensary.wrote
  split
  · exact sound.took_plain .begin (fun _ eq => by cases eq) trivial fun _ _ => trivial
  · next unlocked =>
    rw [Bool.or_eq_true, not_or] at unlocked
    exact writes (by simpa using unlocked.2)

theorem DispenseSound.load (sound : DispenseSound alone d) (locked : Bool)
    (offerId environment code : PyStr) (now : Instant)
    (quiet : ∀ code, ¬(d.phases c).holds code) :
    DispenseSound alone (d.wrote c locked (loadCode offerId environment code now) .loading) := by
  refine sound.wrote locked fun _ => ?_
  obtain ⟨sane, one⟩ := sound.store.view c
  refine sound.took (.write _) (fun f eq => ?_) ⟨?_, trivial⟩
  · cases eq
    refine ⟨⟨fun key row stored => ?_, fun on => ?_⟩, loadCode_keeps offerId environment now _⟩
    · rcases loadCode_get stored with before | rfl
      · exact sane key row before
      · exact ⟨rfl, rfl⟩
    · intro call key key' row row' stored stored' owns owns'
      rcases loadCode_get stored with before | rfl
      · rcases loadCode_get stored' with before' | rfl
        · exact one on call key key' row row' before before' owns owns'
        · cases reserved_of_owns owns'
      · cases reserved_of_owns owns
  · refine sound.copy_took (.write _) (fun f eq key row stored reserved => ?_) fun code held =>
      (quiet code held).elim
    cases eq
    rcases loadCode_get stored with before | rfl
    · exact .inl before
    · cases reserved

/-- A call whose update will hit has still no code in the pool the update sees. -/
def claimsAlone (action : DispenseAction) (d : Dispensary) : Bool :=
  match action with
  | .claim c _ _ =>
      match d.phases c with
      | .picked call _ code =>
          !claims code (d.store.view c) || decide (existingCode call (d.store.view c) = none)
      | _ => true
  | _ => true

/-- The guarded update: it sees the candidate in its campaign, and reserves it at most once. -/
theorem DispenseSound.claim (sound : DispenseSound alone d) (now : Instant) (locked : Bool)
    {call : DispenseCall} {rounds : Nat} {code : PyStr}
    (phase : d.phases c = .picked call rounds code)
    (by_itself : alone = true → claims code (d.store.view c) = true →
      existingCode call (d.store.view c) = none) :
    DispenseSound alone (d.claim c now locked call rounds code) := by
  refine sound.wrote locked fun free => ?_
  obtain ⟨sane, one⟩ := sound.store.view c
  have inside : InCampaign call code (d.store.view c) := by
    have knows := (sound.phases c).knows
    rw [phase] at knows
    rcases knows with ⟨_, inside⟩ | inside
    · exact inside
    · exact inside.keeps (sound.grows.view sound.store KeepsCodes.refl free)
  have quiet : ∀ (next : DispensePhase) code, (d.phases c).holds code → next.holds code := by
    intro next code held
    rw [phase] at held
    exact held.elim
  have writes : ∀ f, StoreOp.write (claimCode call now code) = .write f →
      Kept alone (f (d.store.view c)) ∧ KeepsCodes (d.store.view c) (f (d.store.view c)) := by
    intro f eq
    cases eq
    refine ⟨⟨claimCode_sound now sane, fun on => ?_⟩, claimCode_keeps now _⟩
    rcases hit : claims code (d.store.view c) with _ | _
    · intro other key key' row row' stored stored' owns owns'
      have before := (claimCode_reserved now stored).resolve_right (by simp [hit])
      have before' := (claimCode_reserved now stored').resolve_right (by simp [hit])
      exact one on other key key' row row' before before' owns owns'
    · exact claimCode_onePerActor now (one on) sane (by_itself on hit) inside
  rcases hit : claims code (d.store.view c) with _ | _
  · have plain : (if rounds = 0 then DispensePhase.exhausted else .checked call rounds).plain := by
      split <;> trivial
    refine sound.took (.write _) writes ⟨?_, knows_of_plain plain⟩
    refine sound.copy_took (.write _) (fun f eq key row stored _ => ?_) (quiet _)
    cases eq
    exact .inl ((claimCode_reserved now stored).resolve_right (by simp [hit]))
  · refine sound.took (.write _) writes ⟨?_, ?_⟩
    · refine sound.copy_took (.write _) (fun f eq key row stored _ => ?_) (quiet _)
      cases eq
      exact (claimCode_reserved now stored).imp_right And.left
    · obtain ⟨row, stored, _, after⟩ := claimCode_hit call now hit
      obtain ⟨row', stored', campaign⟩ := inside
      rw [stored, Option.some.injEq] at stored'
      subst stored'
      obtain ⟨mine, offer, environment⟩ := reserve_reservedBy call.actor now row
      refine ⟨_, _, Store.copyOf_write_self _ free, after, ?_⟩
      unfold OfferCode.inCampaign at campaign
      rw [DispenseCall.owns, OfferCode.inCampaign, offer, environment, campaign, mine]
      rfl

/-- A commit publishes the reservation it returns. -/
theorem DispenseSound.commit (sound : DispenseSound alone d) {call : DispenseCall} {code : PyStr}
    (phase : d.phases c = .claimed call code) :
    DispenseSound alone ((d.took c .commit .ready).returns call code) := by
  have knows := (sound.phases c).knows
  rw [phase] at knows
  obtain ⟨copy, row, writes, stored, owns⟩ := knows
  have done : DispenseSound alone (d.took c .commit .ready) := by
    refine sound.took .commit (fun _ eq => by cases eq) ⟨fun copy writes => ?_, trivial⟩
    rw [show (d.took c .commit .ready).store.copyOf c = none from
      Store.copyOf_commit_self] at writes
    cases writes
  refine done.returns ?_ owns
  rw [show (d.took c .commit .ready).store.committed = copy from Store.committed_commit_self writes]
  exact stored

/-- The step lemma. -/
theorem dispense_sound_step (action : DispenseAction) (next : Dispensary)
    (by_itself : alone = true → claimsAlone action d = true) (sound : DispenseSound alone d)
    (step : dispenseMachine.step action d = some next) : DispenseSound alone next := by
  cases action with
  | check c request =>
      simp only [dispenseMachine] at step
      split at step
      · next phase =>
        cases step
        exact sound.check request phase
      · cases step
  | pick c =>
      simp only [dispenseMachine] at step
      split at step
      · next call rounds phase =>
        cases step
        exact sound.pick phase
      · cases step
  | claim c now locked =>
      simp only [dispenseMachine] at step
      split at step
      · next call rounds code phase =>
        cases step
        refine sound.claim now locked phase fun on hit => ?_
        have guard := by_itself on
        simp only [claimsAlone, phase, hit, Bool.not_true, Bool.false_or, decide_eq_true_eq] at guard
        exact guard
      · cases step
  | commit c locked =>
      simp only [dispenseMachine] at step
      split at step
      · next call code phase =>
        split at step
        · cases step
          exact sound.fail
        · cases step
          exact sound.commit phase
      · next phase =>
        split at step
        · cases step
          exact sound.fail
        · cases step
          refine sound.took_plain .commit (fun _ eq => by cases eq) trivial fun code held => ?_
          rw [phase] at held
          exact held.elim
      · next phase =>
        split at step
        · cases step
          exact sound.fail
        · cases step
          refine sound.took_plain .commit (fun _ eq => by cases eq) trivial fun code held => ?_
          rw [phase] at held
          exact held.elim
      · cases step
  | load c offerId environment code now locked =>
      simp only [dispenseMachine] at step
      split at step
      · next phase =>
        cases step
        refine sound.load locked offerId environment code now fun code held => ?_
        rw [phase] at held
        exact held
      · next phase =>
        cases step
        refine sound.load locked offerId environment code now fun code held => ?_
        rw [phase] at held
        exact held
      · cases step
  | abort c =>
      cases step
      exact sound.fail
  | close c =>
      cases step
      exact sound.close
  | other c statement =>
      simp only [dispenseMachine] at step
      split at step
      · next phase =>
        cases step
        have quiet : ∀ code, (d.phases c).holds code → DispensePhase.ready.holds code := by
          intro code held
          rw [phase] at held
          exact held
        have nothing : ∀ f, statement.op = .write f → f = id := by
          intro f eq
          cases statement <;> cases eq
          rfl
        refine sound.took statement.op (fun f eq => ?_) ⟨?_, trivial⟩
        · rw [nothing f eq]
          exact ⟨sound.store.view c, KeepsCodes.refl _⟩
        · refine sound.copy_took statement.op (fun f eq code row stored _ => ?_) quiet
          rw [nothing f eq] at stored
          exact .inl stored
      · cases step

theorem DispenseSound.start {pool : OfferPool} (kept : Kept alone pool) :
    DispenseSound alone (Dispensary.start pool) := by
  refine ⟨.start kept, .start _ _, fun c => ⟨fun copy writes => ?_, trivial⟩, fun r member => ?_⟩
  · cases writes
  · cases member

/-- Of what is returned, a code has one actor. -/
theorem DispenseSound.injective (sound : DispenseSound alone d) :
    ∀ r ∈ d.returned, ∀ r' ∈ d.returned, r.2 = r'.2 → r.1.actor = r'.1.actor := by
  intro r member r' member' same
  obtain ⟨row, stored, owns⟩ := sound.returned r member
  obtain ⟨row', stored', owns'⟩ := sound.returned r' member'
  rw [same, stored', Option.some.injEq] at stored
  subst stored
  rw [DispenseCall.owns, Bool.and_eq_true] at owns owns'
  exact actor_of_reservedBy (sound.store.committed.1 r'.2 row' stored') owns.2 owns'.2

end

/-! ### Every interleaving -/

/-- In every state that any statements of any calls lead to, no code has been returned to two actors;
and when each call that reserves a code has none when its update runs, calls of one actor for one
campaign have returned one code. -/
theorem codes_injective_and_stable (pool : OfferPool) (sound : PoolSound pool)
    (one : OnePerActor pool) (actions : List DispenseAction) (last : Dispensary)
    (run : dispenseMachine.run actions (Dispensary.start pool) = some last) :
    (∀ r ∈ last.returned, ∀ r' ∈ last.returned, r.2 = r'.2 → r.1.actor = r'.1.actor) ∧
      (dispenseMachine.Along (fun action d => claimsAlone action d = true) actions
          (Dispensary.start pool) →
        ∀ r ∈ last.returned, ∀ r' ∈ last.returned, r.1 = r'.1 → r.2 = r'.2) := by
  constructor
  · have kept : DispenseSound false last := Machine.run_invariant
      (fun action _ next sound step =>
        dispense_sound_step action next (fun off => by cases off) sound step)
      (.start ⟨sound, fun off => by cases off⟩) run
    exact kept.injective
  · intro along r member r' member' same
    have kept : DispenseSound true last := Machine.run_invariant_along
      (fun action _ next alone sound step =>
        dispense_sound_step action next (fun _ => alone) sound step)
      along (.start ⟨sound, fun _ => one⟩) run
    obtain ⟨row, stored, owns⟩ := kept.returned r member
    obtain ⟨row', stored', owns'⟩ := kept.returned r' member'
    rw [← same] at owns'
    exact kept.store.committed.2 rfl r.1 r.2 r'.2 row row' stored stored' owns owns'

/-! ### Two calls of one actor -/

/-- Two codes of a campaign. -/
def twoCodes : OfferPool :=
  ⟨[(py "CODE1", ⟨py "pro", py "sandbox", .available, none, none, none, 0⟩),
    (py "CODE2", ⟨py "pro", py "sandbox", .available, none, none, none, 0⟩)], by decide⟩

def requestOf (id : PyStr) : DispenseRequest := ⟨py "pro", py "sandbox", some id, none⟩

def callOf (id : PyStr) : DispenseCall := ⟨py "pro", py "sandbox", .user id⟩

theorem twoCodes_sound : PoolSound twoCodes ∧ OnePerActor twoCodes := by
  have available : ∀ code row, twoCodes.get code = some row → row.status = .available ∧
      row.reservedByUser = none ∧ row.reservedByDevice = none := by
    intro code row stored
    have member := Table.mem_of_get stored
    simp only [twoCodes, List.mem_cons, List.not_mem_nil, or_false, Prod.mk.injEq] at member
    rcases member with ⟨_, rfl⟩ | ⟨_, rfl⟩ <;> exact ⟨rfl, rfl, rfl⟩
  constructor
  · intro code row stored
    obtain ⟨status, user, device⟩ := available code row stored
    unfold OfferCode.Sound
    rw [status]
    exact ⟨user, device⟩
  · intro call code code' row row' stored _ owns _
    have status := (available code row stored).1
    rw [reserved_of_owns owns] at status
    cases status

/-- Two users resolve at once and pick the same code; then the first one comes back. -/
def twoUsers : List DispenseAction :=
  [ .check 0 (requestOf (py "u")), .check 1 (requestOf (py "v")), .pick 0, .pick 1, .claim 0 10 false,
    .commit 0 false, .claim 1 11 false, .pick 1, .claim 1 12 false, .commit 1 false,
    .check 0 (requestOf (py "u")) ]

/-- The theorem in this run: the second user retries onto the next code. -/
theorem codes_injective_and_stable_two_users :
    ∃ last, dispenseMachine.run twoUsers (Dispensary.start twoCodes) = some last ∧
      last.returned = [(callOf (py "u"), py "CODE1"), (callOf (py "v"), py "CODE2"),
        (callOf (py "u"), py "CODE1")] ∧
      (∀ r ∈ last.returned, ∀ r' ∈ last.returned, r.1 = r'.1 → r.2 = r'.2) := by
  obtain ⟨last, run⟩ := Option.isSome_iff_exists.mp
    (show (dispenseMachine.run twoUsers (Dispensary.start twoCodes)).isSome = true by
      decide +kernel)
  have facts : (dispenseMachine.run twoUsers (Dispensary.start twoCodes)).map Dispensary.returned =
      some [(callOf (py "u"), py "CODE1"), (callOf (py "v"), py "CODE2"),
        (callOf (py "u"), py "CODE1")] := by decide +kernel
  rw [run, Option.map_some, Option.some.injEq] at facts
  have along : dispenseMachine.Along (fun action d => claimsAlone action d = true) twoUsers
      (Dispensary.start twoCodes) := by decide +kernel
  obtain ⟨_, stable⟩ := codes_injective_and_stable twoCodes twoCodes_sound.1 twoCodes_sound.2
    twoUsers last run
  exact ⟨last, run, facts, stable along⟩

/-- Two calls of one user both look before either reserves. -/
def oneUserTwice : List DispenseAction :=
  [ .check 0 (requestOf (py "u")), .check 1 (requestOf (py "u")), .pick 0, .claim 0 10 false,
    .commit 0 false, .pick 1, .claim 1 11 false, .commit 1 false ]

/-- They return two codes. -/
theorem two_codes_for_one_actor :
    (dispenseMachine.run oneUserTwice (Dispensary.start twoCodes)).map Dispensary.returned =
      some [(callOf (py "u"), py "CODE1"), (callOf (py "u"), py "CODE2")] := by
  decide +kernel

end GhostPour.Offers
