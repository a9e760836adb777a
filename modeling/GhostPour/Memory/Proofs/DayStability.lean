/-
Module: GhostPour.Memory.Proofs.DayStability
Layer: Proofs
Purpose: What a call has returned today as not stale is what every later call of the day returns,
  exactly when no fetch that ends brings another body for the key; and one fetch of a key is in flight
  beside a stale digest, exactly when no fetch that a call awaits goes on into a day on which the digest
  is stale. Two calls that miss beside each other break the first.
Trusted boundary: none
Main exports: Live, Servable, inFlight, Stable, OneFetch, Orderly, sameBody, alone, agrees,
  digest_stable_iff, within_day_one_fetch, misses_disagree
-/
import GhostPour.Memory.WovenCache

namespace GhostPour.Memory

variable {s : Woven} {k k' : PyStr} {e : WovenEntry} {body : Dict} {keys : List PyStr}
  {cache : WovenEntries} {today : Nat} {now : Instant}

/-! ### Entries that can be served -/

/-- The key has an entry that is not too old. -/
def Live (s : Woven) (k : PyStr) (e : WovenEntry) : Prop :=
  s.cache.get k = some e ∧ tooOld s.today e = false

theorem tooOld_of_today (day : e.day = today) : tooOld today e = false := by
  unfold tooOld
  rw [day, Nat.sub_self]
  rfl

theorem isFresh_iff : isFresh today e = true ↔ e.day = today := decide_eq_true_iff

theorem peek_eq_some : (peek today k cache).2 = some e ↔
    cache.get k = some e ∧ tooOld today e = false := by
  unfold peek
  cases stored : cache.get k with
  | none => simp
  | some e' =>
      cases old : tooOld today e' with
      | true =>
          simp only [old, if_true, Option.some.injEq]
          refine iff_of_false (by simp) ?_
          rintro ⟨rfl, kept⟩
          rw [old] at kept
          cases kept
      | false =>
          simp only [old, Bool.false_eq_true, if_false, Option.some.injEq]
          constructor
          · rintro rfl
            exact ⟨rfl, old⟩
          · exact And.left

/-- Peeking drops only what is too old. -/
theorem get_peek : (peek today k cache).1.get k' = some e →  cache.get k' = some e := by
  unfold peek
  cases cache.get k with
  | none => exact id
  | some e' =>
      cases old : tooOld today e' with
      | true =>
          simp only [old, if_true]
          rw [Table.get_delete]
          split
          · intro stored
            cases stored
          · exact id
      | false => simp [old]

theorem get_peek_of_kept (stored : cache.get k' = some e) (kept : tooOld today e = false) :
    (peek today k cache).1.get k' = some e := by
  unfold peek
  cases here : cache.get k with
  | none => exact stored
  | some e' =>
      cases old : tooOld today e' with
      | true =>
          simp only [old, if_true]
          rw [Table.get_delete, if_neg, stored]
          rintro rfl
          rw [stored, Option.some.injEq] at here
          rw [here, old] at kept
          cases kept
      | false => simp [old, stored]

theorem live_peek :
    Live { s with cache := (peek s.today k s.cache).1 } k' e ↔ Live s k' e := by
  constructor
  · rintro ⟨stored, kept⟩
    exact ⟨get_peek stored, kept⟩
  · rintro ⟨stored, kept⟩
    exact ⟨get_peek_of_kept stored kept, kept⟩

/-- A stale digest of the key can be served. -/
def Servable (s : Woven) (k : PyStr) : Prop := ∃ e, Live s k e ∧ e.day ≠ s.today

theorem opening_of_live (live : Live s k e) :
    opening s k =
      if isFresh s.today e then .fresh e.body else .stale e.body (k ∉ s.lockHolders) := by
  unfold opening
  rw [peek_eq_some.mpr live]

theorem opening_of_dead (dead : ∀ e, ¬ Live s k e) : opening s k = .cold := by
  unfold opening
  cases peeked : (peek s.today k s.cache).2 with
  | none => rfl
  | some e => exact absurd (peek_eq_some.mp peeked) (dead e)

theorem live_inj {e' : WovenEntry} (live : Live s k e) (live' : Live s k e') : e' = e :=
  Option.some.inj (live'.1.symm.trans live.1)

theorem opening_eq_fresh :
    opening s k = .fresh body ↔ ∃ e, Live s k e ∧ e.day = s.today ∧ e.body = body := by
  by_cases dead : ∀ e, ¬ Live s k e
  · rw [opening_of_dead dead]
    refine iff_of_false (by simp) ?_
    rintro ⟨e, live, -⟩
    exact dead e live
  · simp only [not_forall, not_not] at dead
    obtain ⟨e, live⟩ := dead
    rw [opening_of_live live]
    by_cases day : e.day = s.today
    · rw [if_pos (isFresh_iff.mpr day), Opening.fresh.injEq]
      constructor
      · exact fun same => ⟨e, live, day, same⟩
      · rintro ⟨e', live', -, same⟩
        rw [← live_inj live live', same]
    · rw [if_neg (mt isFresh_iff.mp day)]
      refine iff_of_false (by simp) ?_
      rintro ⟨e', live', day', -⟩
      rw [live_inj live live'] at day'
      exact day day'

theorem opening_eq_stale {refreshes : Bool} :
    opening s k = .stale body refreshes ↔
      ∃ e, Live s k e ∧ e.day ≠ s.today ∧ e.body = body ∧ refreshes = decide (k ∉ s.lockHolders) := by
  by_cases dead : ∀ e, ¬ Live s k e
  · rw [opening_of_dead dead]
    refine iff_of_false (by simp) ?_
    rintro ⟨e, live, -⟩
    exact dead e live
  · simp only [not_forall, not_not] at dead
    obtain ⟨e, live⟩ := dead
    rw [opening_of_live live]
    by_cases day : e.day = s.today
    · rw [if_pos (isFresh_iff.mpr day)]
      refine iff_of_false (by simp) ?_
      rintro ⟨e', live', day', -⟩
      rw [live_inj live live'] at day'
      exact day' day
    · rw [if_neg (mt isFresh_iff.mp day), Opening.stale.injEq]
      constructor
      · rintro ⟨same, locked⟩
        exact ⟨e, live, day, same, locked.symm⟩
      · rintro ⟨e', live', -, same, locked⟩
        rw [← live_inj live live']
        exact ⟨same, locked.symm⟩

theorem opening_eq_cold : opening s k = .cold ↔ ∀ e, ¬ Live s k e := by
  constructor
  · intro cold e live
    rw [opening_of_live live] at cold
    split at cold <;> cases cold
  · exact opening_of_dead

/-! ### What is stored -/

/-- Below the limit nothing is evicted. -/
theorem get_store (few : cache.rows.length < maxEntries) :
    (store now k body cache).get k' = if k' = k then some ⟨body, now.day, now⟩ else cache.get k' := by
  unfold store
  rw [if_neg fun full => (Nat.not_le.mpr few) full.1]
  by_cases same : k' = k
  · rw [if_pos same, same]
    dsimp only
    rw [Table.get_upsert_self]
    cases cache.get k <;> rfl
  · rw [if_neg same]
    exact Table.get_upsert_of_ne _ _ _ same

theorem rows_length_le (known : ∀ k e, cache.get k = some e → k ∈ keys) :
    cache.rows.length ≤ keys.length := by
  have mapped : (cache.rows.map Prod.fst).length = cache.rows.length := List.length_map _
  rw [← mapped]
  apply List.Subperm.length_le
  apply List.subperm_of_subset cache.nodup
  intro k member
  obtain ⟨⟨k', e⟩, row, rfl⟩ := List.mem_map.mp member
  exact known k' e (Table.get_of_mem row)

/-! ### The invariant -/

/-- What holds whatever the clock does: only keys that are asked for are in use, and the locks are
those of the refreshes that run, one for each key. -/
structure Orderly (keys : List PyStr) (s : Woven) : Prop where
  known : ∀ k e, s.cache.get k = some e → k ∈ keys
  cold : ∀ k ∈ s.cold, k ∈ keys
  refreshing : ∀ k ∈ s.refreshing, k ∈ keys
  locks : ∀ k, k ∈ s.lockHolders ↔ k ∈ s.refreshing
  single : s.refreshing.Nodup

namespace Orderly

theorem idle {cache : WovenEntries} (known : ∀ k e, cache.get k = some e → k ∈ keys) :
    Orderly keys (.idle now cache) :=
  ⟨known, by simp [Woven.idle], by simp [Woven.idle], by simp [Woven.idle], by simp [Woven.idle]⟩

theorem call (orderly : Orderly keys s) (asked : k ∈ keys) : Orderly keys (s.call k) := by
  have peeked : ∀ k' e, (peek s.today k s.cache).1.get k' = some e → k' ∈ keys :=
    fun k' e stored => orderly.known k' e (get_peek stored)
  unfold Woven.call
  split
  · exact ⟨peeked, orderly.cold, orderly.refreshing, orderly.locks, orderly.single⟩
  · next b stale =>
    obtain ⟨e, -, -, -, free⟩ := opening_eq_stale.mp stale
    have unlocked : k ∉ s.refreshing := by
      rw [← orderly.locks]
      exact of_decide_eq_true free.symm
    refine ⟨peeked, orderly.cold, ?_, ?_, List.nodup_cons.mpr ⟨unlocked, orderly.single⟩⟩
    · intro k' member
      rcases List.mem_cons.mp member with rfl | older
      · exact asked
      · exact orderly.refreshing k' older
    · intro k'
      rw [List.mem_cons, List.mem_cons, orderly.locks]
  · exact ⟨peeked, orderly.cold, orderly.refreshing, orderly.locks, orderly.single⟩
  · refine ⟨peeked, ?_, orderly.refreshing, orderly.locks, orderly.single⟩
    intro k' member
    rcases List.mem_cons.mp member with rfl | older
    · exact asked
    · exact orderly.cold k' older

theorem stored (orderly : Orderly keys s) (few : keys.length < maxEntries) (asked : k ∈ keys)
    (body : Dict) : Orderly keys { s with cache := store s.now k body s.cache } := by
  refine ⟨?_, orderly.cold, orderly.refreshing, orderly.locks, orderly.single⟩
  intro k' e stored
  rw [get_store ((rows_length_le orderly.known).trans_lt few)] at stored
  split at stored
  · next same => exact same ▸ asked
  · exact orderly.known k' e stored

theorem unlock (orderly : Orderly keys s) (k : PyStr) : Orderly keys (s.unlock k) := by
  refine ⟨orderly.known, orderly.cold, ?_, ?_, orderly.single.erase k⟩
  · exact fun k' member => orderly.refreshing k' (List.mem_of_mem_erase member)
  · intro k'
    change k' ∈ s.lockHolders.filter (· ≠ k) ↔ k' ∈ s.refreshing.erase k
    rw [List.mem_filter, orderly.single.mem_erase_iff, orderly.locks, decide_eq_true_eq]
    exact and_comm

theorem erase_cold (orderly : Orderly keys s) (k : PyStr) :
    Orderly keys { s with cold := s.cold.erase k } :=
  ⟨orderly.known, fun k' member => orderly.cold k' (List.mem_of_mem_erase member),
    orderly.refreshing, orderly.locks, orderly.single⟩

/-- Every step keeps it. -/
theorem step (orderly : Orderly keys s) (few : keys.length < maxEntries) {a : WovenAction}
    {s' : Woven} (step : (wovenMachine keys).step a s = some s') : Orderly keys s' := by
  cases a with
  | tick now =>
      obtain ⟨-, done⟩ := Option.ite_none_right_eq_some.mp step
      cases done
      exact ⟨orderly.known, orderly.cold, orderly.refreshing, orderly.locks, orderly.single⟩
  | call k =>
      obtain ⟨asked, done⟩ := Option.ite_none_right_eq_some.mp step
      cases done
      exact orderly.call asked
  | fetched k body =>
      obtain ⟨awaits, done⟩ := Option.ite_none_right_eq_some.mp step
      cases done
      have stored := orderly.stored few (orderly.cold k awaits) body
      exact ⟨stored.known, (stored.erase_cold k).cold, stored.refreshing, stored.locks, stored.single⟩
  | fetchFailed k =>
      obtain ⟨-, done⟩ := Option.ite_none_right_eq_some.mp step
      cases done
      exact orderly.erase_cold k
  | refreshed k body =>
      obtain ⟨runs, done⟩ := Option.ite_none_right_eq_some.mp step
      cases done
      exact (orderly.stored few (orderly.refreshing k runs) body).unlock k
  | refreshFailed k =>
      obtain ⟨-, done⟩ := Option.ite_none_right_eq_some.mp step
      cases done
      exact orderly.unlock k

end Orderly

/-! ### The two properties -/

/-- What a call has returned today as not stale, a call would return now. -/
def Stable (s : Woven) : Prop := ∀ k body, s.served k = some body → opening s k = .fresh body

/-- The fetches of a key that are in flight. -/
def inFlight (s : Woven) (k : PyStr) : Nat := s.cold.count k + s.refreshing.count k

/-- Beside a digest that can be served stale there is no more than one. -/
def OneFetch (s : Woven) : Prop := ∀ k, Servable s k → inFlight s k ≤ 1

/-- A fetch that ends brings what a call has returned today, if one has. -/
def sameBody : WovenAction → Woven → Prop
  | .fetched k body, s | .refreshed k body, s => ∀ b, s.served k = some b → b = body
  | _, _ => True

/-- A refresh starts while no call awaits a fetch of the key; and where the clock makes a digest stale,
one fetch of its key is in flight at most. -/
def alone : WovenAction → Woven → Prop
  | .tick now, s => ∀ k, Servable (s.tick now) k → inFlight s k ≤ 1
  | .call k, s => (∃ body, opening s k = .stale body true) → k ∉ s.cold
  | _, _ => True

theorem servable_peek :
    Servable { s with cache := (peek s.today k s.cache).1 } k' ↔ Servable s k' :=
  exists_congr fun _ => and_congr_left fun _ => live_peek

theorem opening_peek_eq_fresh :
    opening { s with cache := (peek s.today k s.cache).1 } k' = .fresh body ↔
      opening s k' = .fresh body := by
  rw [opening_eq_fresh, opening_eq_fresh]
  exact exists_congr fun _ => and_congr_left fun _ => live_peek

/-- What is fresh depends on the entries and on the day alone. -/
theorem opening_eq_fresh_congr (s t : Woven) (entries : s.cache = t.cache) (day : s.today = t.today) :
    opening s k = .fresh body ↔ opening t k = .fresh body := by
  rw [opening_eq_fresh, opening_eq_fresh]
  unfold Live
  rw [entries, day]

theorem servable_congr (s t : Woven) (entries : s.cache = t.cache) (day : s.today = t.today) :
    Servable s k ↔ Servable t k := by
  unfold Servable Live
  rw [entries, day]

section
variable (few : s.cache.rows.length < maxEntries)
include few

/-- After a store the key is fresh with the body, and every other key is as it was. -/
theorem opening_store_eq_fresh {b : Dict} :
    opening { s with cache := store s.now k body s.cache } k' = .fresh b ↔
      if k' = k then b = body else opening s k' = .fresh b := by
  rw [opening_eq_fresh, opening_eq_fresh]
  unfold Live
  simp only [get_store few]
  split
  · constructor
    · rintro ⟨e, ⟨stored, -⟩, -, rfl⟩
      rw [← Option.some.inj stored]
    · rintro rfl
      exact ⟨⟨b, s.now.day, s.now⟩, ⟨rfl, tooOld_of_today rfl⟩, rfl, rfl⟩
  · exact Iff.rfl

theorem servable_store :
    Servable { s with cache := store s.now k body s.cache } k' ↔ k' ≠ k ∧ Servable s k' := by
  unfold Servable Live
  simp only [get_store few]
  by_cases same : k' = k
  · rw [if_pos same]
    refine iff_of_false ?_ fun both => both.1 same
    rintro ⟨e, ⟨stored, -⟩, day⟩
    rw [← Option.some.inj stored] at day
    exact day rfl
  · rw [if_neg same]
    exact (and_iff_right same).symm

end

theorem stable_serve (fresh : opening s k = .fresh body) (stable : Stable s) : Stable (s.serve k body) := by
  intro k' b served
  change Function.update s.served k (some ((s.served k).getD body)) k' = some b at served
  change opening s k' = .fresh b
  by_cases same : k' = k
  · subst same
    rw [Function.update_self, Option.some.injEq] at served
    cases before : s.served k' with
    | none =>
        rw [before] at served
        rw [fresh, ← served]
        rfl
    | some b' =>
        rw [before] at served
        rw [stable k' b' before, ← served]
        rfl
  · rw [Function.update_of_ne same] at served
    exact stable k' b served

/-! ### What each step does to them -/

/-- A refresh that ends keeps what was returned exactly when it brings it. -/
theorem stable_refreshed_iff (few : s.cache.rows.length < maxEntries) (stable : Stable s) :
    Stable (s.refreshed k body) ↔ ∀ b, s.served k = some b → b = body := by
  have after : ∀ k' b, opening (s.refreshed k body) k' = .fresh b ↔
      if k' = k then b = body else opening s k' = .fresh b := by
    intro k' b
    rw [← opening_store_eq_fresh few]
    exact opening_eq_fresh_congr _ _ rfl rfl
  constructor
  · intro stable' b served
    have fresh := (after k b).mp (stable' k b served)
    rwa [if_pos rfl] at fresh
  · intro same k' b served
    rw [after]
    split
    · next here => exact same b (here ▸ served)
    · exact stable k' b served

/-- A call that comes back from its fetch returns what was returned exactly when it brings it. -/
theorem stable_fetched_iff (few : s.cache.rows.length < maxEntries) (stable : Stable s) :
    Stable (s.fetched k body) ↔ ∀ b, s.served k = some b → b = body := by
  have after : ∀ k' b, opening (s.fetched k body) k' = .fresh b ↔
      if k' = k then b = body else opening s k' = .fresh b := by
    intro k' b
    rw [← opening_store_eq_fresh few]
    exact opening_eq_fresh_congr _ _ rfl rfl
  have returned : ∀ k', (s.fetched k body).served k' =
      if k' = k then some ((s.served k).getD body) else s.served k' := by
    intro k'
    change Function.update s.served k (some ((s.served k).getD body)) k' = _
    rw [Function.update_apply]
  constructor
  · intro stable' b served
    have fresh := (after k b).mp (stable' k b (by rw [returned, if_pos rfl, served]; rfl))
    rwa [if_pos rfl] at fresh
  · intro same k' b served
    rw [returned] at served
    rw [after]
    split
    · next here =>
      rw [if_pos here, Option.some.injEq] at served
      cases before : s.served k with
      | none =>
          rw [before] at served
          exact served.symm
      | some b' =>
          rw [before] at served
          rw [← served]
          exact same b' before
    · next other =>
      rw [if_neg other] at served
      exact stable k' b served

/-- After a store the key has nothing stale to serve, and the other keys have the fetches they had. -/
theorem oneFetch_stored (k : PyStr) (body : Dict) {s' : Woven} (few : s.cache.rows.length < maxEntries) (one : OneFetch s)
    (entries : s'.cache = store s.now k body s.cache) (day : s'.today = s.today)
    (flights : ∀ k' ≠ k, inFlight s' k' = inFlight s k') : OneFetch s' := by
  intro k' servable
  rw [servable_congr s' { s with cache := store s.now k body s.cache } entries day,
    servable_store few] at servable
  rw [flights k' servable.1]
  exact one k' servable.2

theorem inFlight_erase_le (k k' : PyStr) :
    inFlight { s with cold := s.cold.erase k } k' ≤ inFlight s k' :=
  Nat.add_le_add_right ((List.erase_sublist).count_le k') _

theorem inFlight_unlock_le (k k' : PyStr) : inFlight (s.unlock k) k' ≤ inFlight s k' :=
  Nat.add_le_add_left ((List.erase_sublist).count_le k') _

/-- With fewer fetches and the same entries there is still no more than one. -/
theorem OneFetch.of_le {s' : Woven} (one : OneFetch s) (entries : s'.cache = s.cache)
    (day : s'.today = s.today) (fewer : ∀ k', inFlight s' k' ≤ inFlight s k') : OneFetch s' :=
  fun k' servable => (fewer k').trans (one k' ((servable_congr s' s entries day).mp servable))

theorem stable_tick (stable : Stable s) (now : Instant) : Stable (s.tick now) := by
  intro k body served
  change (if now.day = s.today then s.served else fun _ => none) k = some body at served
  split at served
  · next day =>
    exact (opening_eq_fresh_congr (s.tick now) s rfl day).mpr (stable k body served)
  · cases served

/-- A call that comes in changes nothing but the fetches of its key. -/
theorem stable_call (stable : Stable s) (k : PyStr) : Stable (s.call k) := by
  have peeked : Stable { s with cache := (peek s.today k s.cache).1 } :=
    fun k' body served => opening_peek_eq_fresh.mpr (stable k' body served)
  unfold Woven.call
  split
  · next fresh => exact stable_serve (opening_peek_eq_fresh.mpr fresh) peeked
  · intro k' body served
    refine (opening_eq_fresh_congr _ _ ?_ ?_).mp (peeked k' body served) <;> rfl
  · exact peeked
  · intro k' body served
    refine (opening_eq_fresh_congr _ _ ?_ ?_).mp (peeked k' body served) <;> rfl

/-- A refresh that is started is the only fetch of its key exactly when no call awaits one. -/
theorem oneFetch_call_iff (orderly : Orderly keys s) (one : OneFetch s) (k : PyStr) :
    OneFetch (s.call k) ↔ ((∃ body, opening s k = .stale body true) → k ∉ s.cold) := by
  have peeked : OneFetch { s with cache := (peek s.today k s.cache).1 } :=
    fun k' servable => one k' (servable_peek.mp servable)
  unfold Woven.call
  split
  · next body fresh =>
    refine iff_of_true ?_ ?_
    · exact peeked.of_le rfl rfl fun _ => le_refl _
    · rintro ⟨body', stale⟩
      rw [fresh] at stale
      cases stale
  · next body stale =>
    obtain ⟨e, live, day, -, free⟩ := opening_eq_stale.mp stale
    have unlocked : k ∉ s.refreshing := by
      rw [← orderly.locks]
      exact of_decide_eq_true free.symm
    have here : ∀ k', inFlight { s with
        cache := (peek s.today k s.cache).1
        lockHolders := k :: s.lockHolders
        refreshing := k :: s.refreshing } k' =
        if k' = k then s.cold.count k + 1 else inFlight s k' := by
      intro k'
      change s.cold.count k' + (k :: s.refreshing).count k' = _
      split
      · next same =>
        rw [same, List.count_cons_self, List.count_eq_zero_of_not_mem unlocked]
      · next other =>
        rw [List.count_cons_of_ne (Ne.symm other)]
        rfl
    have same : ∀ k', Servable { s with
        cache := (peek s.today k s.cache).1
        lockHolders := k :: s.lockHolders
        refreshing := k :: s.refreshing } k' ↔ Servable s k' :=
      fun k' => (servable_congr _ { s with cache := (peek s.today k s.cache).1 } rfl rfl).trans servable_peek
    constructor
    · intro after _ awaits
      have most := after k ((same k).mpr ⟨e, live, day⟩)
      rw [here, if_pos rfl] at most
      have some_ := List.count_pos_iff.mpr awaits
      omega
    · intro alone k' servable
      rw [here]
      split
      · rw [List.count_eq_zero_of_not_mem (alone ⟨body, stale⟩)]
      · exact one k' ((same k').mp servable)
  · next body stale =>
    refine iff_of_true peeked ?_
    rintro ⟨body', stale'⟩
    rw [stale] at stale'
    cases stale'
  · next cold =>
    refine iff_of_true ?_ ?_
    · intro k' servable
      have before := (servable_congr _ { s with cache := (peek s.today k s.cache).1 } rfl rfl).mp
        servable
      have other : k' ≠ k := by
        rintro rfl
        obtain ⟨e, live, -⟩ := servable_peek.mp before
        exact opening_eq_cold.mp cold e live
      change (k :: s.cold).count k' + s.refreshing.count k' ≤ 1
      rw [List.count_cons_of_ne other.symm]
      exact peeked k' before
    · rintro ⟨body', stale⟩
      rw [cold] at stale
      cases stale

/-- A step keeps the digest stable exactly when its fetch, if one ends, brings the same body. -/
theorem stable_step (room : s.cache.rows.length < maxEntries) {a : WovenAction} {s' : Woven}
    (stable : Stable s) (step : (wovenMachine keys).step a s = some s') :
    Stable s' ↔ sameBody a s := by
  cases a with
  | tick now =>
      obtain ⟨-, done⟩ := Option.ite_none_right_eq_some.mp step
      cases done
      exact iff_of_true (stable_tick stable now) trivial
  | call k =>
      obtain ⟨-, done⟩ := Option.ite_none_right_eq_some.mp step
      cases done
      exact iff_of_true (stable_call stable k) trivial
  | fetched k body =>
      obtain ⟨-, done⟩ := Option.ite_none_right_eq_some.mp step
      cases done
      exact stable_fetched_iff room stable
  | fetchFailed k =>
      obtain ⟨-, done⟩ := Option.ite_none_right_eq_some.mp step
      cases done
      refine iff_of_true ?_ trivial
      exact fun k' body served => (opening_eq_fresh_congr s _ rfl rfl).mp (stable k' body served)
  | refreshed k body =>
      obtain ⟨-, done⟩ := Option.ite_none_right_eq_some.mp step
      cases done
      exact stable_refreshed_iff room stable
  | refreshFailed k =>
      obtain ⟨-, done⟩ := Option.ite_none_right_eq_some.mp step
      cases done
      refine iff_of_true ?_ trivial
      exact fun k' body served =>
        (opening_eq_fresh_congr s (s.unlock k) rfl rfl).mp (stable k' body served)

/-- A step keeps one fetch beside a stale digest exactly when the fetch it starts is alone. -/
theorem oneFetch_step (room : s.cache.rows.length < maxEntries) (orderly : Orderly keys s)
    {a : WovenAction} {s' : Woven} (one : OneFetch s)
    (step : (wovenMachine keys).step a s = some s') : OneFetch s' ↔ alone a s := by
  cases a with
  | tick now =>
      obtain ⟨-, done⟩ := Option.ite_none_right_eq_some.mp step
      cases done
      exact Iff.rfl
  | call k =>
      obtain ⟨-, done⟩ := Option.ite_none_right_eq_some.mp step
      cases done
      exact oneFetch_call_iff orderly one k
  | fetched k body =>
      obtain ⟨-, done⟩ := Option.ite_none_right_eq_some.mp step
      cases done
      refine iff_of_true (oneFetch_stored k body room one rfl rfl ?_) trivial
      intro k' other
      change (s.cold.erase k).count k' + s.refreshing.count k' = _
      rw [List.count_erase_of_ne other]
      rfl
  | fetchFailed k =>
      obtain ⟨-, done⟩ := Option.ite_none_right_eq_some.mp step
      cases done
      exact iff_of_true (one.of_le rfl rfl (inFlight_erase_le k)) trivial
  | refreshed k body =>
      obtain ⟨-, done⟩ := Option.ite_none_right_eq_some.mp step
      cases done
      refine iff_of_true (oneFetch_stored k body room one rfl rfl ?_) trivial
      intro k' other
      change s.cold.count k' + (s.refreshing.erase k).count k' = _
      rw [List.count_erase_of_ne other]
      rfl
  | refreshFailed k =>
      obtain ⟨-, done⟩ := Option.ite_none_right_eq_some.mp step
      cases done
      exact iff_of_true (one.of_le rfl rfl (inFlight_unlock_le k)) trivial

/-! ### Runs -/

/-- The digest is stable, and one fetch of a key is in flight beside a stale digest. -/
def Steady (s : Woven) : Prop := Stable s ∧ OneFetch s

/-- The conditions of a step. -/
def agrees (a : WovenAction) (s : Woven) : Prop := sameBody a s ∧ alone a s

theorem steady_idle (now : Instant) (cache : WovenEntries) : Steady (.idle now cache) :=
  ⟨fun _ _ served => (nomatch served), fun _ _ => Nat.zero_le _⟩

/-- In a run from any cache, with fewer keys than the limit: what was returned today is what every call
would return, and one fetch of a key is in flight beside a stale digest, in every state on the way, if
and only if every step agrees. -/
theorem digest_stable_iff (few : keys.length < maxEntries)
    (known : ∀ k e, cache.get k = some e → k ∈ keys) {actions : List WovenAction} {last : Woven}
    (run : (wovenMachine keys).run actions (.idle now cache) = some last) :
    (∀ front, front <+: actions → ∀ mid,
        (wovenMachine keys).run front (.idle now cache) = some mid → Steady mid) ↔
      (wovenMachine keys).Along agrees actions (.idle now cache) := by
  refine Machine.throughout_iff_along_under (fun _ _ _ _ orderly step => orderly.step few step) ?_
    (Orderly.idle known) (steady_idle now cache) run
  intro a _ s s' orderly steady step
  have room := (rows_length_le orderly.known).trans_lt few
  exact and_congr (stable_step room steady.1 step) (oneFetch_step room orderly steady.2 step)

/-- No call awaits a fetch beside a stale digest. -/
def ColdAlone (s : Woven) : Prop := ∀ k ∈ s.cold, ¬ Servable s k

theorem coldAlone_call (cold : ColdAlone s) (k : PyStr) : ColdAlone (s.call k) := by
  have peeked : ∀ k', Servable { s with cache := (peek s.today k s.cache).1 } k' → Servable s k' :=
    fun k' => servable_peek.mp
  unfold Woven.call
  split
  · exact fun k' awaits servable => cold k' awaits (peeked k' servable)
  · exact fun k' awaits servable => cold k' awaits (peeked k' servable)
  · exact fun k' awaits servable => cold k' awaits (peeked k' servable)
  · next dead =>
    intro k' awaits servable
    rcases List.mem_cons.mp awaits with rfl | older
    · obtain ⟨e, live, -⟩ := peeked k' servable
      exact opening_eq_cold.mp dead e live
    · exact cold k' older (peeked k' servable)

theorem coldAlone_stored (room : s.cache.rows.length < maxEntries) (cold : ColdAlone s) {s' : Woven}
    (k : PyStr) (body : Dict) (entries : s'.cache = store s.now k body s.cache)
    (day : s'.today = s.today) (fewer : s'.cold ⊆ s.cold) : ColdAlone s' := by
  intro k' awaits servable
  rw [servable_congr s' { s with cache := store s.now k body s.cache } entries day,
    servable_store room] at servable
  exact cold k' (fewer awaits) servable.2

theorem coldAlone_step (room : s.cache.rows.length < maxEntries) {a : WovenAction} {s' : Woven}
    (cold : ColdAlone s) (sameDay : ∀ now, a ≠ .tick now)
    (step : (wovenMachine keys).step a s = some s') : ColdAlone s' := by
  cases a with
  | tick now => exact absurd rfl (sameDay now)
  | call k =>
      obtain ⟨-, done⟩ := Option.ite_none_right_eq_some.mp step
      cases done
      exact coldAlone_call cold k
  | fetched k body =>
      obtain ⟨-, done⟩ := Option.ite_none_right_eq_some.mp step
      cases done
      exact coldAlone_stored room cold k body rfl rfl List.erase_subset
  | fetchFailed k =>
      obtain ⟨-, done⟩ := Option.ite_none_right_eq_some.mp step
      cases done
      exact fun k' awaits => cold k' (List.erase_subset awaits)
  | refreshed k body =>
      obtain ⟨-, done⟩ := Option.ite_none_right_eq_some.mp step
      cases done
      exact coldAlone_stored room cold k body rfl rfl (List.Subset.refl _)
  | refreshFailed k =>
      obtain ⟨-, done⟩ := Option.ite_none_right_eq_some.mp step
      cases done
      exact cold

/-- Within a day one fetch of a key is in flight beside a stale digest, whatever the fetches bring. -/
theorem within_day_one_fetch (few : keys.length < maxEntries)
    (known : ∀ k e, cache.get k = some e → k ∈ keys) {actions : List WovenAction} {last : Woven}
    (sameDay : ∀ a ∈ actions, ∀ now, a ≠ .tick now)
    (run : (wovenMachine keys).run actions (.idle now cache) = some last) : OneFetch last := by
  have reached : Orderly keys last ∧ ColdAlone last ∧ OneFetch last := by
    refine Machine.run_invariant_along (I := fun s => Orderly keys s ∧ ColdAlone s ∧ OneFetch s)
      (P := fun a _ => ∀ now, a ≠ WovenAction.tick now) ?_ (Machine.along_of_forall
        (fun a member _ => sameDay a member) _)
      ⟨.idle known, fun _ awaits => (nomatch awaits), (steady_idle now cache).2⟩ run
    rintro a s s' day ⟨orderly, cold, one⟩ step
    have room := (rows_length_le orderly.known).trans_lt few
    refine ⟨orderly.step few step, coldAlone_step room cold day step, ?_⟩
    apply (oneFetch_step room orderly one step).mpr
    cases a with
    | tick now => exact absurd rfl (day now)
    | call k =>
        rintro ⟨body, stale⟩ awaits
        obtain ⟨e, live, old, -⟩ := opening_eq_stale.mp stale
        exact cold k awaits ⟨e, live, old⟩
    | _ => trivial
  exact reached.2.2

/-- A body of a digest. -/
def tiles (n : Int) : Dict := [(py "tiles", .int n)]

/-- Two calls that miss beside each other, and their fetches. -/
def twoMisses : List WovenAction :=
  [.call (py "home|u"), .call (py "home|u"), .fetched (py "home|u") (tiles 1),
    .fetched (py "home|u") (tiles 2)]

theorem twoMisses_run :
    ∃ last, (wovenMachine [py "home|u"]).run twoMisses (.idle 0 .empty) = some last ∧
      last.served (py "home|u") = some (tiles 1) ∧
      opening last (py "home|u") = .fresh (tiles 2) :=
  ⟨_, rfl, rfl, rfl⟩

/-- The second one is returned, though the first one has been. -/
theorem misses_disagree :
    ∃ last, (wovenMachine [py "home|u"]).run twoMisses (.idle 0 .empty) = some last ∧
      ¬ Stable last := by
  obtain ⟨last, run, served, now_⟩ := twoMisses_run
  refine ⟨last, run, fun stable => ?_⟩
  have fresh := stable _ _ served
  rw [now_, Opening.fresh.injEq] at fresh
  simp [tiles] at fresh

/-- The two calls under the theorem. -/
theorem twoMisses_steady_iff :
    ∃ last, (wovenMachine [py "home|u"]).run twoMisses (.idle 0 .empty) = some last ∧
      ((∀ front, front <+: twoMisses → ∀ mid,
          (wovenMachine [py "home|u"]).run front (.idle 0 .empty) = some mid → Steady mid) ↔
        (wovenMachine [py "home|u"]).Along agrees twoMisses (.idle 0 .empty)) := by
  obtain ⟨last, run, -⟩ := twoMisses_run
  exact ⟨last, run, digest_stable_iff (by decide) (by intro k e stored; cases stored) run⟩

end GhostPour.Memory
