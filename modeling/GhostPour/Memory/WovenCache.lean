/-
Module: GhostPour.Memory.WovenCache
Layer: Model
Purpose: `app/services/woven_cache.py`: the entries, and the calls of `get_or_refresh` as the steps
  they take between their awaits, for any number of calls beside each other over any number of days. A
  call that misses awaits its fetch; a call that finds a digest of an earlier day returns it and leaves
  a task that refreshes it. The keys are those that are asked for.
Trusted boundary: human-reviewed spec
Main exports: WovenEntry, peek, isFresh, store, Woven, Opening, opening, WovenAction, wovenMachine
-/
import GhostPour.Library.Calendar
import GhostPour.Library.Json
import GhostPour.Library.Machine
import GhostPour.Library.Table

namespace GhostPour.Memory

/-! ### The entries -/

/-- `_MAX_STALE_DAYS`. -/
def maxStaleDays : Nat := 7

/-- `_MAX_ENTRIES`. -/
def maxEntries : Nat := 2048

/-- `Entry`. Its `refreshing` is never read. -/
structure WovenEntry where
  body : Dict
  day : Nat
  storedAt : Instant

abbrev WovenEntries := Table PyStr WovenEntry

/-- An entry that is too old to be served. -/
def tooOld (today : Nat) (e : WovenEntry) : Bool := maxStaleDays < today - e.day

/-- `peek`: an entry that is too old is dropped. -/
def peek (today : Nat) (k : PyStr) (cache : WovenEntries) : WovenEntries × Option WovenEntry :=
  match cache.get k with
  | none => (cache, none)
  | some e => if tooOld today e then (cache.delete k, none) else (cache, some e)

/-- `is_fresh`. -/
def isFresh (today : Nat) (e : WovenEntry) : Bool := e.day = today

/-- The entry stored first goes when there are too many. -/
def evictOldest (cache : WovenEntries) : WovenEntries :=
  match cache.rows.argmin (·.2.storedAt) with
  | none => cache
  | some oldest => cache.delete oldest.1

/-- `store`. -/
def store (now : Instant) (k : PyStr) (body : Dict) (cache : WovenEntries) : WovenEntries :=
  let cache := if maxEntries ≤ cache.rows.length ∧ cache.get k = none then evictOldest cache else cache
  let e : WovenEntry := ⟨body, now.day, now⟩
  cache.upsert k e fun _ => e

/-! ### The calls -/

/-- The clock, `_CACHE` and `_LOCK_HOLDERS`; the keys of the calls that await their fetch and of the
refreshes that run; and what a call has returned today as not stale, first of all. -/
structure Woven where
  now : Instant
  cache : WovenEntries
  lockHolders : List PyStr
  cold : List PyStr
  refreshing : List PyStr
  served : PyStr → Option Dict

/-- No call is on its way, and none has returned today. -/
def Woven.idle (now : Instant) (cache : WovenEntries) : Woven :=
  ⟨now, cache, [], [], [], fun _ => none⟩

/-- `_today()`. -/
def Woven.today (s : Woven) : Nat := s.now.day

/-- What a call does before its first await: it returns a fresh digest, or a stale one with or without
a refresh behind it, or goes on to its fetch. -/
inductive Opening where
  | fresh (body : Dict)
  | stale (body : Dict) (refreshes : Bool)
  | cold

def opening (s : Woven) (k : PyStr) : Opening :=
  match (peek s.today k s.cache).2 with
  | none => .cold
  | some e => if isFresh s.today e then .fresh e.body else .stale e.body (k ∉ s.lockHolders)

/-- The clock goes on, a call comes in, the fetch of a call or of a refresh returns a body, or it
fails. -/
inductive WovenAction where
  | tick (now : Instant)
  | call (k : PyStr)
  | fetched (k : PyStr) (body : Dict)
  | fetchFailed (k : PyStr)
  | refreshed (k : PyStr) (body : Dict)
  | refreshFailed (k : PyStr)

namespace Woven

/-- A body is returned as not stale. -/
def serve (s : Woven) (k : PyStr) (body : Dict) : Woven :=
  { s with served := Function.update s.served k (some ((s.served k).getD body)) }

def tick (s : Woven) (now : Instant) : Woven :=
  { s with
    now := now
    served := if now.day = s.today then s.served else fun _ => none }

/-- `get_or_refresh` up to its await, or its return. -/
def call (s : Woven) (k : PyStr) : Woven :=
  let peeked := { s with cache := (peek s.today k s.cache).1 }
  match opening s k with
  | .fresh body => peeked.serve k body
  | .stale _ true =>
      { peeked with lockHolders := k :: s.lockHolders, refreshing := k :: s.refreshing }
  | .stale _ false => peeked
  | .cold => { peeked with cold := k :: s.cold }

/-- The rest of a call that missed: store the body and return it. -/
def fetched (s : Woven) (k : PyStr) (body : Dict) : Woven :=
  ({ s with cache := store s.now k body s.cache, cold := s.cold.erase k } : Woven).serve k body

/-- The lock of a refresh is discarded. -/
def unlock (s : Woven) (k : PyStr) : Woven :=
  { s with lockHolders := s.lockHolders.filter (· ≠ k), refreshing := s.refreshing.erase k }

/-- `_refresh` after its fetch. -/
def refreshed (s : Woven) (k : PyStr) (body : Dict) : Woven :=
  { s with cache := store s.now k body s.cache }.unlock k

end Woven

/-- Any number of calls with the keys that are asked for. -/
def wovenMachine (keys : List PyStr) : Machine Woven WovenAction where
  step
    | .tick now, s => if s.now ≤ now then some (s.tick now) else none
    | .call k, s => if k ∈ keys then some (s.call k) else none
    | .fetched k body, s => if k ∈ s.cold then some (s.fetched k body) else none
    | .fetchFailed k, s => if k ∈ s.cold then some { s with cold := s.cold.erase k } else none
    | .refreshed k body, s => if k ∈ s.refreshing then some (s.refreshed k body) else none
    | .refreshFailed k, s => if k ∈ s.refreshing then some (s.unlock k) else none

end GhostPour.Memory
