/-
Module: GhostPour.Offers.OfferDispense
Layer: Model
Purpose: `app/services/offer_dispense.py`: the pool of offer codes, the statements of `dispense`, and
  `dispense` and `load_pool` as the statements they run, for any number of calls beside each other.
  Each request has a connection of its own; a call that raises ends its request, and the connection
  with it. The product and the batch of a code, which are only stored, are left out.
Trusted boundary: human-reviewed spec
Main exports: OfferCode, OfferPool, Actor, DispenseRequest, DispenseCall, existingCode, candidateCode, claimCode,
  DispensePhase, Dispensary, DispenseAction, dispenseMachine
-/
import GhostPour.Library.Calendar
import GhostPour.Library.Machine
import GhostPour.Library.PyText
import GhostPour.Library.Table
import GhostPour.Library.Transactions

namespace GhostPour.Offers

/-- `_RESERVE_RETRIES`. -/
def reserveRetries : Nat := 5

/-! ### The pool -/

/-- The `status` of a code. -/
inductive CodeStatus where
  | available
  | reserved
deriving DecidableEq

/-- An `offer_code_pool` row without its primary key, the code. -/
structure OfferCode where
  offerId : PyStr
  environment : PyStr
  status : CodeStatus
  reservedByUser : Option PyStr
  reservedByDevice : Option PyStr
  reservedAt : Option Instant
  createdAt : Instant
deriving DecidableEq

abbrev OfferPool := Table PyStr OfferCode

/-- The column and the value a reservation is made under. -/
inductive Actor where
  | user (id : PyStr)
  | device (id : PyStr)
deriving DecidableEq

/-- The arguments of `dispense`. -/
structure DispenseRequest where
  offerId : PyStr
  environment : PyStr
  userId : Option PyStr
  deviceId : Option PyStr

/-- A call of `dispense` for an actor that can be anchored. -/
structure DispenseCall where
  offerId : PyStr
  environment : PyStr
  actor : Actor
deriving DecidableEq

/-- `who_col` and `who_val`: the user, else the device. -/
def DispenseRequest.call? (request : DispenseRequest) : Option DispenseCall :=
  match request.userId.filter (· ≠ []), request.deviceId.filter (· ≠ []) with
  | some id, _ => some ⟨request.offerId, request.environment, .user id⟩
  | none, some id => some ⟨request.offerId, request.environment, .device id⟩
  | none, none => none

/-- The code is reserved by the actor. -/
def OfferCode.reservedBy (actor : Actor) (row : OfferCode) : Bool :=
  match actor with
  | .user id => row.status = .reserved ∧ row.reservedByUser = some id
  | .device id => row.status = .reserved ∧ row.reservedByDevice = some id

/-- The code is of the campaign. -/
def OfferCode.inCampaign (offerId environment : PyStr) (row : OfferCode) : Bool :=
  row.offerId = offerId ∧ row.environment = environment

/-- The condition of the first select. -/
def DispenseCall.owns (call : DispenseCall) (row : OfferCode) : Bool :=
  row.inCampaign call.offerId call.environment && row.reservedBy call.actor

/-- The condition of the second select. -/
def DispenseCall.mayTake (call : DispenseCall) (row : OfferCode) : Bool :=
  row.inCampaign call.offerId call.environment && row.status = .available

/-- `NULL` sorts first. -/
def orderedAt (one two : Option Instant) : Bool :=
  match one, two with
  | none, _ => true
  | some _, none => false
  | some s, some t => s ≤ t

/-- The code this actor has already: the first one reserved. -/
def existingCode (call : DispenseCall) (pool : OfferPool) : Option PyStr :=
  (((pool.select fun _ row => call.owns row).insertionSort
    fun one two => orderedAt one.2.reservedAt two.2.reservedAt).head?).map Prod.fst

/-- The next available code: the oldest one, then the first one. -/
def candidateCode (call : DispenseCall) (pool : OfferPool) : Option PyStr :=
  (((pool.select fun _ row => call.mayTake row).insertionSort fun one two =>
    one.2.createdAt < two.2.createdAt ∨ one.2.createdAt = two.2.createdAt ∧ one.1 ≤ two.1).head?).map
    Prod.fst

/-- What the reservation writes. -/
def OfferCode.reserve (actor : Actor) (now : Instant) (row : OfferCode) : OfferCode :=
  match actor with
  | .user id => { row with status := .reserved, reservedByUser := some id, reservedAt := some now }
  | .device id => { row with status := .reserved, reservedByDevice := some id, reservedAt := some now }

/-- The guarded update. -/
def claimCode (call : DispenseCall) (now : Instant) (code : PyStr) (pool : OfferPool) : OfferPool :=
  pool.updateWhere (fun key row => key = code ∧ row.status = .available)
    (OfferCode.reserve call.actor now)

/-- The guard of the update: whether its row count is one. -/
def claims (code : PyStr) (pool : OfferPool) : Bool :=
  ((pool.get code).map OfferCode.status) = some .available

/-- The insert of a new code, which `OR IGNORE` skips when the code is there. -/
def loadCode (offerId environment code : PyStr) (now : Instant) (pool : OfferPool) : OfferPool :=
  pool.upsert code ⟨offerId, environment, .available, none, none, none, now⟩ id

/-! ### The calls beside each other -/

/-- Where the call of a connection stands. -/
inductive DispensePhase where
  | ready
  | checked (call : DispenseCall) (rounds : Nat)
  | picked (call : DispenseCall) (rounds : Nat) (code : PyStr)
  | claimed (call : DispenseCall) (code : PyStr)
  | exhausted
  | loading
  | failed

/-- The pool with its connections, the calls, and what has been returned. -/
structure Dispensary where
  store : Store Nat OfferPool
  phases : Nat → DispensePhase
  returned : List (DispenseCall × PyStr)

/-- Before any call. -/
def Dispensary.start (pool : OfferPool) : Dispensary := ⟨.start pool, fun _ => .ready, []⟩

/-- A transaction statement of the code around the calls, which leaves the pool alone. -/
inductive OtherStatement where
  | begin
  | select
  | write
  | commit
  | rollback

def OtherStatement.op : OtherStatement → StoreOp OfferPool
  | .begin => .begin
  | .select => .read
  | .write => .write id
  | .commit => .commit
  | .rollback => .rollback

/-- A statement of a connection; `locked` when another connection keeps it waiting for too long. -/
inductive DispenseAction where
  | check (c : Nat) (request : DispenseRequest)
  | pick (c : Nat)
  | claim (c : Nat) (now : Instant) (locked : Bool)
  | commit (c : Nat) (locked : Bool)
  | load (c : Nat) (offerId environment code : PyStr) (now : Instant) (locked : Bool)
  | abort (c : Nat)
  | close (c : Nat)
  | other (c : Nat) (statement : OtherStatement)

namespace Dispensary

/-- A transaction statement, and the phase that follows it. -/
def took (d : Dispensary) (c : Nat) (op : StoreOp OfferPool) (phase : DispensePhase) : Dispensary :=
  { d with store := d.store.apply c op, phases := Function.update d.phases c phase }

def setPhase (d : Dispensary) (c : Nat) (phase : DispensePhase) : Dispensary :=
  { d with phases := Function.update d.phases c phase }

/-- A write, and the phase that follows it; the call raises when it is locked out. -/
def wrote (d : Dispensary) (c : Nat) (locked : Bool) (f : OfferPool → OfferPool)
    (phase : DispensePhase) : Dispensary :=
  if locked || !d.store.free c then d.took c .begin .failed else d.took c (.write f) phase

def returns (d : Dispensary) (call : DispenseCall) (code : PyStr) : Dispensary :=
  { d with returned := d.returned ++ [(call, code)] }

/-- The look-up of the code this actor has already; without an actor there is nothing to do. -/
def check (d : Dispensary) (c : Nat) (request : DispenseRequest) : Dispensary :=
  match request.call? with
  | none => d
  | some call =>
      match existingCode call (d.store.view c) with
      | some code => (d.took c .read .ready).returns call code
      | none => d.took c .read (.checked call reserveRetries)

/-- A round begins: without a candidate the call returns `None`. -/
def pick (d : Dispensary) (c : Nat) (call : DispenseCall) (rounds : Nat) : Dispensary :=
  match candidateCode call (d.store.view c) with
  | some code => d.took c .read (.picked call rounds code)
  | none => d.took c .read .ready

/-- The guarded update: a code that is gone leads to the next round. -/
def claim (d : Dispensary) (c : Nat) (now : Instant) (locked : Bool) (call : DispenseCall)
    (rounds : Nat) (code : PyStr) : Dispensary :=
  d.wrote c locked (claimCode call now code)
    (if claims code (d.store.view c) then .claimed call code
      else if rounds = 0 then .exhausted else .checked call rounds)

end Dispensary

/-- The statements of any number of connections. -/
def dispenseMachine : Machine Dispensary DispenseAction where
  step
    | .check c request, d =>
        match d.phases c with
        | .ready => some (d.check c request)
        | _ => none
    | .pick c, d =>
        match d.phases c with
        | .checked call (rounds + 1) => some (d.pick c call rounds)
        | _ => none
    | .claim c now locked, d =>
        match d.phases c with
        | .picked call rounds code => some (d.claim c now locked call rounds code)
        | _ => none
    | .commit c locked, d =>
        match d.phases c with
        | .claimed call code =>
            if locked then some (d.setPhase c .failed)
            else some ((d.took c .commit .ready).returns call code)
        | .exhausted | .loading =>
            if locked then some (d.setPhase c .failed) else some (d.took c .commit .ready)
        | _ => none
    | .load c offerId environment code now locked, d =>
        match d.phases c with
        | .ready | .loading =>
            some (d.wrote c locked (loadCode offerId environment code now) .loading)
        | _ => none
    | .abort c, d => some (d.setPhase c .failed)
    | .close c, d => some (d.took c .rollback .ready)
    | .other c statement, d =>
        match d.phases c with
        | .ready => some (d.took c statement.op .ready)
        | _ => none

end GhostPour.Offers
