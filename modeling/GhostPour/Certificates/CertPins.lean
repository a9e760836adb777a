/-
Module: GhostPour.Certificates.CertPins
Layer: Model
Purpose: `app/services/cert_pin_signing.py` and `app/services/cert_pin_auto_republish.py`: publishing a
  signed manifest of certificate pins, and the tick of the daemon that publishes again near expiry or
  when a host presents a chain outside the published pins. A manifest keeps its instants as readings;
  their ISO texts read back as themselves. The base64 decoder and the Ed25519 signature are
  parameters; the alerts by mail and the log are left out.
Trusted boundary: human-reviewed spec
Main exports: Handshake, fetchCurrentChainPins, Manifest, publishManifest, livePins, CheckResult,
  maybeAutoRepublish, PinAction, CertPins.next, pinMachine
-/
import GhostPour.Library.Calendar
import GhostPour.Library.Machine
import GhostPour.Library.PyText

namespace GhostPour.Certificates

/-! ### The chain a host presents -/

/-- What `openssl s_client` gives for one handshake: the reason it was not run to its end, or the
certificates it prints, each with the pin of its key or the reason it cannot be read. -/
inductive Handshake where
  | failed (why : PyStr)
  | printed (certs : List (Except PyStr PyStr))

/-- `fetch_current_chain_pins`, on port 443: everything above the leaf. -/
def fetchCurrentChainPins (host : PyStr) : Handshake → Except PyStr (List PyStr)
  | .failed why => .error (py "openssl s_client to " ++ host ++ py ":443 failed: " ++ why)
  | .printed certs =>
      if certs.length < 2 then
        .error (py "chain from " ++ host ++ py ":443 only has " ++ strOfInt certs.length ++
          py " cert(s); expected at least leaf + intermediate")
      else certs.tail.mapM id

/-! ### The manifests -/

/-- A row of `cert_pin_manifest`, in the shape that goes over the wire. -/
structure Manifest where
  version : Nat
  pins : List PyStr
  issuedAt : Instant
  expiresAt : Instant
  signature : PyStr
deriving DecidableEq

/-- The fields of `Settings` that are read. -/
structure Settings where
  signingKey : PyStr
  hosts : PyStr
  selfHost : PyStr

/-- `cert_pin_host_list`. -/
def Settings.hostList (settings : Settings) : List PyStr :=
  let hosts := ((settings.hosts.splitOn comma).map strip).filter (· ≠ [])
  if hosts ≠ [] then hosts else if settings.selfHost ≠ [] then [settings.selfHost] else []

/-- The base64 decoder, and the Ed25519 signature of a manifest without its signature. -/
structure Signing where
  decode : PyStr → Except PyStr (List Nat)
  sign : List Nat → Manifest → PyStr

/-- `_load_private_key`. -/
def loadPrivateKey (signing : Signing) (settings : Settings) : Except PyStr (List Nat) :=
  let raw := strip settings.signingKey
  if raw = [] then
    .error (py "CZ_CERT_PIN_SIGNING_KEY_RAW_B64 is not set; cannot sign cert pin manifest")
  else
    match signing.decode raw with
    | .error e => .error (py "signing key is not valid base64: " ++ e)
    | .ok key =>
        if key.length ≠ 32 then
          .error (py "signing key must be 32 raw bytes, got " ++ strOfInt key.length)
        else .ok key

/-- `sign_manifest`. -/
def signManifest (signing : Signing) (settings : Settings) (unsigned : Manifest) :
    Except PyStr Manifest :=
  (loadPrivateKey signing settings).map fun key =>
    { unsigned with signature := signing.sign key unsigned }

/-- `_next_version`. -/
def nextVersion (rows : List Manifest) : Nat := (rows.map Manifest.version).foldl max 0 + 1

/-- `latest_manifest`: the row of the highest version. -/
def latestManifest (rows : List Manifest) : Option Manifest := rows.argmax Manifest.version

/-- `publish_manifest`: the rows with the new one, and the new one. -/
def publishManifest (signing : Signing) (settings : Settings) (now : Instant) (pins : List PyStr)
    (daysValid : Int) (rows : List Manifest) : Except PyStr (List Manifest × Manifest) :=
  if pins = [] then .error (py "pins list cannot be empty")
  else if daysValid ≤ 0 ∨ 365 < daysValid then .error (py "days_valid must be between 1 and 365")
  else
    (signManifest signing settings
      ⟨nextVersion rows, pins, now, now + daysValid.toNat * microsPerDay, []⟩).map fun manifest =>
        (rows ++ [manifest], manifest)

/-! ### The tick of the daemon -/

/-- `_AUTO_REPUBLISH_THRESHOLD_DAYS`. -/
def autoRepublishThresholdDays : Nat := 7

/-- `_AUTO_REPUBLISH_DAYS_VALID`. -/
def autoRepublishDaysValid : Int := 60

/-- One tick: the settings, its reading of the clock, how much later a manifest is issued, and the
handshakes in the order they are made. -/
structure Tick where
  settings : Settings
  now : Instant
  later : Nat
  presents : Nat → Handshake

/-- The pins of a chain that are not yet seen are added at the end. -/
def addUnseen (seen : List PyStr) (pins : List PyStr) : List PyStr :=
  pins.foldl (fun seen pin => if pin ∈ seen then seen else seen ++ [pin]) seen

/-- The loop of `_live_pins` over the hosts, from the `n`th handshake on. -/
def livePinsFrom (presents : Nat → Handshake) :
    Nat → List PyStr → List PyStr → Except PyStr (List PyStr)
  | _, [], seen => .ok seen
  | n, host :: hosts, seen =>
      match fetchCurrentChainPins host (presents n) with
      | .error e => .error e
      | .ok pins => livePinsFrom presents (n + 1) hosts (addUnseen seen pins)

/-- `_live_pins`: the union of the chains, sorted. -/
def livePins (tick : Tick) : Except PyStr (List PyStr) :=
  (livePinsFrom tick.presents 0 tick.settings.hostList []).map fun seen =>
    seen.insertionSort (· ≤ ·)

/-- The `action` of a check. -/
inductive CheckAction where
  | republished
  | republishedDrift
  | noopHealthy
  | noopNoSigning
  | probeFailed
  | failed
deriving DecidableEq

/-- What the `detail` of a check shows. -/
inductive CheckDetail where
  | noSigningKey
  | probeFailed (error : PyStr)
  | healthy (remaining : Int)
  | chainFetchFailed (error : PyStr)
  | signingFailed (error : PyStr)
  | published (manifest : Manifest) (pinsChanged drifted : Bool)
deriving DecidableEq

/-- `CheckResult`. -/
structure CheckResult where
  checkedAt : Instant
  action : CheckAction
  versionAfter : Option Nat
  detail : CheckDetail
  hosts : List PyStr
deriving DecidableEq

/-- The republish path, with the pins that were read on this tick, or with the error of reading
them. -/
def republish (signing : Signing) (tick : Tick) (rows : List Manifest) (drifted : Bool)
    (live : Except PyStr (List PyStr)) : List Manifest × CheckResult :=
  let current := latestManifest rows
  let priorPins := (current.map Manifest.pins).getD []
  match live with
  | .error e =>
      (rows, ⟨tick.now, .failed, current.map Manifest.version, .chainFetchFailed e,
        tick.settings.hostList⟩)
  | .ok live =>
      let pinsChanged := !priorPins.isEmpty && !(live ⊆ priorPins && priorPins ⊆ live)
      match publishManifest signing tick.settings (tick.now + tick.later) live
          autoRepublishDaysValid rows with
      | .error e =>
          (rows, ⟨tick.now, .failed, current.map Manifest.version, .signingFailed e,
            tick.settings.hostList⟩)
      | .ok (rows', manifest) =>
          (rows', ⟨tick.now, if drifted then .republishedDrift else .republished,
            some manifest.version, .published manifest pinsChanged drifted,
            tick.settings.hostList⟩)

/-- The drift probe of a manifest that has still to run, and what follows it. -/
def probe (signing : Signing) (tick : Tick) (rows : List Manifest) (current : Manifest) :
    List Manifest × CheckResult :=
  let healthy : List Manifest × CheckResult :=
    (rows, ⟨tick.now, .noopHealthy, some current.version,
      .healthy ((current.expiresAt : Int) - tick.now), tick.settings.hostList⟩)
  if current.pins = [] then healthy
  else
    match livePins tick with
    | .error e =>
        (rows, ⟨tick.now, .probeFailed, some current.version, .probeFailed e,
          tick.settings.hostList⟩)
    | .ok live =>
        if live ≠ [] ∧ ¬ live ⊆ current.pins then republish signing tick rows true (.ok live)
        else healthy

/-- `maybe_auto_republish`. The chains are read once: by the drift probe, or on the republish
path. -/
def maybeAutoRepublish (signing : Signing) (tick : Tick) (rows : List Manifest) :
    List Manifest × CheckResult :=
  if strip tick.settings.signingKey = [] then
    (rows, ⟨tick.now, .noopNoSigning, none, .noSigningKey, tick.settings.hostList⟩)
  else
    match latestManifest rows with
    | none => republish signing tick rows false (livePins tick)
    | some current =>
        if current.expiresAt ≤ tick.now + autoRepublishThresholdDays * microsPerDay then
          republish signing tick rows false (livePins tick)
        else probe signing tick rows current

/-! ### Runs -/

/-- The stored rows in the order they were inserted, and `_last_check`. -/
structure CertPins where
  rows : List Manifest
  lastCheck : Option CheckResult

/-- An admin publishes a manifest, the daemon ticks, or the service restarts. -/
inductive PinAction where
  | publish (settings : Settings) (now : Instant) (pins : List PyStr) (daysValid : Int)
  | tick (tick : Tick)
  | restart

namespace CertPins

/-- A new database. -/
def start : CertPins := ⟨[], none⟩

/-- `admin_cert_pins_publish`: an error leaves the rows as they are. -/
def publish (signing : Signing) (s : CertPins) (settings : Settings) (now : Instant)
    (pins : List PyStr) (daysValid : Int) : CertPins :=
  match publishManifest signing settings now pins daysValid s.rows with
  | .error _ => s
  | .ok (rows, _) => { s with rows := rows }

/-- One tick, kept as the last check. -/
def tick (signing : Signing) (s : CertPins) (tick : Tick) : CertPins :=
  let (rows, result) := maybeAutoRepublish signing tick s.rows
  ⟨rows, some result⟩

/-- What an action leaves. -/
def next (signing : Signing) (s : CertPins) : PinAction → CertPins
  | .publish settings now pins daysValid => s.publish signing settings now pins daysValid
  | .tick t => s.tick signing t
  | .restart => { s with lastCheck := none }

end CertPins

/-- The publishes, the ticks and the restarts, each run to its end. -/
def pinMachine (signing : Signing) : Machine CertPins PinAction where
  step a s := some (s.next signing a)

end GhostPour.Certificates
