/-
Module: GhostPour.Configs.VersionGate
Layer: Model
Purpose: The force-upgrade gate (`evaluate` in `src/app/services/version_gate.py`): the app's row of the
  version registry, the blocklist, and the floor a version is compared with. `none` is an exception that
  escapes; `load_apps` always gives a mapping of apps, the rows hold whatever the file held.
Trusted boundary: human-reviewed spec
Main exports: Version, semver, bundleForApp, Refusal, payload, gate, evaluate
-/
import GhostPour.Library.PyInt

namespace GhostPour

namespace Configs.VersionGate

/-! ### Versions -/

/-- A parsed version. -/
structure Version where
  major : Int
  minor : Int
  patch : Int
deriving DecidableEq, Repr

/-- `<` of two parsed versions: the first component that differs decides. -/
def Version.lt (v w : Version) : Bool :=
  v.major < w.major || v.major == w.major && (v.minor < w.minor || v.minor == w.minor && v.patch < w.patch)

/-- The components, with zeros for those that are missing. -/
def Version.ofNumbers (out : List Int) : Version := ⟨out.getD 0 0, out.getD 1 0, out.getD 2 0⟩

section
variable [PyRuntime]

/-- `"".join(ch for ch in p if ch.isdigit())`. -/
def digitsOf (p : PyStr) : PyStr := p.filter isDigit

/-- The numbers of the components; a component without a digit ends it without an answer. -/
def numbersOf : List PyStr → Py (Option (List Int))
  | [] => some (some [])
  | p :: parts =>
      if digitsOf p = [] then some none
      else (intBase10 (digitsOf p)).bind fun n => (numbersOf parts).map (Option.map (n :: ·))

/-- `str(v).strip().split(".")`. -/
def partsOf (v : PyStr) : List PyStr := splitAt '.' (strip v)

/-- `_semver`. -/
def semver (v : PyStr) : Py (Option Version) :=
  match partsOf v with
  | [] | [] :: _ => some none
  | parts => (numbersOf (parts.take 3)).map (Option.map Version.ofNumbers)

/-! ### The row of an app -/

/-- The first entry of the slug that is a mapping gives the bundle id. -/
def bundleIn (want : PyStr) : List (PyStr × Json) → Option PyStr
  | [] => none
  | (slug, .obj entry) :: apps =>
      if lower slug = want then
        let bid := Dict.get entry (py "bundle_id")
        if bid.truthy then some bid.str' else none
      else bundleIn want apps
  | _ :: apps => bundleIn want apps

/-- `_bundle_for_app`. -/
def bundleForApp (apps : Dict) (appId : Option PyStr) : Option PyStr :=
  let appId := appId.getD []
  if appId.isEmpty then none else bundleIn (lower (strip appId)) apps

/-- `(v or {})`, on which `.get` is called. -/
def asMapping (v : Json) : Py Dict :=
  if v.truthy then
    match v with
    | .obj members => some members
    | _ => none
  else some []

/-- The body of a refusal. -/
structure Refusal where
  code : PyStr
  message : Json
  upgradeUrl : Json
  minSupportedVersion : Json

/-- `a or b`. -/
def orElse (a b : Json) : Json := if a.truthy then a else b

/-- `_payload`. -/
def payload (plat : Dict) : Refusal where
  code := py "upgrade_required"
  message := orElse (plat.get (py "blocking_message"))
    (.str (py "A newer version of the app is required to continue. Please update."))
  upgradeUrl := orElse ((plat.get (py "latest")).field "upgrade_url") (plat.get (py "upgrade_url"))
  minSupportedVersion := plat.get (py "min_supported_version")

/-! ### The gate -/

/-- `header and str(header) in blocked`. -/
def isBlocked (blocked : List PyStr) (header : Option PyStr) : Bool :=
  let header := header.getD []
  !header.isEmpty && blocked.contains header

/-- What the row of a platform says about a build. -/
def gate (plat : Dict) (appVersion appBuild : Option PyStr) : Py (Option Refusal) :=
  (plat.get (py "blocked_versions")).iterateOrEmpty.bind fun entries =>
    let blocked := entries.map Json.str'
    if isBlocked blocked appVersion || isBlocked blocked appBuild then some (some (payload plat))
    else if !(plat.get (py "min_supported_blocking")).truthy then some none
    else
      (semver (plat.get (py "min_supported_version")).strOrEmpty).bind fun floor =>
        (semver (appVersion.getD [])).map fun have_ =>
          match floor, have_ with
          | some floor, some have_ => if have_.lt floor then some (payload plat) else none
          | _, _ => none

/-- `evaluate`. -/
def evaluate (versionRegistry apps : Dict) (appId appVersion appBuild : Option PyStr) (platform : PyStr) :
    Py (Option Refusal) :=
  match bundleForApp apps appId with
  | none => some none
  | some bundle =>
      match versionRegistry.get bundle with
      | .obj entry =>
          (asMapping (Dict.get entry (py "platforms"))).bind fun platforms =>
            match platforms.get platform with
            | .obj plat => gate plat appVersion appBuild
            | _ => some none
      | _ => some none

end

end Configs.VersionGate

end GhostPour
