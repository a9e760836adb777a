/-
Module: GhostPour.Configs.ConfigDelivery
Layer: Model
Purpose: The remote configs in memory, the state the entitlements matrix gives a feature, and the copy of the
  tiers bundle that `app/services/recall_window.py` fills at serve time. `get_config` of
  `app/routers/config.py`: the app directory, the build pin, the candidate slugs and the locale that a request
  resolves to, and the answer it gets; and a client that keeps the last document it received and sends its
  version, beside edits that bump the version of what they replace.
Trusted boundary: human-reviewed spec
Main exports: RemoteConfig, RemoteConfigs, readOr, entitlementState, projectChatWindowDays, sharedWindowTier,
  renderRecallWindowCopy, AppRegistry, resolveAppDir, resolveBuildPin, candidateSlugs, parseAcceptLanguage,
  Visit, resolveName, ConfigAnswer, getConfig, ConfigState, ConfigAction, configMachine
-/
import GhostPour.Library.Machine
import GhostPour.Library.PyInt
import GhostPour.Library.Substitution

namespace GhostPour.Configs

/-- A config that `load_remote_configs` has read: a document with a `version`, an integer. -/
structure RemoteConfig where
  doc : Dict
  version : Int
  versioned : doc.get (py "version") = .int version
  legible : (strOfNat version.natAbs).length ≤ maxStrDigits

/-- `app.state.remote_configs`, by slug. -/
abbrev RemoteConfigs := Assoc RemoteConfig

variable [PyRuntime]

/-- `(v or {}).get(key)`, which raises on a truthy value that is no dict. -/
def readOr (v : Json) (key : PyStr) : Py Json :=
  match v with
  | .obj d => some (Dict.get d key)
  | v => if v.truthy then none else some .null

/-- `remote_configs.get(slug)`. -/
def configJson (configs : RemoteConfigs) (slug : PyStr) : Json :=
  (configs.get slug).elim .null fun config => .obj config.doc

/-! ### The entitlements matrix -/

/-- `STATES`. -/
def entitlementStates : List PyStr := [py "enabled", py "teaser", py "disabled"]

/-- `entitlement_matrix`, of the flat slug. -/
def entitlementMatrix (configs : RemoteConfigs) : Dict :=
  match (configJson configs (py "entitlements")).field "matrix" with
  | .obj matrix => matrix
  | _ => []

/-- `entitlement_state`, of the flat slug. -/
def entitlementState (configs : RemoteConfigs) (tier feature : PyStr) : PyStr :=
  match (entitlementMatrix configs).get feature with
  | .obj cells =>
      match Dict.get cells tier with
      | .str state => if state ∈ entitlementStates then state else py "disabled"
      | _ => py "disabled"
  | _ => py "disabled"

/-! ### The copy that is filled at serve time -/

/-- `project_chat_window_days`. -/
def projectChatWindowDays (configs : RemoteConfigs) (tier : PyStr) : Py (Option Int) := do
  let tiers ← readOr (configJson configs (py "tiers")) (py "tiers")
  let block ← readOr tiers tier
  let definitions ← readOr block (py "feature_definitions")
  let feature ← readOr definitions (py "project_chat")
  match ← readOr feature (py "meeting_window_days") with
  | .int days => some (if 1 ≤ days then some days else none)
  | _ => some none

/-- `_shared_window_tier`. -/
def sharedWindowTier (configs : RemoteConfigs) : PyStr :=
  ([py "free", py "plus", py "pro"].find? fun tier =>
    entitlementState configs tier (py "context_quilt") = py "enabled").getD (py "plus")

/-- `PLACEHOLDER`. -/
def windowPlaceholder : PyStr := py "\x7brecall_window_days\x7d"

/-- `fill`. -/
def fillWindow (days : Option Int) (text : PyStr) : PyStr :=
  if isIn windowPlaceholder text then
    replaceAll windowPlaceholder (days.elim (py "recent") strOfInt) text
  else text

mutual

/-- `walk` below the top. -/
def walkCopy (days : Option Int) : Json → Json
  | .str text => .str (fillWindow days text)
  | .arr items => .arr (walkCopyItems days items)
  | .obj members => .obj (walkCopyMembers days members)
  | v => v

def walkCopyItems (days : Option Int) : List Json → List Json
  | [] => []
  | v :: items => walkCopy days v :: walkCopyItems days items

def walkCopyMembers (days : Option Int) : List (PyStr × Json) → List (PyStr × Json)
  | [] => []
  | (key, v) :: members => (key, walkCopy days v) :: walkCopyMembers days members

end

/-- The blocks under `tiers`, each with its own tier's window. -/
def walkTiers (configs : RemoteConfigs) (blocks : Dict) : Py Dict :=
  blocks.mapM fun (tier, block) =>
    (projectChatWindowDays configs tier).map fun days => (tier, walkCopy days block)

/-- `render_recall_window_copy`. -/
def renderRecallWindowCopy (configs : RemoteConfigs) (payload : Dict) : Py Dict := do
  let shared ← projectChatWindowDays configs (sharedWindowTier configs)
  payload.mapM fun (key, v) =>
    match key == py "tiers", v with
    | true, .obj blocks => (walkTiers configs blocks).map fun filled => (key, .obj filled)
    | _, _ => some (key, walkCopy shared v)

end GhostPour.Configs

namespace GhostPour.Configs

variable [PyRuntime]

/-! ### What a request resolves to -/

/-- `apps.yml`: the default app, and the `dir` of each app that is registered. -/
structure AppRegistry where
  defaultApp : PyStr
  dirs : Assoc (Option PyStr)

/-- `resolve_app_dir`. -/
def resolveAppDir (registry : AppRegistry) (appId : Option PyStr) : PyStr :=
  let defaultDir := ((registry.dirs.get registry.defaultApp).bind id).getD (py "shouldersurf")
  let norm := lower (strip (appId.getD []))
  if norm = [] ∨ norm = py "unknown" then defaultDir
  else
    match registry.dirs.get norm with
    | some dir => dir.getD defaultDir
    | none => defaultDir

/-- The directory of a build ceiling. -/
def pinDir (ceiling : Nat) : PyStr := py "build-lte-" ++ strOfNat ceiling

/-- `resolve_build_pin`, of the ceilings that have a directory. -/
def resolveBuildPin (ceilings : List Nat) (appBuild : Option PyStr) : Option PyStr :=
  let pins := ceilings.insertionSort (· ≤ ·)
  let build := (appBuild.bind intBase10).getD (-1)
  if build < 0 then pins.head?.map pinDir
  else (pins.find? fun pin : Nat => build ≤ (pin : Int)).map pinDir

/-- `_SLUG_ALIASES`. -/
def slugAlias (appDir name : PyStr) : Option PyStr :=
  if appDir = py "i765" ∧ name = py "filing-i765" then some (py "filing") else none

/-- `f"{dir}/{name}"`. -/
def under (dir name : PyStr) : PyStr := dir ++ py "/" ++ name

/-- `candidate_slugs`. -/
def candidateSlugs (appDir name : PyStr) (tester : Bool) (buildPin : Option PyStr) : List PyStr :=
  let base := [under appDir name] ++
    (if appDir = py "techrehearsal" ∧ startsWith (py "tr-") name then [under appDir (name.drop 3)]
      else []) ++
    ((slugAlias appDir name).map (under appDir)).toList ++ [name]
  (if tester then base.map (under (py "tester")) else []) ++
    buildPin.elim [] (fun pin => base.map (under pin)) ++ base

/-- `_parse_accept_language`. -/
def parseAcceptLanguage (header : Option PyStr) : Option PyStr :=
  let first := strip (((splitAt ',' (header.getD [])).headD []))
  let tag := strip ((splitAt ';' first).headD [])
  let lang := lower ((splitAt '-' tag).headD [])
  if lang ≠ [] ∧ lang ≠ py "en" then some lang else none

/-- What a request says of its client, `X-Config-Version` apart; whether the account is an active tester
is what `resolve_audience` finds. -/
structure Visit where
  appId : Option PyStr
  build : Option PyStr
  language : Option PyStr
  tester : Bool

/-- A candidate in the locale, then the candidate. -/
def variants (locale : Option PyStr) (candidate : PyStr) : List PyStr :=
  (locale.map fun l => candidate ++ py "." ++ l).toList ++ [candidate]

/-- The deployment: its apps, its build ceilings, and the name that is asked for. -/
structure Shelf where
  registry : AppRegistry
  ceilings : List Nat
  name : PyStr

/-- The first slug of the walk that has a config. -/
def resolveName (shelf : Shelf) (configs : RemoteConfigs) (visit : Visit) : Option PyStr :=
  let candidates := candidateSlugs (resolveAppDir shelf.registry visit.appId) shelf.name visit.tester
    (resolveBuildPin shelf.ceilings visit.build)
  (candidates.flatMap (variants (parseAcceptLanguage visit.language))).find? fun slug =>
    (configs.get slug).isSome

/-! ### The answer -/

/-- The slugs whose copy is filled at serve time. -/
def filledAtServe (slug : PyStr) : Bool := slug == py "tiers" || startsWith (py "tiers.") slug

/-- The content served for a config. -/
def contentOf (configs : RemoteConfigs) (slug : PyStr) (config : RemoteConfig) : Py Dict :=
  if filledAtServe slug then renderRecallWindowCopy configs config.doc else some config.doc

/-- The config a request is answered from, with its slug. A `server_only` one answers like an unknown
slug. -/
def resolved (shelf : Shelf) (configs : RemoteConfigs) (visit : Visit) :
    Option (PyStr × RemoteConfig) :=
  (resolveName shelf configs visit).bind fun slug =>
    (configs.get slug).bind fun config =>
      if (config.doc.get (py "server_only")).truthy then none else some (slug, config)

/-- 404, "not changed", the document, or an error while it is filled. -/
inductive ConfigAnswer where
  | unknown
  | notChanged (slug : PyStr) (version : Int)
  | document (slug : PyStr) (content : Dict) (version : Int)
  | failed

/-- `get_config`, with the `X-Config-Version` that is sent. -/
def getConfig (shelf : Shelf) (configs : RemoteConfigs) (visit : Visit) (sent : Option PyStr) :
    ConfigAnswer :=
  match resolved shelf configs visit with
  | none => .unknown
  | some (slug, config) =>
      if (sent.bind intBase10).any fun client => config.version ≤ client then
        .notChanged slug config.version
      else
        match contentOf configs slug config with
        | none => .failed
        | some content => .document slug content config.version

/-! ### The client -/

/-- The last document a client received: the slug it was resolved to, its content, its version. -/
structure Held where
  slug : PyStr
  content : Dict
  version : Int

structure ConfigState where
  configs : RemoteConfigs
  held : Option Held

/-- The client asks, or a config is written. -/
inductive ConfigAction where
  | get (visit : Visit)
  | edit (slug : PyStr) (config : RemoteConfig)

namespace ConfigState

/-- The version the client sends. -/
def sent (s : ConfigState) : Option PyStr := s.held.map fun h => strOfInt h.version

/-- The client keeps a document it receives. -/
def receive (s : ConfigState) : ConfigAnswer → ConfigState
  | .document slug content version => { s with held := some ⟨slug, content, version⟩ }
  | _ => s

end ConfigState

/-- A config is replaced by one of a higher version; a slug that has none takes any. -/
def Bumps (configs : RemoteConfigs) (slug : PyStr) (config : RemoteConfig) : Prop :=
  ∀ old ∈ configs.get slug, old.version < config.version

instance (configs : RemoteConfigs) (slug : PyStr) (config : RemoteConfig) :
    Decidable (Bumps configs slug config) :=
  inferInstanceAs (Decidable (∀ old ∈ configs.get slug, old.version < config.version))

/-- One client's requests for one name, and the edits between them. -/
def configMachine (shelf : Shelf) : Machine ConfigState ConfigAction where
  step
    | .get visit, s => some (s.receive (getConfig shelf s.configs visit s.sent))
    | .edit slug config, s =>
        if Bumps s.configs slug config then some { s with configs := s.configs.set slug config } else none

end GhostPour.Configs
