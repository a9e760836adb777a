/-
Module: GhostPour.Configs.OverlayHydration
Layer: Model
Purpose: The startup pass of `app/routers/config.py` over the bundled configs and their overlays: what
  hydration adds to an overlay, and the drift report. Files are the values that are read from them, and
  the writes of a pass succeed.
Trusted boundary: human-reviewed spec
Main exports: pyEqual, hydrateWalk, driftWalk, ConfigDoc, intOf, encodable, hydrateOverlay,
  overlayDrift, ConfigFile, hydrateOverlayAdditions, detectOverlayDrift
-/
import GhostPour.Library.JsonWalk
import GhostPour.Library.PyInt
import GhostPour.Library.Substitution

namespace GhostPour.Configs

/-- `_escape_pointer_token`. -/
def escapePointerToken (token : PyStr) : PyStr :=
  replaceAll (py "/") (py "~1") (replaceAll (py "~") (py "~0") token)

/-- `f"{ptr}/{_escape_pointer_token(key)}"`. -/
def keyPointer (ptr key : PyStr) : PyStr := ptr ++ py "/" ++ escapePointerToken key

/-- `f"{ptr}/{i}"`. -/
def itemPointer (ptr : PyStr) (i : Nat) : PyStr := ptr ++ py "/" ++ strOfNat i

/-! ### The two walks -/

mutual

/-- `_hydrate_walk`: the overlay node as it is left, and the pointers that were added. What is added is
`json.loads(json.dumps(v))`, which `loads_dumps` says is `v`. -/
def hydrateWalk : Json → Json → PyStr → Json × List PyStr
  | .obj members, .obj overlay, ptr =>
      let (overlay', added) := hydrateMembers members overlay ptr
      (.obj overlay', added)
  | .arr bs, .arr os, ptr =>
      if Json.lockstep bs os then
        let (os', added) := hydrateItems bs os ptr 0
        (.arr os', added)
      else (.arr os, [])
  | _, overlay, _ => (overlay, [])

def hydrateMembers : List (PyStr × Json) → Dict → PyStr → Dict × List PyStr
  | [], overlay, _ => (overlay, [])
  | (key, v) :: members, overlay, ptr =>
      let (overlay', added) :=
        if Dict.has overlay key then
          let (child, added) := hydrateWalk v (Dict.get overlay key) (keyPointer ptr key)
          (Dict.set overlay key child, added)
        else (Dict.set overlay key v, [keyPointer ptr key])
      let (overlay'', more) := hydrateMembers members overlay' ptr
      (overlay'', added ++ more)

def hydrateItems : List Json → List Json → PyStr → Nat → List Json × List PyStr
  | b :: bs, o :: os, ptr, i =>
      let (o', added) := hydrateWalk b o (itemPointer ptr i)
      let (os', more) := hydrateItems bs os ptr (i + 1)
      (o' :: os', added ++ more)
  | _, os, _, _ => (os, [])

end

section
variable [PyRuntime]

/-- `a == b`. Elements of a list and values of a dict are also equal when they are one object, as every
NaN that `json.loads` reads is. -/
def pyEqual : Json → Json → Bool
  | .arr xs, .arr ys => Json.deepBy Json.sameKey (.arr xs) (.arr ys)
  | .obj xs, .obj ys => Json.deepBy Json.sameKey (.obj xs) (.obj ys)
  | a, b => a.same b

mutual

/-- `_drift_walk`. -/
def driftWalk : Json → Json → PyStr → List PyStr
  | .obj members, .obj overlay, ptr => driftMembers members overlay ptr
  | .arr bs, .arr os, ptr =>
      if Json.lockstep bs os then driftItems bs os ptr 0
      else if pyEqual (.arr bs) (.arr os) then [] else [if ptr = [] then py "/" else ptr]
  | b, o, ptr => if pyEqual b o then [] else [if ptr = [] then py "/" else ptr]

def driftMembers : List (PyStr × Json) → Dict → PyStr → List PyStr
  | [], _, _ => []
  | (key, v) :: members, overlay, ptr =>
      (if Dict.has overlay key then driftWalk v (Dict.get overlay key) (keyPointer ptr key) else []) ++
        driftMembers members overlay ptr

def driftItems : List Json → List Json → PyStr → Nat → List PyStr
  | b :: bs, o :: os, ptr, i => driftWalk b o (itemPointer ptr i) ++ driftItems bs os ptr (i + 1)
  | _, _, _, _ => []

end

/-! ### One overlay -/

/-- An object that `json.loads` has read. -/
structure ConfigDoc where
  members : Dict
  canonical : (Json.obj members).Canonical

/-- A text that UTF-8 has bytes for: no surrogate is in it. -/
def encodableText (text : PyStr) : Bool := text.all fun c => !(0xD800 ≤ c && c ≤ 0xDFFF)

mutual

/-- A value that `write_text` can write as `json.dumps(_, ensure_ascii=False)` shows it. -/
def encodable : Json → Bool
  | .str text => encodableText text
  | .arr items => encodableItems items
  | .obj members => encodableMembers members
  | _ => true

def encodableItems : List Json → Bool
  | [] => true
  | v :: items => encodable v && encodableItems items

def encodableMembers : List (PyStr × Json) → Bool
  | [] => true
  | (key, v) :: members => encodableText key && encodable v && encodableMembers members

end

/-- `"version"`. -/
def versionKey : PyStr := py "version"

section
variable (truncate : PyStr → Option Int)

/-- `int(v)`, with `int` of a float: the infinities and NaN have none. -/
def intOf : Json → Option Int
  | .int n => some n
  | .bool b => some (if b then 1 else 0)
  | .float t => truncate t
  | .str text => intBase10 text
  | _ => none

/-- `hydrate_overlay_additions` on one bundle and its overlay: the overlay that is on disk then, and the
pointers that were added. -/
def hydrateOverlay (bundle overlay : Dict) : Py (Dict × List PyStr) :=
  let (overlay', added) := hydrateMembers bundle overlay []
  if added = [] then some (overlay, [])
  else
    let version := if Dict.has overlay' versionKey then Dict.get overlay' versionKey else .int 0
    (intOf truncate version).bind fun n =>
      let bumped := Dict.set overlay' versionKey (.int (n + 1))
      if encodableMembers bumped then some (bumped, added) else none

end

/-- A bundle without its version. -/
def withoutVersion (bundle : Dict) : Dict := bundle.filter (·.1 ≠ versionKey)

/-- `detect_overlay_drift` on one bundle and its overlay. -/
def overlayDrift (bundle overlay : Dict) : List PyStr := driftMembers (withoutVersion bundle) overlay []

/-! ### The directories -/

/-- A bundled config with its overlay; a file that is missing or cannot be read has no value. -/
structure ConfigFile where
  slug : PyStr
  bundle : Option Json
  overlay : Option Json

/-- One turn of the loop: the file as it is left, and whether it was modified. -/
def hydrateFile (truncate : PyStr → Option Int) (file : ConfigFile) : Py (ConfigFile × Bool) :=
  match file.bundle, file.overlay with
  | some (.obj bundle), some (.obj overlay) =>
      (hydrateOverlay truncate bundle overlay).map fun (overlay', added) =>
        ({ file with overlay := some (.obj overlay') }, !added.isEmpty)
  | _, _ => some (file, false)

/-- `hydrate_overlay_additions`: the files as they are left, and how many were modified. -/
def hydrateOverlayAdditions (truncate : PyStr → Option Int) (files : List ConfigFile) :
    Py (List ConfigFile × Nat) :=
  (files.mapM (hydrateFile truncate)).map fun done =>
    (done.map Prod.fst, done.countP Prod.snd)

/-- `detect_overlay_drift`. -/
def detectOverlayDrift (files : List ConfigFile) : List (PyStr × List PyStr) :=
  files.filterMap fun file =>
    match file.bundle, file.overlay with
    | some (.obj bundle), some (.obj overlay) =>
        if overlayDrift bundle overlay = [] then none else some (file.slug, overlayDrift bundle overlay)
    | _, _ => none

end

end GhostPour.Configs
