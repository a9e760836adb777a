/-
Module: GhostPour.N400.Proofs.TurnText
Layer: Proofs
Purpose: Reading the object of a response, changing it and writing it again loses nothing: what was
  read is canonical, and the changes keep it canonical.
Trusted boundary: none
Main exports: turnOf_dumps, canonical_turnOf, canonical_field, turnOf_markTurn, turnOf_markTurn_isSome
-/
import GhostPour.Library.Dicts
import GhostPour.Library.JsonCanonical
import GhostPour.N400.Refusals

namespace GhostPour.N400

section

variable [PyRuntime]

/-- An object that is written is read back. -/
theorem turnOf_dumps {d : Dict} (canonical : (Json.obj d).Canonical) :
    turnOf (dumps (.obj d)) = some d := by
  rw [turnOf, loads_dumps canonical]

theorem turnOf_eq_some {text : PyStr} {turn : Dict} :
    turnOf text = some turn ↔ loads text = some (.obj turn) := by
  rw [turnOf]
  constructor
  · intro read
    split at read
    · next found =>
      rw [found, Option.some.inj read]
    · cases read
  · intro read
    rw [read]

/-- What is read is canonical. -/
theorem canonical_turnOf {text : PyStr} {turn : Dict} (read : turnOf text = some turn) :
    (Json.obj turn).Canonical := canonical_of_loads (turnOf_eq_some.mp read)

@[simp] theorem canonical_null : Json.null.Canonical := by
  rw [Json.Canonical]
  trivial

@[simp] theorem canonical_str (s : PyStr) : (Json.str s).Canonical := by
  rw [Json.Canonical]
  trivial

@[simp] theorem canonical_int (n : Int) : (Json.int n).Canonical := by
  rw [Json.Canonical]
  trivial

@[simp] theorem canonical_bool (b : Bool) : (Json.bool b).Canonical := by
  rw [Json.Canonical]
  trivial

@[simp] theorem canonical_strs (texts : List PyStr) : (Json.arr (texts.map .str)).Canonical := by
  rw [canonical_arr_iff]
  intro v member
  obtain ⟨s, _, rfl⟩ := List.mem_map.mp member
  exact canonical_str s

/-- A field of a canonical value is canonical. -/
theorem canonical_field {v : Json} (canonical : v.Canonical) (key : String) :
    (v.field key).Canonical := by
  cases v with
  | obj d => exact canonical_get canonical (py key)
  | _ => exact canonical_null

/-! ### A mark on a response -/

theorem turnOf_markTurn {key : String} {mark : Json} {text : PyStr} {turn : Dict}
    (read : turnOf text = some turn) (canonical : mark.Canonical) :
    turnOf (markTurn key mark text) = some (turn.set (py key) mark) := by
  rw [markTurn, read]
  exact turnOf_dumps (canonical_set (canonical_turnOf read) (py key) canonical)

theorem markTurn_of_not_object {key : String} {mark : Json} {text : PyStr}
    (prose : turnOf text = none) : markTurn key mark text = text := by
  rw [markTurn, prose]

/-- A mark neither makes nor loses an object. -/
theorem turnOf_markTurn_isSome {key : String} {mark : Json} {text : PyStr}
    (canonical : mark.Canonical) :
    (turnOf (markTurn key mark text)).isSome = (turnOf text).isSome := by
  cases read : turnOf text with
  | none => rw [markTurn_of_not_object read, read]
  | some turn =>
      rw [turnOf_markTurn read canonical]
      rfl

theorem canonical_refusalMark {info : Json} (canonical : info.Canonical) {keys : List String}
    (distinct : (keys.map py ++ [py "retried", py "resolved"]).Nodup) (resolved : Bool) :
    (refusalMark info keys resolved).Canonical := by
  rw [refusalMark, canonical_obj_iff]
  constructor
  · rw [List.map_append, List.map_map]
    exact distinct
  · intro m member
    rcases List.mem_append.mp member with named | outcome
    · obtain ⟨key, _, rfl⟩ := List.mem_map.mp named
      exact canonical_field canonical key
    · simp only [List.mem_cons, List.not_mem_nil, or_false] at outcome
      rcases outcome with rfl | rfl
      · exact canonical_bool true
      · exact canonical_bool resolved

end

end GhostPour.N400
