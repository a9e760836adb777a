/-
Module: GhostPour.Library.PyEquality
Layer: Library
Purpose: Equality of the values a set holds. On the values `json.loads` reads it is an equivalence:
  two of them are one element of a set exactly when they have one key here, where a number is the
  integer it equals, if there is one.
Trusted boundary: none
Main exports: Json.setKey, Json.sameKey_iff, Json.sameKey_refl, Json.sameKey_symm, Json.sameKey_trans
-/
import GhostPour.Library.JsonCanonical
import GhostPour.Library.PyValue

namespace GhostPour

namespace Json

section

variable [PyRuntime]

/-- What a set tells values apart by: a boolean is its number, and a float the integer it equals, if it
equals one. -/
noncomputable def setKey : Json → Json
  | .bool b => .int (if b then 1 else 0)
  | .float t => open Classical in
      if equal : ∃ n, PyRuntime.floatEqInt t n = true then .int equal.choose else .float t
  | v => v

@[simp] theorem setKey_null : setKey .null = .null := rfl

@[simp] theorem setKey_bool (b : Bool) : setKey (.bool b) = .int (if b then 1 else 0) := rfl

@[simp] theorem setKey_int (n : Int) : setKey (.int n) = .int n := rfl

@[simp] theorem setKey_str (text : PyStr) : setKey (.str text) = .str text := rfl

@[simp] theorem setKey_float_eq_int {t : PyStr} {n : Int} :
    setKey (.float t) = .int n ↔ PyRuntime.floatEqInt t n = true := by
  rw [setKey]
  split
  · next equal =>
    rw [Json.int.injEq]
    constructor
    · rintro rfl
      exact equal.choose_spec
    · exact PyRuntime.floatEqInt_unique t _ n equal.choose_spec
  · next unequal =>
    constructor
    · intro impossible
      cases impossible
    · exact fun equal => absurd ⟨n, equal⟩ unequal

theorem setKey_float (t : PyStr) :
    (∃ n, setKey (.float t) = .int n) ∨ setKey (.float t) = .float t := by
  rw [setKey]
  split
  · next equal => exact .inl ⟨_, rfl⟩
  · exact .inr rfl

omit [PyRuntime] in
theorem number_inj {a b : Bool} :
    (if a = true then (1 : Int) else 0) = (if b = true then 1 else 0) ↔ a = b := by
  cases a <;> cases b <;> decide

/-- A canonical float that equals an integer prints as itself. -/
theorem floatText_of_eqInt {t : PyStr} {n : Int} (canonical : (Json.float t).Canonical)
    (equal : PyRuntime.floatEqInt t n = true) : PyRuntime.floatText t = t := by
  have number := PyRuntime.floatEqInt_token t n equal
  rw [Json.Canonical, classify_numberToken number, if_pos rfl] at canonical
  exact Json.float.inj (Option.some.inj canonical)

theorem sameKey_float {s t : PyStr} :
    sameKey (.float s) (.float t) = true ↔
      s = t ∨ PyRuntime.floatIsZero s = true ∧ PyRuntime.floatIsZero t = true := by
  simp only [sameKey, same, Bool.or_eq_true, Bool.and_eq_true, beq_iff_eq, bne_iff_ne]
  constructor
  · rintro ((⟨equal, _⟩ | zeros) | ⟨rfl, rfl⟩)
    · exact .inl equal
    · exact .inr zeros
    · exact .inl rfl
  · rintro (rfl | zeros)
    · by_cases nan : s = py "NaN"
      · exact .inr ⟨nan, nan⟩
      · exact .inl (.inl ⟨rfl, nan⟩)
    · exact .inl (.inr zeros)

theorem setKey_float_eq_iff {s t : PyStr} (first : (Json.float s).Canonical)
    (second : (Json.float t).Canonical) :
    setKey (.float s) = setKey (.float t) ↔
      s = t ∨ PyRuntime.floatIsZero s = true ∧ PyRuntime.floatIsZero t = true := by
  constructor
  · intro same
    rcases setKey_float s with ⟨n, number⟩ | literal
    · have equal := setKey_float_eq_int.mp number
      rw [number, eq_comm] at same
      have equal' := setKey_float_eq_int.mp same
      rcases PyRuntime.floatText_eqInt s t n equal equal' with printed | zeros
      · rw [floatText_of_eqInt first equal, floatText_of_eqInt second equal'] at printed
        exact .inl printed
      · exact .inr zeros
    · rw [literal] at same
      rcases setKey_float t with ⟨n, number⟩ | literal'
      · rw [number] at same
        cases same
      · rw [literal'] at same
        exact .inl (Json.float.inj same)
  · rintro (rfl | ⟨zero, zero'⟩)
    · rfl
    · rw [setKey_float_eq_int.mpr (PyRuntime.floatEqInt_zero s zero),
        setKey_float_eq_int.mpr (PyRuntime.floatEqInt_zero t zero')]

theorem setKey_float_ne {t : PyStr} {v : Json} (other : ∀ n, v ≠ .int n) (other' : v ≠ .float t) :
    setKey (.float t) ≠ v := by
  rcases setKey_float t with ⟨n, number⟩ | literal
  · rw [number]
    exact (other n).symm
  · rw [literal]
    exact other'.symm

theorem sameKey_symm (a b : Json) : sameKey a b = sameKey b a := by
  cases a with
  | float s =>
      cases b with
      | float t =>
          rw [Bool.eq_iff_iff, sameKey_float, sameKey_float, eq_comm,
            and_comm (a := PyRuntime.floatIsZero s = true)]
      | _ => rfl
  | str x =>
      cases b with
      | str y => simp only [sameKey, same, BEq.comm]
      | _ => rfl
  | int m =>
      cases b with
      | int n => simp only [sameKey, same, BEq.comm]
      | bool v => simp only [sameKey, same, BEq.comm]
      | _ => rfl
  | bool v =>
      cases b with
      | int n => simp only [sameKey, same, BEq.comm]
      | bool w => simp only [sameKey, same, BEq.comm]
      | _ => rfl
  | _ => cases b <;> rfl

theorem sameKey_float_iff {t : PyStr} {b : Json} (hashable : b.hashable = true)
    (canonical : (Json.float t).Canonical) (canonical' : b.Canonical) :
    sameKey (.float t) b = true ↔ setKey (.float t) = b.setKey := by
  cases b with
  | float s => rw [sameKey_float, setKey_float_eq_iff canonical canonical']
  | int n => simp [sameKey, same]
  | bool b => simp [sameKey, same]
  | arr items => cases hashable
  | obj members => cases hashable
  | null => simpa [sameKey, same] using setKey_float_ne (by simp) (by simp)
  | str text => simpa [sameKey, same] using setKey_float_ne (by simp) (by simp)

/-- Two values that `json.loads` reads are one element of a set exactly when they have one key. -/
theorem sameKey_iff {a b : Json} (first : a.hashable = true) (second : b.hashable = true)
    (canonical : a.Canonical) (canonical' : b.Canonical) :
    sameKey a b = true ↔ a.setKey = b.setKey := by
  by_cases float : ∃ t, b = .float t
  · obtain ⟨t, rfl⟩ := float
    rw [sameKey_symm, sameKey_float_iff first canonical' canonical, eq_comm]
  · cases a with
    | float t => exact sameKey_float_iff second canonical canonical'
    | arr items => cases first
    | obj members => cases first
    | null | bool _ | int _ | str _ =>
        cases b with
        | float t => exact absurd ⟨t, rfl⟩ float
        | arr items => cases second
        | obj members => cases second
        | _ => simp [sameKey, same, number_inj]

/-! ### An equivalence -/

theorem sameKey_refl {a : Json} (hashable : a.hashable = true) : sameKey a a = true := by
  cases a with
  | float t => exact sameKey_float.mpr (.inl rfl)
  | arr items => cases hashable
  | obj members => cases hashable
  | _ => simp [sameKey, same]

/-- Only what can be hashed is an element of a set. -/
theorem hashable_of_sameKey {a b : Json} (equal : sameKey a b = true) :
    a.hashable = true ∧ b.hashable = true := by
  cases a <;> cases b <;> first | exact ⟨rfl, rfl⟩ | cases equal

theorem sameKey_trans {a b c : Json} (first : a.Canonical) (second : b.Canonical)
    (third : c.Canonical) (equal : sameKey a b = true) (equal' : sameKey b c = true) :
    sameKey a c = true := by
  obtain ⟨hashA, hashB⟩ := hashable_of_sameKey equal
  obtain ⟨_, hashC⟩ := hashable_of_sameKey equal'
  rw [sameKey_iff hashA hashC first third]
  calc a.setKey = b.setKey := (sameKey_iff hashA hashB first second).mp equal
    _ = c.setKey := (sameKey_iff hashB hashC second third).mp equal'

/-- The text of a key is its own. -/
theorem sameKey_str {text : PyStr} {b : Json} : sameKey (.str text) b = true ↔ b = .str text := by
  cases b with
  | str other =>
      simp only [sameKey, same, Bool.or_false, beq_iff_eq, Json.str.injEq]
      exact eq_comm
  | _ => simp [sameKey, same]

end

end Json

end GhostPour
