/-
Module: GhostPour.Library.PyValue
Layer: Library
Purpose: What Python does with a value that came out of `json.loads` when the program does not know
  its type: truth, iteration, `str`, equality, hashing, and numerals of any script. `none` is an
  exception that escapes.
Trusted boundary: human-reviewed spec
Main exports: Py, Json.truthy, Json.iterate, Json.str, Json.same, Assoc, intOfText
-/
import GhostPour.Library.Json

namespace GhostPour

/-- The result of code that may raise; `none` is the exception. -/
abbrev Py (α : Type) := Option α

/-! ### Dictionaries with other values -/

/-- A Python `dict` from strings, in insertion order. -/
abbrev Assoc (α : Type) := List (PyStr × α)

namespace Assoc
variable {α : Type}

/-- `d.get(key)`. -/
@[grind =] def get : Assoc α → PyStr → Option α
  | [], _ => none
  | (k, v) :: d, key => if k = key then some v else get d key

/-- `d[key] = value`. -/
@[grind =] def set : Assoc α → PyStr → α → Assoc α
  | [], key, value => [(key, value)]
  | (k, v) :: d, key, value => if k = key then (k, value) :: d else (k, v) :: set d key value

/-- `d.keys()`. -/
def keys (d : Assoc α) : List PyStr := d.map Prod.fst

/-- `d.values()`. -/
def values (d : Assoc α) : List α := d.map Prod.snd

end Assoc

/-! ### Numerals -/

section
variable [PyRuntime]

/-- The number a run of decimal digits of any script stands for; `int` raises on anything else. -/
def natOfDecimals (s : PyStr) : Option Nat :=
  if s = [] then none
  else s.foldlM (fun n c => (decimal c).map (10 * n + ·)) 0

/-- The value of a digit in base 16, as `int` reads it. -/
def base16Digit (c : Nat) : Option Nat :=
  match decimal c with
  | some d => some d
  | none =>
      if 97 ≤ c && c ≤ 102 then some (c - 87)
      else if 65 ≤ c && c ≤ 70 then some (c - 55)
      else none

/-- Digits in base 16 with single underscores between them. -/
def base16Digits (n : Nat) : PyStr → Option Nat
  | [] => some n
  | c :: rest =>
      if c = ord '_' then
        match rest with
        | d :: rest' => (base16Digit d).bind fun v => base16Digits (16 * n + v) rest'
        | [] => none
      else (base16Digit c).bind fun v => base16Digits (16 * n + v) rest

/-- A magnitude in base 16: the prefix `0x` is optional, and an underscore may follow it. -/
def base16Magnitude : PyStr → Option Nat
  | [] => none
  | c :: rest =>
      if decimal c = some 0 ∧ (rest.head? = some (ord 'x') ∨ rest.head? = some (ord 'X')) then
        if rest.tail = [] then none else base16Digits 0 rest.tail
      else if c = ord '_' then none
      else base16Digits 0 (c :: rest)

/-- `int(s, 16)`. -/
def intBase16 (s : PyStr) : Option Int :=
  match strip s with
  | 45 :: rest => (base16Magnitude rest).map fun n => -(n : Int)
  | 43 :: rest => (base16Magnitude rest).map Int.ofNat
  | t => (base16Magnitude t).map Int.ofNat

/-- `chr(n)`. -/
def chr (n : Int) : Py Nat := if 0 ≤ n ∧ n < 0x110000 then some n.toNat else none

end

/-! ### Values of any type -/

namespace Json
variable [PyRuntime]

/-- `bool(v)`. -/
def truthy : Json → Bool
  | .null => false
  | .bool b => b
  | .int n => n != 0
  | .float text => !PyRuntime.floatIsZero text
  | .str s => s != []
  | .arr items => !items.isEmpty
  | .obj members => !members.isEmpty

/-- `iter(v)`: a string gives its characters, an object its keys, a number raises. -/
def iterate : Json → Py (List Json)
  | .str s => some (s.map fun c => .str [c])
  | .arr items => some items
  | .obj members => some (members.map fun m => .str m.1)
  | _ => none

/-- `for x in v or []`. -/
def iterateOrEmpty (v : Json) : Py (List Json) := if v.truthy then v.iterate else some []

/-- The text of a float, which is not JSON's for the infinities and NaN. -/
def floatStr (text : PyStr) : PyStr :=
  if text = py "Infinity" then py "inf"
  else if text = py "-Infinity" then py "-inf"
  else if text = py "NaN" then py "nan"
  else text

mutual

/-- `repr(v)`. -/
def repr : Json → PyStr
  | .null => py "None"
  | .bool b => if b then py "True" else py "False"
  | .int n => strOfInt n
  | .float text => floatStr text
  | .str s => PyRuntime.quote s
  | .arr items => lbracket :: (join (py ", ") (reprItems items) ++ [rbracket])
  | .obj members => lbrace :: (join (py ", ") (reprMembers members) ++ [rbrace])

/-- The texts of the elements of a list. -/
def reprItems : List Json → List PyStr
  | [] => []
  | v :: items => repr v :: reprItems items

/-- The texts of the entries of a dict. -/
def reprMembers : List (PyStr × Json) → List PyStr
  | [] => []
  | (key, v) :: members => (PyRuntime.quote key ++ (colon :: 32 :: repr v)) :: reprMembers members

end

/-- `str(v)`. -/
def str' : Json → PyStr
  | .str s => s
  | v => v.repr

/-- `str(v or "")`. -/
def strOrEmpty (v : Json) : PyStr := if v.truthy then v.str' else []

/-- `v.get(key)` on a value that is known to be a dict, else `None`. -/
def field (v : Json) (key : String) : Json :=
  match v with
  | .obj members => Dict.get members (py key)
  | _ => .null

/-- Whether a set can hold the value. -/
def hashable : Json → Bool
  | .arr _ => false
  | .obj _ => false
  | _ => true

/-- `a == b` for hashable values: a boolean equals its number. -/
def same : Json → Json → Bool
  | .null, .null => true
  | .str a, .str b => a == b
  | .bool a, .bool b => a == b
  | .int a, .int b => a == b
  | .bool a, .int b => (if a then 1 else 0) == b
  | .int a, .bool b => a == (if b then 1 else 0)
  | .float a, .float b => a == b && a != py "NaN" || PyRuntime.floatIsZero a && PyRuntime.floatIsZero b
  | .float a, .int b => PyRuntime.floatEqInt a b
  | .int a, .float b => PyRuntime.floatEqInt b a
  | .float a, .bool b => PyRuntime.floatEqInt a (if b then 1 else 0)
  | .bool a, .float b => PyRuntime.floatEqInt b (if a then 1 else 0)
  | _, _ => false

/-- Whether a set takes two hashable values for one: equal values, and NaN, which `json.loads` always
reads as one object. -/
def sameKey (a b : Json) : Bool :=
  a.same b || match a, b with
    | .float s, .float t => s == py "NaN" && t == py "NaN"
    | _, _ => false

/-- `isinstance(v, int)`, with the number a boolean is. -/
def asInt : Json → Option Int
  | .int n => some n
  | .bool b => some (if b then 1 else 0)
  | _ => none

end Json

end GhostPour
