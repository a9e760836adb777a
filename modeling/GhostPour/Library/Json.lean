/-
Module: GhostPour.Library.Json
Layer: Library
Purpose: JSON as Python reads and writes it. `Json` is the value, `JsonText` a concrete syntax tree
  whose every node is a well-formed piece of text, `parseValue` the reader that builds one,
  `loads` and `dumps` are `json.loads` and `json.dumps(_, ensure_ascii=False)`.
Trusted boundary: human-reviewed spec
Main exports: Json, Dict, StrItem, JsonText, loads, dumps
-/
import GhostPour.Library.PyRuntime

namespace GhostPour

/-- A parsed JSON value. A float is kept as the text `json.dumps` gives it; the members of an object
are in insertion order. -/
inductive Json where
  | null
  | bool (b : Bool)
  | int (n : Int)
  | float (text : PyStr)
  | str (s : PyStr)
  | arr (items : List Json)
  | obj (members : List (PyStr × Json))
deriving Inhabited

/-- A Python `dict` with string keys. -/
abbrev Dict := List (PyStr × Json)

namespace Dict

/-- `d.get(key)`; a missing key reads as `None`, which is JSON null. -/
@[grind =] def get : Dict → PyStr → Json
  | [], _ => .null
  | (k, v) :: d, key => if k = key then v else get d key

/-- `key in d`. -/
@[grind =] def has : Dict → PyStr → Bool
  | [], _ => false
  | (k, _) :: d, key => k == key || has d key

/-- `d[key] = value`: an existing key keeps its place. -/
@[grind =] def set : Dict → PyStr → Json → Dict
  | [], key, value => [(key, value)]
  | (k, v) :: d, key, value => if k = key then (k, value) :: d else (k, v) :: set d key value

/-- `del d[key]`. -/
def del (d : Dict) (key : PyStr) : Dict := d.filter (·.1 ≠ key)

/-- The dict that reading members one after the other builds: a repeated key takes the last value. -/
def ofMembers (members : List (PyStr × Json)) : Dict :=
  members.foldl (fun d m => set d m.1 m.2) []

end Dict

/-! ### Strings -/

/-- A character a JSON string may hold as itself. -/
def isPlain (c : Nat) : Bool := 32 ≤ c && c != dquote && c != backslash

/-- The character a one letter escape stands for. -/
def simpleEscape (e : Nat) : Option Nat :=
  if e = dquote ∨ e = backslash ∨ e = 47 then some e  -- the slash
  else if e = 98 then some 8      -- b
  else if e = 102 then some 12    -- f
  else if e = 110 then some 10    -- n
  else if e = 114 then some 13    -- r
  else if e = 116 then some 9     -- t
  else none

/-- The value of a hexadecimal digit. -/
def hexDigit (c : Nat) : Option Nat :=
  if isAsciiDigit c then some (c - 48)
  else if 97 ≤ c && c ≤ 102 then some (c - 87)
  else if 65 ≤ c && c ≤ 70 then some (c - 55)
  else none

/-- The value of four hexadecimal digits. -/
def hex4 (a b c d : Nat) : Option Nat := do
  return ((← hexDigit a) * 16 + (← hexDigit b)) * 256 + ((← hexDigit c) * 16 + (← hexDigit d))

/-- A high (leading) surrogate. -/
def isHighSurrogate (c : Nat) : Bool := 0xD800 ≤ c && c ≤ 0xDBFF

/-- A low (trailing) surrogate. -/
def isLowSurrogate (c : Nat) : Bool := 0xDC00 ≤ c && c ≤ 0xDFFF

/-- The character a surrogate pair stands for. -/
def joinSurrogates (high low : Nat) : Nat :=
  0x10000 + (high - 0xD800) * 1024 + (low - 0xDC00)

/-- One piece of a JSON string's body, well formed by construction. -/
inductive StrItem where
  | plain (c : Nat) (ok : isPlain c = true)
  | escape (e c : Nat) (ok : simpleEscape e = some c)
  | unicode (a b c d cp : Nat) (ok : hex4 a b c d = some cp)

/-- The text of an item. -/
def StrItem.text : StrItem → PyStr
  | .plain c _ => [c]
  | .escape e _ _ => [backslash, e]
  | .unicode a b c d _ _ => [backslash, letterU, a, b, c, d]

/-- The text of a string's body. -/
def itemsText (items : List StrItem) : PyStr := items.flatMap StrItem.text

/-- The string a body stands for, after a high surrogate that is still waiting for its pair: two
escapes that make a surrogate pair are one character, and any other surrogate stands alone. -/
def decodeFrom : Option Nat → List StrItem → PyStr
  | none, [] => []
  | some high, [] => [high]
  | pending, .plain c _ :: items => pending.toList ++ c :: decodeFrom none items
  | pending, .escape _ c _ :: items => pending.toList ++ c :: decodeFrom none items
  | none, .unicode _ _ _ _ cp _ :: items =>
      if isHighSurrogate cp then decodeFrom (some cp) items else cp :: decodeFrom none items
  | some high, .unicode _ _ _ _ cp _ :: items =>
      if isLowSurrogate cp then joinSurrogates high cp :: decodeFrom none items
      else high :: (if isHighSurrogate cp then decodeFrom (some cp) items
        else cp :: decodeFrom none items)

/-- The string a body stands for. -/
def decodeItems (items : List StrItem) : PyStr := decodeFrom none items

/-- Read a string's body up to and including the closing quote. -/
def scanItems : PyStr → Option (List StrItem × PyStr)
  | [] => none
  | c :: rest =>
      if c = dquote then some ([], rest)
      else if c = backslash then
        match rest with
        | [] => none
        | e :: rest' =>
            if e = letterU then
              match rest' with
              | a :: b :: c' :: d :: tail =>
                  match ok : hex4 a b c' d with
                  | some cp => (scanItems tail).map fun r => (.unicode a b c' d cp ok :: r.1, r.2)
                  | none => none
              | _ => none
            else
              match ok : simpleEscape e with
              | some x => (scanItems rest').map fun r => (.escape e x ok :: r.1, r.2)
              | none => none
      else if ok : isPlain c = true then
        (scanItems rest).map fun r => (.plain c ok :: r.1, r.2)
      else none

/-! ### White space and atoms -/

/-- JSON's white space, which is narrower than `isSpace`. -/
def isJsonSpace (c : Nat) : Bool := c == 32 || c == 9 || c == 10 || c == 13

/-- A run of white space. -/
structure Ws where
  text : PyStr
  ok : ∀ c ∈ text, isJsonSpace c = true

theorem mem_takeWhile_isJsonSpace (s : PyStr) :
    ∀ c ∈ s.takeWhile isJsonSpace, isJsonSpace c = true :=
  fun _ member => List.mem_takeWhile_imp member

/-- Take the white space off the front. -/
def parseWs (s : PyStr) : Ws × PyStr :=
  (⟨s.takeWhile isJsonSpace, mem_takeWhile_isJsonSpace s⟩, s.dropWhile isJsonSpace)

/-- The characters of literals and numbers. -/
def isAtomChar (c : Nat) : Bool :=
  isAsciiAlpha c || isAsciiDigit c || c == 43 || c == 45 || c == 46  -- + - .

section
variable [PyRuntime]

/-- The value of a literal or a number. -/
def classify (token : PyStr) : Option Json :=
  if token = py "null" then some .null
  else if token = py "true" then some (.bool true)
  else if token = py "false" then some (.bool false)
  else if token = py "NaN" ∨ token = py "Infinity" ∨ token = py "-Infinity" then
    some (.float token)
  else match numberToken token with
    | some true => some (.float (PyRuntime.floatText token))
    | some false => some (.int (intOfToken token))
    | none => none

/-- A literal or a number. -/
structure Atom where
  text : PyStr
  value : Json
  chars : ∀ c ∈ text, isAtomChar c = true
  ok : classify text = some value

omit [PyRuntime] in
theorem mem_takeWhile_isAtomChar (s : PyStr) :
    ∀ c ∈ s.takeWhile isAtomChar, isAtomChar c = true :=
  fun _ member => List.mem_takeWhile_imp member

/-- Read the atom at the front. -/
def parseAtom (s : PyStr) : Option (Atom × PyStr) :=
  match ok : classify (s.takeWhile isAtomChar) with
  | some v => some (⟨s.takeWhile isAtomChar, v, mem_takeWhile_isAtomChar s, ok⟩,
      s.dropWhile isAtomChar)
  | none => none

/-! ### Values -/

mutual

/-- The concrete syntax of a value. -/
inductive JsonText where
  | atom (a : Atom)
  | str (items : List StrItem)
  | arrEmpty (w : Ws)
  | arr (elems : ElemsText)
  | objEmpty (w : Ws)
  | obj (members : MembersText)

/-- The elements of an array, from after the `[` or a comma to the closing `]`. -/
inductive ElemsText where
  | last (w₁ : Ws) (v : JsonText) (w₂ : Ws)
  | cons (w₁ : Ws) (v : JsonText) (w₂ : Ws) (rest : ElemsText)

/-- The members of an object, from after the `{` or a comma to the closing `}`. -/
inductive MembersText where
  | last (w₁ : Ws) (key : List StrItem) (w₂ w₃ : Ws) (v : JsonText) (w₄ : Ws)
  | cons (w₁ : Ws) (key : List StrItem) (w₂ w₃ : Ws) (v : JsonText) (w₄ : Ws)
      (rest : MembersText)

end

/-- The text of a string with its quotes. -/
def quotedText (items : List StrItem) : PyStr := dquote :: (itemsText items ++ [dquote])

mutual

/-- The text of a value. -/
def JsonText.text : JsonText → PyStr
  | .atom a => a.text
  | .str items => quotedText items
  | .arrEmpty w => lbracket :: (w.text ++ [rbracket])
  | .arr elems => lbracket :: elems.text
  | .objEmpty w => lbrace :: (w.text ++ [rbrace])
  | .obj members => lbrace :: members.text

/-- The text of the elements and the closing bracket. -/
def ElemsText.text : ElemsText → PyStr
  | .last w₁ v w₂ => w₁.text ++ (v.text ++ (w₂.text ++ [rbracket]))
  | .cons w₁ v w₂ rest => w₁.text ++ (v.text ++ (w₂.text ++ (comma :: rest.text)))

/-- The text of the members and the closing brace. -/
def MembersText.text : MembersText → PyStr
  | .last w₁ key w₂ w₃ v w₄ =>
      w₁.text ++ (quotedText key ++ (w₂.text ++ (colon :: (w₃.text ++ (v.text ++
        (w₄.text ++ [rbrace]))))))
  | .cons w₁ key w₂ w₃ v w₄ rest =>
      w₁.text ++ (quotedText key ++ (w₂.text ++ (colon :: (w₃.text ++ (v.text ++
        (w₄.text ++ (comma :: rest.text)))))))

end

mutual

/-- The value a text stands for. -/
def JsonText.value : JsonText → Json
  | .atom a => a.value
  | .str items => .str (decodeItems items)
  | .arrEmpty _ => .arr []
  | .arr elems => .arr elems.values
  | .objEmpty _ => .obj []
  | .obj members => .obj (Dict.ofMembers members.values)

/-- The values of the elements. -/
def ElemsText.values : ElemsText → List Json
  | .last _ v _ => [v.value]
  | .cons _ v _ rest => v.value :: rest.values

/-- The keys and values of the members, repetitions included. -/
def MembersText.values : MembersText → List (PyStr × Json)
  | .last _ key _ _ v _ => [(decodeItems key, v.value)]
  | .cons _ key _ _ v _ rest => (decodeItems key, v.value) :: rest.values

end

/-! ### Reading -/

mutual

/-- Read a value at the front; `fuel` bounds the depth of the calls. -/
def parseValue : Nat → PyStr → Option (JsonText × PyStr)
  | 0, _ => none
  | _, [] => none
  | fuel + 1, c :: rest =>
      if c = dquote then (scanItems rest).map fun r => (.str r.1, r.2)
      else if c = lbracket then
        match (parseWs rest).2 with
        | d :: tail =>
            if d = rbracket then some (.arrEmpty (parseWs rest).1, tail)
            else (parseElems fuel rest).map fun r => (.arr r.1, r.2)
        | [] => none
      else if c = lbrace then
        match (parseWs rest).2 with
        | d :: tail =>
            if d = rbrace then some (.objEmpty (parseWs rest).1, tail)
            else (parseMembers fuel rest).map fun r => (.obj r.1, r.2)
        | [] => none
      else (parseAtom (c :: rest)).map fun r => (.atom r.1, r.2)

/-- Read the elements of an array and its closing bracket. -/
def parseElems : Nat → PyStr → Option (ElemsText × PyStr)
  | 0, _ => none
  | fuel + 1, s =>
      match parseValue fuel (parseWs s).2 with
      | none => none
      | some (v, s₂) =>
          match (parseWs s₂).2 with
          | [] => none
          | c :: tail =>
              if c = rbracket then some (.last (parseWs s).1 v (parseWs s₂).1, tail)
              else if c = comma then
                (parseElems fuel tail).map fun r =>
                  (.cons (parseWs s).1 v (parseWs s₂).1 r.1, r.2)
              else none

/-- Read the members of an object and its closing brace. -/
def parseMembers : Nat → PyStr → Option (MembersText × PyStr)
  | 0, _ => none
  | fuel + 1, s =>
      match (parseWs s).2 with
      | [] => none
      | q :: s₁ =>
          if q = dquote then
            match scanItems s₁ with
            | none => none
            | some (key, s₂) =>
                match (parseWs s₂).2 with
                | [] => none
                | sep :: s₃ =>
                    if sep = colon then
                      match parseValue fuel (parseWs s₃).2 with
                      | none => none
                      | some (v, s₄) =>
                          match (parseWs s₄).2 with
                          | [] => none
                          | c :: tail =>
                              if c = rbrace then
                                some (.last (parseWs s).1 key (parseWs s₂).1 (parseWs s₃).1 v
                                  (parseWs s₄).1, tail)
                              else if c = comma then
                                (parseMembers fuel tail).map fun r =>
                                  (.cons (parseWs s).1 key (parseWs s₂).1 (parseWs s₃).1 v
                                    (parseWs s₄).1 r.1, r.2)
                              else none
                    else none
          else none

end

/-- A whole document: one value between white space. -/
structure Document where
  before : Ws
  body : JsonText
  after : Ws

/-- The text of a document. -/
def Document.text (d : Document) : PyStr := d.before.text ++ (d.body.text ++ d.after.text)

/-- Read a whole document. -/
def parseDocument (s : PyStr) : Option Document :=
  match parseValue (2 * s.length + 2) (parseWs s).2 with
  | none => none
  | some (v, rest) =>
      if (parseWs rest).2 = [] then some ⟨(parseWs s).1, v, (parseWs rest).1⟩ else none

/-- `json.loads`; `none` is the `ValueError` it raises. -/
def loads (s : PyStr) : Option Json := (parseDocument s).map (·.body.value)

end

/-! ### Writing -/

/-- A hexadecimal digit. -/
def hexChar (n : Nat) : Nat := if n < 10 then 48 + n else 87 + n

/-- The item a character is written as. -/
def escapeChar (c : Nat) : PyStr :=
  if c = dquote ∨ c = backslash then [backslash, c]
  else if c = 8 then py "\\b"
  else if c = 12 then py "\\f"
  else if c = 10 then py "\\n"
  else if c = 13 then py "\\r"
  else if c = 9 then py "\\t"
  else if c < 32 then py "\\u00" ++ [hexChar (c / 16), hexChar (c % 16)]
  else [c]

/-- A string with its quotes. -/
def dumpsStr (s : PyStr) : PyStr := dquote :: (s.flatMap escapeChar ++ [dquote])

mutual

/-- `json.dumps(_, ensure_ascii=False)`. -/
def dumps : Json → PyStr
  | .null => py "null"
  | .bool b => if b then py "true" else py "false"
  | .int n => strOfInt n
  | .float text => text
  | .str s => dumpsStr s
  | .arr items => lbracket :: (join (py ", ") (dumpsItems items) ++ [rbracket])
  | .obj members => lbrace :: (join (py ", ") (dumpsMembers members) ++ [rbrace])

/-- The texts of the elements of an array. -/
def dumpsItems : List Json → List PyStr
  | [] => []
  | v :: items => dumps v :: dumpsItems items

/-- The texts of the members of an object. -/
def dumpsMembers : List (PyStr × Json) → List PyStr
  | [] => []
  | m :: members => dumpsMember m :: dumpsMembers members

/-- The text of one member. -/
def dumpsMember : PyStr × Json → PyStr
  | (key, v) => dumpsStr key ++ (colon :: 32 :: dumps v)

end

end GhostPour
