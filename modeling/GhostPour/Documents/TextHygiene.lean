/-
Module: GhostPour.Documents.TextHygiene
Layer: Model
Purpose: The dash hygiene of served prose (`src/app/services/text_hygiene.py`): six passes that rewrite arrows
  and em and en dashes as "to", hyphens and commas. The tab names of a rendered workbook (`_tab_name` in
  `src/app/services/workbook_plan.py`): what is left of a raw name in 31 characters, and the search for a
  suffix that no earlier tab has.
Trusted boundary: human-reviewed spec
Main exports: isDash, isArrow, normalizeDashes, Sized, isIllegal, plainTab, suffixed, tabName, tabNames
-/
import GhostPour.Library.Regex

namespace GhostPour

namespace Documents.TextHygiene

open Regex

/-- `_EM_EN`. -/
def emEn : PyStr := [0x2013, 0x2014]

/-- `[{_EM_EN}]`. -/
def isDash (c : Nat) : Bool := emEn.contains c

/-- The glyphs of `_ARROWS`. -/
def isArrow (c : Nat) : Bool := [0x2192, 0x2190, 0x21D2, 0x2794, 0x279C].contains c

/-- `[ \t]`. -/
def isBlank (c : Nat) : Bool := c == 32 || c == 9

/-- `[A-Za-z0-9]`. -/
def isAsciiWord (c : Nat) : Bool := isAsciiAlpha c || isAsciiDigit c

/-- `(?=\r?\n|$)`. -/
def atLineEnd (after : PyStr) : Bool :=
  startsWith [10] after || startsWith [13, 10] after || after.isEmpty

/-- `[ \t]*`. -/
def blanks : Regex := .many (.set isBlank)

/-- `_ARROWS`. -/
def arrows : Regex := seqs [blanks, .set isArrow, blanks]

/-- `_WORD_RANGE`. -/
def wordRange : Regex :=
  seqs [.test fun prev _ => prev.any isAsciiWord, .set (· == 0x2013),
    .test fun _ after => after.head?.any isAsciiWord]

/-- `_BULLET`. -/
def bullet : Regex :=
  seqs [lineStart, .group 1 blanks, .set isDash, blanks,
    .test fun _ after => after.head?.any (!isSpace ·)]

/-- `_ASIDE`. -/
def aside : Regex := seqs [blanks, plus (.set isDash), blanks]

/-- `_TRAILING`. -/
def trailing : Regex := seqs [.set (· == comma), plus (.set isBlank), .test fun _ after => atLineEnd after]

section
variable [PyRuntime]

/-- `_RANGE`. -/
def range : Regex :=
  seqs [.test fun prev _ => prev.any isDecimal, blanks, .set isDash, blanks,
    .test fun _ after => after.head?.any isDecimal]

/-- Ranges first, then bullets, then every dash that is left. -/
def normalizeDashes (text : PyStr) : PyStr :=
  if text.isEmpty || !(emEn.any (text.contains ·) || found arrows text) then text
  else
    let text := sub arrows (py " to ") text
    let text := sub range (py "-") text
    let text := sub wordRange (py " to ") text
    let text := subWith bullet (fun m => (m.group 1).getD [] ++ py "- ") text
    let text := sub aside (py ", ") text
    sub trailing (py ",") text

end

end Documents.TextHygiene

end GhostPour

namespace GhostPour

namespace Documents.Workbook

open Regex

/-- A Python list or set: it holds at most `sys.maxsize` values. -/
structure Sized (α : Type) where
  items : List α
  bounded : items.length < 2 ^ 63

/-- The characters of `_ILLEGAL_TAB`. -/
def isIllegal (c : Nat) : Bool := (py "[]:*?/\\").contains c

/-- `_ILLEGAL_TAB`. -/
def illegalTab : Regex := .set isIllegal

/-- `_SPACED_HYPHEN`. -/
def spacedHyphen : Regex := seqs [plus space, .set (· == 45), plus space]

/-- `_MAX_TAB`. -/
def maxTab : Nat := 31

/-- `s or "Sheet"`. -/
def orSheet (s : PyStr) : PyStr := if s.isEmpty then py "Sheet" else s

/-- `s[:stop]`. -/
def upTo (s : PyStr) (stop : Int) : PyStr :=
  if stop < 0 then s.take (s.length + stop).toNat else s.take stop.toNat

/-- `base[: _MAX_TAB - len(suffix)] + suffix`. -/
def suffixed (base : PyStr) (n : Nat) : PyStr :=
  let suffix := py " " ++ strOfNat n
  upTo base (maxTab - suffix.length) ++ suffix

section
variable [PyRuntime]

/-- The legal name a raw one becomes; a sheet may have none. -/
def plainTab (raw : Option PyStr) : PyStr :=
  let name := sub spacedHyphen (py ", ") (TextHygiene.normalizeDashes (orSheet (raw.getD [])))
  let name := sub illegalTab (py " ") name
  let name := orSheet (strip (sub (plus space) (py " ") name))
  strip (name.take maxTab)

/-- `while name.lower() in taken`; `none` when there are more rounds than the fuel allows. -/
def freeTab (taken : List PyStr) (base : PyStr) : Nat → PyStr → Nat → Option PyStr
  | 0, _, _ => none
  | fuel + 1, name, n =>
      if lower name ∈ taken then freeTab taken base fuel (suffixed base n) (n + 1) else some name

/-- `_tab_name`: the name, and the names taken after it. -/
def tabName (fuel : Nat) (raw : Option PyStr) (taken : List PyStr) : Option (PyStr × List PyStr) :=
  (freeTab taken (plainTab raw) fuel (plainTab raw) 2).map fun name => (name, lower name :: taken)

/-- The names of a list of sheets, one after the other. -/
def tabNames (fuel : Nat) : List (Option PyStr) → List PyStr → Option (List PyStr × List PyStr)
  | [], taken => some ([], taken)
  | raw :: raws, taken =>
      (tabName fuel raw taken).bind fun (name, taken) =>
        (tabNames fuel raws taken).map fun (names, taken) => (name :: names, taken)

end

end Documents.Workbook

end GhostPour
