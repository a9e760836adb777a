/-
Module: GhostPour.N400.Guard
Layer: Model
Purpose: What the guards of `app/services/n400_interviewer_guard.py` have in common. A guard reads the object
  of a response and may change it; a text that is not an object goes through byte for byte, and so does one
  the guard has nothing to say about. How `app/services/n400_interviewer_guard.py` reads her words before it
  compares them: case, white space and quotation marks, accents, punctuation, and the lines of the
  conversation that are hers.
Trusted boundary: human-reviewed spec
Main exports: Guard, Guard.onText, appendTo, takeAway, dropFacts, keyIn, normText, fold, foldTokens,
  plainText, saysWord, applicantSaid, lineFieldIds
-/
import GhostPour.Library.Fallible
import GhostPour.Library.Regex
import GhostPour.N400.Checkpoint

namespace GhostPour.N400

/-- A guard on the object of a response: `none` raises, `some none` leaves the response alone, and
otherwise the changed object comes with what the guard returns about it. -/
abbrev Guard (ι : Type) := Dict → Py (Option (Dict × ι))

section
variable [PyRuntime]

/-- The guard on the text of a response. -/
def Guard.onText {ι : Type} (guard : Guard ι) (text : PyStr) : Py (PyStr × Option ι) :=
  match turnOf text with
  | none => some (text, none)
  | some turn => (guard turn).map fun changed =>
      match changed with
      | none => (text, none)
      | some (turn', info) => (dumps (.obj turn'), some info)

/-- `turn[key] = (turn.get(key) or []) + more`: only a list can be added to. -/
def appendTo (turn : Dict) (key : String) (more : List Json) : Py Dict :=
  let old := turn.get (py key)
  if old.truthy then
    match old with
    | .arr items => some (turn.set (py key) (.arr (items ++ more)))
    | _ => none
  else some (turn.set (py key) (.arr more))

/-! ### Field ids in sets -/

/-- `v in keys` for a set: an unhashable value raises. -/
def keyIn (v : Json) (keys : List Json) : Py Bool :=
  if v.hashable then some (keys.any (Json.sameKey v)) else none

/-- `{f.get("field_id") for f in facts if isinstance(f, dict)}`, in order. -/
def fieldIdSet (facts : List Json) : Py (List Json) :=
  ((facts.filter isDict).map (Json.field · "field_id")).mapM fun v =>
    if v.hashable then some v else none

/-- `ids <= filled` for a set of strings. -/
def allFilled (ids : List PyStr) (filled : List Json) : Bool :=
  ids.all fun id => filled.any (Json.sameKey (.str id))

/-! ### Taking facts away -/

/-- Take entries away from a list of the object and say so under a mark, if there are any. -/
def takeAway (turn : Dict) (key : String) (kept : List Json) (mark : String) (dropped : List Json) :
    Py Dict :=
  if dropped.isEmpty then some turn else appendTo (turn.set (py key) (.arr kept)) mark dropped

/-- A guard that takes the facts away that a test condemns, and says so in `facts_dropped`. -/
def dropFacts {ι : Type} (judge : Json → Py (Option ι)) (entry : ι → Json) : Guard (List ι) :=
  fun turn =>
    match turn.get (py "facts") with
    | .arr facts => do
        let verdicts ← facts.mapM judge
        let dropped := verdicts.filterMap id
        if dropped.isEmpty then return none
        let kept := keptOf facts verdicts
        return some (← takeAway turn "facts" kept "facts_dropped" (dropped.map entry), dropped)
    | _ => return none

end

end GhostPour.N400

namespace GhostPour.N400

open Regex

/-- A text taken as a pattern, character by character. -/
def verbatim : PyStr → Regex
  | [] => .eps
  | [c] => .set (· == c)
  | c :: s => .seq (.set (· == c)) (verbatim s)

/-- `"|".join(texts)` of texts taken as patterns; with no text it matches nothing but the empty
text. -/
def anyOf (texts : List PyStr) : Regex := if texts = [] then .eps else alts (texts.map verbatim)

/-- `n` in decimal with a zero in front where it has one digit: `f"{n:02d}"`. -/
def twoDigits (n : Nat) : PyStr := if n < 10 then ord '0' :: strOfNat n else strOfNat n

section
variable [PyRuntime]

/-- `_norm`. -/
def normText (s : PyStr) : PyStr := stripBy (py "\"'“”‘’ ").contains (squeeze (lower s))

/-- `_fold`. -/
def fold (s : PyStr) : PyStr := (nfkd (lower s)).filter fun c => !combining c

/-- A run of letters without accents. -/
def letters : Regex := plus lowerAscii

/-- `_fold_tokens`: hyphens close up. -/
def foldTokens (s : PyStr) : List PyStr :=
  findall letters (((nfd (lower s)).filter fun c => !nonspacing c).filter fun c =>
    c != ord '-' && c != 0x2011)

/-- `_plain`. -/
def plainText (s : PyStr) : PyStr :=
  squeeze (sub (plus (.set fun x => !((97 ≤ x && x ≤ 122) || isAsciiDigit x))) (py " ") (fold s))

/-- A word of a text: `re.search(rf"\b{word}\b", text)`. -/
def saysWord (word text : PyStr) : Bool := found (seqs [bound, verbatim word, bound]) text

/-! ### The conversation -/

/-- `_APPLICANT_LINE`. -/
def applicantLine : Regex :=
  seqs [lineStart, many space, .alt (lit "APPLICANT".toList) (lit "SOLICITANTE".toList), many space,
    lit ":".toList, many space, group 1 (many dot), lineStop]

/-- `_applicant_said`: her lines, normalised. -/
def applicantSaid (conversation : Option PyStr) : List PyStr :=
  (((finditer applicantLine (orEmpty conversation)).map (groupText · 1)).filter
    fun line => strip line != []).map normText

/-- Her lines without the last one where that is what she just said. -/
def linesBefore (said : PyStr) (lines : List PyStr) : List PyStr :=
  if lines.getLast? = some said then lines.dropLast else lines

/-- One line of `_line_field_ids`; `none` is "unknown". -/
def lineIds (line : PyStr) : Option (List PyStr) :=
  let ids := strip (partition ':' line).2.2
  if ids = [] ∨ ids = py "unknown" then none else some (idSet ids)

/-- `_line_field_ids`: which fields each of her lines answered. -/
def lineFieldIds (raw : Option PyStr) : List (Option (List PyStr)) :=
  ((splitlines (orEmpty raw)).filter fun line => strip line != []).map lineIds

end

end GhostPour.N400
