/-
Module: GhostPour.N400.SpanishSpeech
Layer: Spec
Purpose: How numbers are said in Spanish, whatever reads them back: the words of the numbers up to a
  hundred with the accents that the standard form has or without them, `y` between the tens and a unit, any
  letters in capitals, and between two numbers spaces, punctuation and words that say no number.
Trusted boundary: human-reviewed spec
Main exports: singleForms, tenForms, unitForms, SpokenWord, Numeral, Numeral.pair, Joiner, Utterance,
  numeral_exists
-/
import GhostPour.N400.SpokenDates

namespace GhostPour.N400.SpanishNumerals

/-! ### Words -/

/-- The units after `y`. -/
def unitForms : Assoc Nat := numberTable
  [("uno", 1), ("un", 1), ("una", 1), ("dos", 2), ("tres", 3), ("cuatro", 4), ("cinco", 5), ("seis", 6),
    ("siete", 7), ("ocho", 8), ("nueve", 9)]

/-- The numbers of one word that no `y` follows. -/
def singleForms : Assoc Nat := numberTable [("cero", 0)] ++ unitForms ++ numberTable
  [("diez", 10), ("once", 11), ("doce", 12), ("trece", 13), ("catorce", 14), ("quince", 15),
    ("dieciséis", 16), ("dieciseis", 16), ("diecisiete", 17), ("dieciocho", 18), ("diecinueve", 19),
    ("veinte", 20), ("veintiuno", 21), ("veintiún", 21), ("veintiun", 21), ("veintiuna", 21),
    ("veintidós", 22), ("veintidos", 22), ("veintitrés", 23), ("veintitres", 23), ("veinticuatro", 24),
    ("veinticinco", 25), ("veintiséis", 26), ("veintiseis", 26), ("veintisiete", 27),
    ("veintiocho", 28), ("veintinueve", 29), ("cien", 100), ("ciento", 100)]

/-- The tens that `y` and a unit may follow. -/
def tenForms : Assoc Nat := numberTable
  [("treinta", 30), ("cuarenta", 40), ("cincuenta", 50), ("sesenta", 60), ("setenta", 70),
    ("ochenta", 80), ("noventa", 90)]

/-- A letter as it is, or its capital. -/
def sameCase (c x : Nat) : Prop := x = c ∨ x + 32 = c

/-- A word of a table, said in letters of any case. -/
structure SpokenWord (forms : Assoc Nat) where
  form : PyStr
  value : Nat
  listed : (form, value) ∈ forms
  said : PyStr
  cased : List.Forall₂ sameCase form said

/-- A word in lower case. -/
def SpokenWord.plain {forms : Assoc Nat} {form : PyStr} {value : Nat}
    (listed : (form, value) ∈ forms) : SpokenWord forms :=
  ⟨form, value, listed, form, List.forall₂_same.mpr fun _ _ => Or.inl rfl⟩

/-- White space between two words. -/
structure Gap where
  text : PyStr
  some_ : text ≠ []
  spaces : ∀ c ∈ text, isSpace c = true

/-- Tens, `y` and a unit. -/
structure Compound where
  ten : SpokenWord tenForms
  before : Gap
  joined : PyStr
  cased : List.Forall₂ sameCase (py "y") joined
  after : Gap
  unit : SpokenWord unitForms

/-- A number as it is said. -/
inductive Numeral where
  | single (word : SpokenWord singleForms)
  | tens (word : SpokenWord tenForms)
  | compound (c : Compound)

namespace Numeral

def value : Numeral → Nat
  | single word => word.value
  | tens word => word.value
  | compound c => c.ten.value + c.unit.value

/-- The words that were spoken. -/
def words : Numeral → List PyStr
  | single word => [word.said]
  | tens word => [word.said]
  | compound c => [c.ten.said, c.joined, c.unit.said]

def text : Numeral → PyStr
  | single word => word.said
  | tens word => word.said
  | compound c => c.ten.said ++ (c.before.text ++ (c.joined ++ (c.after.text ++ c.unit.said)))

/-- The words with the digits they say. -/
def pair (n : Numeral) : PyStr × PyStr := (join (py " ") n.words, strOfNat n.value)

/-- Tens without a unit. -/
def isTens : Numeral → Bool
  | tens _ => true
  | _ => false

/-- A number below ten. -/
def isUnit : Numeral → Bool
  | single word => word.value < 10
  | _ => false

end Numeral

/-- Each number from zero to a hundred can be said. -/
theorem numeral_exists {n : Nat} (hundred : n ≤ 100) : ∃ numeral : Numeral, numeral.value = n := by
  have listed : ∀ n ≤ 100, (∃ row ∈ singleForms, row.2 = n) ∨ (∃ row ∈ tenForms, row.2 = n) ∨
      ∃ ten ∈ tenForms, ∃ unit ∈ unitForms, ten.2 + unit.2 = n := by
    decide +kernel
  rcases listed n hundred with ⟨row, single, rfl⟩ | ⟨row, ten, rfl⟩ | ⟨ten, isTen, unit, isUnit, rfl⟩
  · exact ⟨.single (.plain single), rfl⟩
  · exact ⟨.tens (.plain ten), rfl⟩
  · let gap : Gap := ⟨py " ", by decide, by decide⟩
    exact ⟨.compound ⟨.plain isTen, gap, py "y", List.forall₂_same.mpr fun _ _ => Or.inl rfl, gap,
      .plain isUnit⟩, rfl⟩

/-! ### Speech -/

section
variable [PyRuntime]

/-- A letter or an accent of one. -/
def isWordChar (c : Nat) : Bool := PyRuntime.isAlpha c || nonspacing c

/-- The words of a text. -/
def spokenWords (text : PyStr) : List PyStr :=
  (text.splitOnP fun c => !isWordChar c).filter (· ≠ [])

/-- What stands between two numbers: spaces, punctuation and words, apart from the words beside it, with no
digits, no number word and no `y`, whatever their case and accents. -/
structure Joiner where
  text : PyStr
  some_ : text ≠ []
  starts : ∀ c ∈ text.head?, isWordChar c = false
  ends : ∀ c ∈ text.getLast?, isWordChar c = false
  noDigits : ∀ c ∈ text, isDecimal c = false
  foreign : ∀ w ∈ spokenWords text, foldWord w ∉ vocabulary

/-- A list of numbers with what joins them. -/
inductive Utterance where
  | nothing
  | numbers (first : Numeral) (later : List (Joiner × Numeral))

/-- A number and what follows it. -/
def spokenFrom : Numeral → List (Joiner × Numeral) → PyStr
  | n, [] => n.text
  | n, (j, next) :: later => n.text ++ (j.text ++ spokenFrom next later)

/-- Each joiner, between its two numbers. -/
def jointsFrom : Numeral → List (Joiner × Numeral) → List (Numeral × Joiner × Numeral)
  | _, [] => []
  | n, (j, next) :: later => (n, j, next) :: jointsFrom next later

namespace Utterance

def numerals : Utterance → List Numeral
  | nothing => []
  | numbers first later => first :: later.map Prod.snd

def text : Utterance → PyStr
  | nothing => []
  | numbers first later => spokenFrom first later

def joints : Utterance → List (Numeral × Joiner × Numeral)
  | nothing => []
  | numbers first later => jointsFrom first later

end Utterance

end

end GhostPour.N400.SpanishNumerals
