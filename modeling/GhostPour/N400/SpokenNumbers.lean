/-
Module: GhostPour.N400.SpokenNumbers
Layer: Model
Purpose: `app/services/spoken_numbers.py`: spoken number words written as digits, in three languages,
  with the guard that leaves a date after a month in words. A token keeps its text beside its ends, so
  that nothing is looked up in the utterance; `none` is the `IndexError` of an empty folded word.
Trusted boundary: human-reviewed spec
Main exports: unitWords, teenWords, tenWords, Token, fold, tokens, isNumberWord, isMonth, afterAMonth,
  readGroup, readRun, written
-/
import GhostPour.Library.Dicts
import GhostPour.Library.Regex

namespace GhostPour.N400.SpokenNumbers

open Regex

/-! ### Vocabulary -/

/-- Words in a row, and the number that each of them says. -/
def counted (first step : Nat) (words : List String) : Assoc Nat :=
  words.zipIdx.map fun w => (py w.1, first + step * w.2)

/-- `_UNITS`. -/
def unitWords : Assoc Nat :=
  counted 0 1 ["zero", "one", "two", "three", "four", "five", "six", "seven", "eight", "nine"] ++
  counted 0 1 ["cero", "uno", "dos", "tres", "cuatro", "cinco", "seis", "siete", "ocho", "nueve"] ++
  counted 0 1 ["zero", "um", "dois", "tres", "quatro", "cinco", "seis", "sete", "oito", "nove"]

/-- `_TEENS`. -/
def teenWords : Assoc Nat :=
  counted 10 1 ["ten", "eleven", "twelve", "thirteen", "fourteen", "fifteen", "sixteen", "seventeen",
    "eighteen", "nineteen"] ++
  counted 10 1 ["diez", "once", "doce", "trece", "catorce", "quince", "dieciseis", "diecisiete",
    "dieciocho", "diecinueve"] ++
  counted 20 1 ["veinte", "veintiuno", "veintidos", "veintitres", "veinticuatro", "veinticinco",
    "veintiseis", "veintisiete", "veintiocho", "veintinueve"] ++
  counted 10 1 ["dez", "onze", "doze", "treze", "catorze", "quinze", "dezesseis", "dezessete", "dezoito",
    "dezenove"] ++
  counted 14 1 ["quatorze"]

/-- `_TENS`. -/
def tenWords : Assoc Nat :=
  counted 20 10 ["twenty", "thirty", "forty", "fifty", "sixty", "seventy", "eighty", "ninety"] ++
  counted 30 10 ["treinta", "cuarenta", "cincuenta", "sesenta", "setenta", "ochenta", "noventa"] ++
  counted 20 10 ["vinte", "trinta", "quarenta", "cinquenta", "sessenta", "setenta", "oitenta", "noventa"]

/-- `_MONTHS`. -/
def months : List PyStr :=
  ["january", "february", "march", "april", "june", "july", "august", "september", "october",
    "november", "december",
    "enero", "febrero", "marzo", "abril", "mayo", "junio", "julio", "agosto", "septiembre",
    "setiembre", "octubre", "noviembre", "diciembre",
    "janeiro", "fevereiro", "maio", "junho", "julho", "setembro", "outubro", "novembro",
    "dezembro"].map py

/-- `_ORDINALS`. -/
def ordinals : List PyStr :=
  ["first", "second", "third", "fourth", "fifth", "sixth", "seventh", "eighth", "ninth", "tenth",
    "eleventh", "twelfth", "thirteenth", "fourteenth", "fifteenth", "sixteenth", "seventeenth",
    "eighteenth", "nineteenth", "twentieth", "thirtieth", "primero", "primeiro"].map py

/-- `_CONNECTORS`. -/
def connectors : List PyStr := ["the", "of", "de", "del", "do", "da"].map py

/-- `_JOINERS`. -/
def joiners : List PyStr := ["y", "e"].map py

/-- `_SEPARATORS`. -/
def separators : List PyStr := [",", "-"].map py

/-- `MIN_DIGITS`. -/
def minDigits : Nat := 3

section
variable [PyRuntime]

/-! ### Tokens -/

/-- `[^\W\d_]`. -/
def isLetterChar (c : Nat) : Bool := isWord c && !isDecimal c && c != '_'.toNat

/-- `[^\w\s]`. -/
def isMarkChar (c : Nat) : Bool := !isWord c && !isSpace c

/-- `_TOKEN`. -/
def token : Regex := alts [plus (.set isLetterChar), plus digit, .set isMarkChar]

/-- `_fold`. -/
def fold (word : PyStr) : PyStr := (nfd (lower word)).filter fun c => !nonspacing c

/-- A token: where it starts, its text, and the text folded. -/
structure Token where
  start : Nat
  raw : PyStr
  word : PyStr

omit [PyRuntime] in
/-- Where a token ends. -/
def Token.stop (t : Token) : Nat := t.start + t.raw.length

/-- The tokens of an utterance. -/
def tokens (text : PyStr) : List Token :=
  (finditer token text).map fun m => ⟨m.start, m.text, fold m.text⟩

omit [PyRuntime] in
/-- `_is_number_word`. -/
def isNumberWord (w : PyStr) : Bool :=
  (unitWords.get w).isSome || (teenWords.get w).isSome || (tenWords.get w).isSome

/-- `_is_month`. -/
def isMonth (t : Token) : Bool :=
  if t.word = py "may" then t.raw.head? == some 'M'.toNat
  else if t.word = py "marco" then lower t.raw == py "março"
  else months.contains t.word

/-- `_after_a_month`, on the tokens before a run. -/
def afterAMonth (before : List Token) : Option Bool :=
  if before.any fun t => t.word.isEmpty then none
  else
    let words := before.filter fun t => t.word.head?.any isAlnum
    match words.reverse with
    | [] => some false
    | last :: earlier =>
        some (isMonth last || (ordinals.contains last.word || connectors.contains last.word) &&
          earlier.head?.any isMonth)

/-! ### Runs -/

omit [PyRuntime] in
/-- Pass a token of a kind, if it is there. -/
def skipOne (kind : List PyStr) : List Token → List Token
  | t :: rest => if kind.contains t.word then rest else t :: rest
  | [] => []

omit [PyRuntime] in
/-- The unit after a tens word, behind a hyphen and a joiner or neither: its number, where it ends and
what follows it. -/
def unitAhead (rest : List Token) : Option (Nat × Nat × List Token) :=
  match skipOne joiners (skipOne [py "-"] rest) with
  | u :: later => (unitWords.get u.word).map fun unit => (unit, u.stop, later)
  | [] => none

omit [PyRuntime] in
/-- One group of a run: its digits, where it ends and what follows it. -/
def readGroup : List Token → Option (PyStr × Nat × List Token)
  | [] => none
  | t :: rest =>
      match tenWords.get t.word with
      | some ten =>
          match unitAhead rest with
          | some (unit, stop, later) => some (strOfNat (ten + unit), stop, later)
          | none => some (strOfNat ten, t.stop, rest)
      | none =>
          ((teenWords.get t.word).or (unitWords.get t.word)).map fun n => (strOfNat n, t.stop, rest)

omit [PyRuntime] in
/-- The inner loop: the groups of a run one after the other. A separator continues a run only when a
number word follows, and never a guarded one. The first argument bounds the groups. -/
def readRun (guarded : Bool) : Nat → PyStr → Nat → List Token → PyStr × Nat × List Token
  | 0, digits, stop, toks => (digits, stop, toks)
  | n + 1, digits, stop, toks =>
      match readGroup toks with
      | none => (digits, stop, toks)
      | some (said, stop, rest) =>
          if guarded then readRun guarded n (digits ++ said) stop rest
          else
            let ahead := rest.dropWhile fun t => separators.contains t.word
            if ahead.head?.any fun t => isNumberWord t.word then
              readRun guarded n (digits ++ said) stop ahead
            else (digits ++ said, stop, rest)

/-- The outer loop: what is written from the cursor on. The first argument bounds the tokens, `before`
are those passed. -/
def writtenFrom (text : PyStr) : Nat → Nat → List Token → List Token → Option PyStr
  | n + 1, cursor, before, t :: rest =>
      if isNumberWord t.word then
        match afterAMonth before with
        | none => none
        | some guarded =>
            let toks := t :: rest
            let run := readRun guarded toks.length [] t.stop toks
            let before := before ++ toks.take (toks.length - run.2.2.length)
            if minDigits ≤ run.1.length && !guarded then
              (writtenFrom text n run.2.1 before run.2.2).map fun out =>
                (text.drop cursor).take (t.start - cursor) ++ (run.1 ++ out)
            else writtenFrom text n cursor before run.2.2
      else writtenFrom text n cursor (before ++ [t]) rest
  | _, cursor, _, _ => some (text.drop cursor)

/-- `written`. -/
def written (text : PyStr) : Option PyStr :=
  let toks := tokens text
  writtenFrom text toks.length 0 [] toks

end

end GhostPour.N400.SpokenNumbers
