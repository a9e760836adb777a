/-
Module: GhostPour.N400.SpokenDates
Layer: Model
Purpose: `app/services/spanish_numerals.py`: the digits that a run of Spanish number words says, group by
  group. How `app/services/n400_interviewer_guard.py` decides that a date is hers: the year, month and day
  said in digits or in words of English, Spanish or Portuguese, a date carried from one of her last lines, and
  a date she confirmed with a yes.
Trusted boundary: human-reviewed spec
Main exports: numeralTokens, readGroups, numeralHint, vocabulary, yearsInWords, yearSaid, dayWasSpoken,
  dateSaid, wholeDateIn, dateCarried, dateConfirmed, spokenPartial, knownPartial
-/
import GhostPour.Library.PyValue
import GhostPour.Library.Regex
import GhostPour.N400.Guard

namespace GhostPour.N400.SpanishNumerals

open Regex

/-- A table of number words. -/
def numberTable (rows : List (String × Nat)) : Assoc Nat := rows.map fun row => (py row.1, row.2)

/-- `_UNITS`. -/
def unitWords : Assoc Nat := numberTable
  [("cero", 0), ("uno", 1), ("una", 1), ("un", 1), ("dos", 2), ("tres", 3), ("cuatro", 4),
    ("cinco", 5), ("seis", 6), ("siete", 7), ("ocho", 8), ("nueve", 9)]

/-- `_TEENS`. -/
def teenWords : Assoc Nat := numberTable
  [("diez", 10), ("once", 11), ("doce", 12), ("trece", 13), ("catorce", 14), ("quince", 15),
    ("dieciseis", 16), ("diecisiete", 17), ("dieciocho", 18), ("diecinueve", 19),
    ("veinte", 20), ("veintiuno", 21), ("veintiun", 21), ("veintiuna", 21), ("veintidos", 22),
    ("veintitres", 23), ("veinticuatro", 24), ("veinticinco", 25), ("veintiseis", 26),
    ("veintisiete", 27), ("veintiocho", 28), ("veintinueve", 29)]

/-- `_TENS`. -/
def tenWords : Assoc Nat := numberTable
  [("treinta", 30), ("cuarenta", 40), ("cincuenta", 50), ("sesenta", 60), ("setenta", 70),
    ("ochenta", 80), ("noventa", 90)]

/-- `_HUNDRED`. -/
def hundredWords : Assoc Nat := numberTable [("cien", 100), ("ciento", 100)]

section
variable [PyRuntime]

/-- `_fold`. -/
def foldWord (word : PyStr) : PyStr := (nfd (lower word)).filter fun c => !nonspacing c

/-- `_tokens`. -/
def numeralTokens (text : PyStr) : List PyStr :=
  findall (alts [plus (oneOfI "abcdefghijklmnopqrstuvwxyzáéíóúüñ"), plus digit, oneOf ",.;"]) text

/-- The value of a word that is a number by itself: a unit, a teen or a bare hundred. -/
def wholeNumber (word : PyStr) : Option Nat :=
  (unitWords.get word).or ((teenWords.get word).or (hundredWords.get word))

/-- The unit after `y` that closes a compound. -/
def unitAfterY : List PyStr → Option Nat
  | joined :: unit :: _ =>
      if foldWord joined = py "y" then unitWords.get (foldWord unit) else none
  | _ => none

/-- `read_groups`, on the tokens: the words of each group and its digits. The first argument counts
the tokens that a compound before has already taken. -/
def readTokens : Nat → List PyStr → List (PyStr × PyStr)
  | _, [] => []
  | taken + 1, _ :: toks => readTokens taken toks
  | 0, raw :: toks =>
      if raw ≠ [] ∧ raw.all PyRuntime.isDigit then (raw, raw) :: readTokens 0 toks
      else match wholeNumber (foldWord raw), tenWords.get (foldWord raw) with
      | some n, _ => (raw, strOfNat n) :: readTokens 0 toks
      | none, some ten =>
          -- tens [y unit] is one compound; anything else starts a new group
          match unitAfterY toks with
          | some n => (join (py " ") (raw :: toks.take 2), strOfNat (ten + n)) :: readTokens 2 toks
          | none => (raw, strOfNat ten) :: readTokens 0 toks
      | none, none => readTokens 0 toks

/-- `read_groups`. -/
def readGroups (text : PyStr) : List (PyStr × PyStr) := readTokens 0 (numeralTokens text)

/-- The line of `numeral_hint`, from its groups. -/
def hintLine (groups : List (PyStr × PyStr)) : Option PyStr :=
  if groups = [] then none
  else some (join (py "; ") (groups.map fun g => g.1 ++ py " = " ++ g.2))

/-- `numeral_hint`. -/
def numeralHint (text : PyStr) : Option PyStr :=
  hintLine ((readGroups text).filter fun g => ¬(g.1 ≠ [] ∧ g.1.all PyRuntime.isDigit))

end

/-- `_ALL`. -/
def vocabulary : List PyStr :=
  (unitWords ++ teenWords ++ tenWords ++ hundredWords).map Prod.fst ++ [py "y"]

end GhostPour.N400.SpanishNumerals

namespace GhostPour.N400

open Regex SpanishNumerals

/-! ### Tables -/

/-- `_MONTHS`. -/
def months : List (List PyStr) :=
  [["january", "jan", "enero", "janeiro"], ["february", "feb", "febrero", "fevereiro"],
    ["march", "mar", "marzo", "marco"], ["april", "apr", "abril"], ["may", "mayo", "maio"],
    ["june", "jun", "junio", "junho"], ["july", "jul", "julio", "julho"],
    ["august", "aug", "agosto"], ["september", "sept", "sep", "septiembre", "setiembre", "setembro"],
    ["october", "oct", "octubre", "outubro"], ["november", "nov", "noviembre", "novembro"],
    ["december", "dec", "diciembre", "dezembro"]].map (List.map py)

/-- `_MONTHS.get(month, ())`. -/
def monthNames (month : Nat) : List PyStr := if month = 0 then [] else months.getD (month - 1) []

/-- `_YW_UNITS`. -/
def yearUnits : Assoc Nat := numberTable
  [("one", 1), ("two", 2), ("three", 3), ("four", 4), ("five", 5), ("six", 6), ("seven", 7),
    ("eight", 8), ("nine", 9),
    ("uno", 1), ("un", 1), ("dos", 2), ("tres", 3), ("cuatro", 4), ("cinco", 5), ("seis", 6),
    ("siete", 7), ("ocho", 8), ("nueve", 9),
    ("um", 1), ("uma", 1), ("dois", 2), ("duas", 2), ("quatro", 4), ("sete", 7), ("oito", 8),
    ("nove", 9)]

/-- `_YW_TEENS`. -/
def yearTeens : Assoc Nat := numberTable
  [("ten", 10), ("eleven", 11), ("twelve", 12), ("thirteen", 13), ("fourteen", 14), ("fifteen", 15),
    ("sixteen", 16), ("seventeen", 17), ("eighteen", 18), ("nineteen", 19),
    ("diez", 10), ("once", 11), ("doce", 12), ("trece", 13), ("catorce", 14), ("quince", 15),
    ("dieciseis", 16), ("diecisiete", 17), ("dieciocho", 18), ("diecinueve", 19),
    ("veintiuno", 21), ("veintiun", 21), ("veintidos", 22), ("veintitres", 23),
    ("veinticuatro", 24), ("veinticinco", 25), ("veintiseis", 26), ("veintisiete", 27),
    ("veintiocho", 28), ("veintinueve", 29),
    ("dez", 10), ("onze", 11), ("doze", 12), ("treze", 13), ("catorze", 14), ("quatorze", 14),
    ("quinze", 15), ("dezesseis", 16), ("dezasseis", 16), ("dezessete", 17), ("dezassete", 17),
    ("dezoito", 18), ("dezenove", 19), ("dezanove", 19)]

/-- `_YW_TENS`. -/
def yearTens : Assoc Nat := numberTable
  [("twenty", 20), ("thirty", 30), ("forty", 40), ("fifty", 50), ("sixty", 60), ("seventy", 70),
    ("eighty", 80), ("ninety", 90),
    ("veinte", 20), ("treinta", 30), ("cuarenta", 40), ("cincuenta", 50), ("sesenta", 60),
    ("setenta", 70), ("ochenta", 80), ("noventa", 90),
    ("vinte", 20), ("trinta", 30), ("quarenta", 40), ("cinquenta", 50), ("sessenta", 60),
    ("oitenta", 80)]

/-- `_YW_JOIN`. -/
def yearJoins : List PyStr := [py "y", py "e", py "and"]

/-- Words in order, numbered from one. -/
def numbered (names : List String) : Assoc Nat := (names.map py).zipIdx 1

/-- `_DAY_WORDS`. -/
def dayWords : Assoc Nat :=
  numbered ["first", "second", "third", "fourth", "fifth", "sixth", "seventh", "eighth", "ninth",
    "tenth", "eleventh", "twelfth", "thirteenth", "fourteenth", "fifteenth", "sixteenth",
    "seventeenth", "eighteenth", "nineteenth", "twentieth", "twentyfirst", "twentysecond",
    "twentythird", "twentyfourth", "twentyfifth", "twentysixth", "twentyseventh", "twentyeighth",
    "twentyninth", "thirtieth", "thirtyfirst"] ++
  numbered ["one", "two", "three", "four", "five", "six", "seven", "eight", "nine", "ten", "eleven",
    "twelve", "thirteen", "fourteen", "fifteen", "sixteen", "seventeen", "eighteen", "nineteen",
    "twenty"] ++
  numbered ["primero", "dos", "tres", "cuatro", "cinco", "seis", "siete", "ocho", "nueve", "diez",
    "once", "doce", "trece", "catorce", "quince", "dieciseis", "diecisiete", "dieciocho",
    "diecinueve", "veinte", "veintiuno", "veintidos", "veintitres", "veinticuatro", "veinticinco",
    "veintiseis", "veintisiete", "veintiocho", "veintinueve", "treinta"] ++
  numberTable [("uno", 1), ("primer", 1), ("primeiro", 1), ("dois", 2), ("quatro", 4), ("sete", 7),
    ("oito", 8), ("nove", 9), ("dez", 10), ("onze", 11), ("doze", 12), ("treze", 13),
    ("catorze", 14), ("quatorze", 14), ("quinze", 15), ("dezesseis", 16), ("dezasseis", 16),
    ("dezessete", 17), ("dezassete", 17), ("dezoito", 18), ("dezenove", 19), ("dezanove", 19),
    ("vinte", 20), ("trinta", 30), ("veintiun", 21)]

/-- The compounds of a tens word that are a day of the month. -/
def dayCompounds (tenWord : String) (ten : Nat) (joint : String) (units : List String) : Assoc Nat :=
  ((units.map fun unit => py tenWord ++ py joint ++ py unit).zipIdx (ten + 1)).filter
    fun row => decide (row.2 ≤ 31)

/-- `_DAY_PHRASES`. -/
def dayPhrases : Assoc Nat :=
  let ordinals := ["first", "second", "third", "fourth", "fifth", "sixth", "seventh", "eighth",
    "ninth"]
  let cardinals := ["one", "two", "three", "four", "five", "six", "seven", "eight", "nine"]
  let spanish := ["uno", "dos", "tres", "cuatro", "cinco", "seis", "siete", "ocho", "nueve"]
  let portuguese := ["um", "dois", "tres", "quatro", "cinco", "seis", "sete", "oito", "nove"]
  dayCompounds "twenty" 20 " " ordinals ++ dayCompounds "twenty" 20 " " cardinals ++
  dayCompounds "thirty" 30 " " ordinals ++ dayCompounds "thirty" 30 " " cardinals ++
  dayCompounds "veinte" 20 " y " spanish ++ dayCompounds "treinta" 30 " y " spanish ++
  dayCompounds "vinte" 20 " e " portuguese ++ dayCompounds "trinta" 30 " e " portuguese ++
  numberTable [("treinta y un", 31), ("veinte y un", 21)]

section
variable [PyRuntime]

/-! ### Years -/

/-- `_yw_tokens`. -/
def yearTokens (s : PyStr) : List PyStr :=
  findall (.alt letters (plus digit))
    ((fold s).map fun c => if c = ord '-' ∨ c = 0x2011 then 32 else c)

/-- The tokens without a joining word in front. -/
def dropJoin : List PyStr → List PyStr
  | t :: toks => if t ∈ yearJoins then toks else t :: toks
  | [] => []

/-- `_yw_small`: the number from 1 to 99 that the tokens start with, and the tokens after it. -/
def yearSmall (toks : List PyStr) : Option (Nat × List PyStr) :=
  match dropJoin toks with
  | [] => none
  | t :: rest =>
      match yearTeens.get t, yearTens.get t with
      | some n, _ => some (n, rest)
      | none, some ten =>
          match dropJoin rest with
          | u :: rest' =>
              match yearUnits.get u with
              | some unit => some (ten + unit, rest')
              | none => some (ten, rest)
          | [] => some (ten, rest)
      | none, none => (yearUnits.get t).map fun n => (n, rest)

/-- The year that starts at the first of the tokens. -/
def yearAt : List PyStr → Option Nat
  | [] => none
  | t :: rest =>
      let nxt := rest.headD []
      let small := fun toks => (yearSmall toks).map Prod.fst
      if t ∈ [py "two", py "dos", py "dois"] ∧ nxt ∈ [py "thousand", py "mil"] then
        some (2000 + (small rest.tail).getD 0)
      else if t = py "mil" ∧ nxt ∈ [py "novecientos", py "novecentos"] then
        some (1900 + (small rest.tail).getD 0)
      else match Assoc.get (numberTable [("eighteen", 1800), ("nineteen", 1900), ("twenty", 2000)]) t with
      | none => none
      | some century =>
          -- "nineteen hundred", "nineteen oh five", "nineteen seventy seven"
          if nxt = py "hundred" then some century
          else match (if nxt ∈ [py "oh", py "o"] then (rest.tail.head?).bind yearUnits.get
              else none) with
          | some unit => some (century + unit)
          | none =>
              if nxt ∈ yearJoins then none
              else ((small rest).filter fun n => decide (10 ≤ n)).map (century + ·)

/-- `_years_in_words`. -/
def yearsInWords (s : PyStr) : List PyStr :=
  ((yearTokens s).tails.filterMap fun toks => (yearAt toks).map strOfNat).dedup

/-- `_year_said`. -/
def yearSaid (year words : PyStr) : Bool := saysWord year words || year ∈ yearsInWords words

/-- `_YEAR_IN_WORDS`. -/
def yearInWords : Regex :=
  let spaces := plus space
  seqs [bound,
    alts [
      .seq (lit "dos mil".toList)
        (opt (seqs [spaces, opt (.seq (lit "y".toList) spaces), letters])),
      .seq (lit "mil novecientos".toList)
        (opt (seqs [spaces, letters, opt (seqs [spaces, lit "y".toList, spaces, letters])])),
      seqs [.alt (lit "dois mil".toList) (lit "mil novecentos".toList),
        opt (.seq spaces (lit "e".toList)),
        opt (seqs [spaces, letters, opt (seqs [spaces, lit "e".toList, spaces, letters])])],
      .seq (lit "two thousand".toList)
        (opt (seqs [spaces, opt (.seq (lit "and".toList) spaces), letters,
          opt (.seq spaces letters)])),
      seqs [.alt (lit "nineteen".toList) (lit "twenty".toList), spaces,
        alts (["twenty", "thirty", "forty", "fifty", "sixty", "seventy", "eighty", "ninety",
          "hundred", "oh", "o"].map fun w => lit w.toList),
        opt (.seq spaces letters)]],
    bound]

/-! ### Days -/

/-- `_day_was_spoken`. -/
def dayWasSpoken (day : Nat) (said : PyStr) : Bool :=
  ((findall (plus digit) said).any fun tok =>
    tok.length ≤ 2 && (lstripChars (py "0") tok != []) &&
      (lstripChars (py "0") tok).all PyRuntime.isDigit && natOfDecimals tok == some day) ||
  ((foldTokens said).any fun w => dayWords.get w == some day) ||
  (dayPhrases.any fun row => row.2 == day && isIn row.1 (join (py " ") (foldTokens said)))

/-- Her words with the years said in words taken out. -/
def withoutYears (said : PyStr) : PyStr :=
  sub yearInWords (py " ") (join (py " ") (foldTokens said))

/-- `_any_day_spoken`. -/
def anyDaySpoken (said : PyStr) : Bool :=
  ((List.range' 1 31).any fun day => dayWasSpoken day (withoutYears said)) ||
  ((findall (plus digit) said).any fun tok =>
    tok.length ≤ 2 && (natOfDecimals tok).any fun n => 1 ≤ n && n ≤ 31)

/-- `(\d{4})-(\d{2})` and an optional `-(\d{2})`. -/
def monthDate : Regex :=
  seqs [group 1 (times 4 digit), lit "-".toList, group 2 (times 2 digit),
    opt (.seq (lit "-".toList) (group 3 (times 2 digit)))]

/-- The number a group of digits stands for. -/
def groupNat (m : Match) (n : Nat) : Nat := (natOfDecimals (groupText m n)).getD 0

/-- The month of a date in her words: named, or as a number before a separator. -/
def monthSaid (month : Nat) (words : PyStr) : Bool :=
  (monthNames month).any (saysWord · words) ||
    found (seqs [bound, opt (lit "0".toList), verbatim (strOfNat month), oneOf "/.-"]) words

/-- `_date_said`: the cited words carry the year, the month and, for a full date, the day. -/
def dateSaid (value cited : PyStr) : Bool :=
  match fullmatch monthDate value with
  | none => false
  | some m =>
      let words := fold cited
      if !yearSaid (groupText m 1) words || !monthSaid (groupNat m 2) words then false
      else match m.group 3 with
      | none => true
      | some _ =>
          let day := groupNat m 3
          found (seqs [bound, opt (lit "0".toList), verbatim (strOfNat day),
              opt (alts (["st", "nd", "rd", "th"].map fun w => lit w.toList)), bound]) words ||
            -- a day in words, read with the year's own words taken out first
            dayWasSpoken day (withoutYears cited)

/-! ### A date as one phrase -/

/-- Longest first. -/
def longestFirst (forms : List PyStr) : List PyStr :=
  forms.insertionSort fun a b => decide (b.length ≤ a.length)

/-- `_day_forms`: every way a day is said. -/
def dayForms (day : Nat) : Regex :=
  anyOf (longestFirst ([strOfNat day, twoDigits day] ++
    (["st", "nd", "rd", "th"].map fun suffix => strOfNat day ++ py suffix) ++
    ((dayWords ++ dayPhrases).filterMap fun (form, n) => if n = day then some form else none)).dedup)

/-- The names of every month. -/
def allMonthNames : List PyStr := months.flatten

/-- `_month_forms`; no month, or month 0, is every month. -/
def monthForms (month : Nat) : Regex :=
  anyOf (longestFirst (if month = 0 then allMonthNames else monthNames month))

/-- An optional small word with the space after it. -/
def linkWord (texts : List String) : Regex :=
  opt (.seq (alts (texts.map fun w => lit w.toList)) (lit " ".toList))

/-- The day and then the month, or the month and then the day, before what follows. -/
def dayMonth (month day : Nat) (after : Regex) : Regex × Regex :=
  (seqs [bound, dayForms day, lit " ".toList, linkWord ["de", "del", "of", "the"],
      monthForms month, after],
    seqs [bound, monthForms month, lit " ".toList, linkWord ["the"], dayForms day, after])

/-- `_whole_date_in`: the date said as one phrase. -/
def wholeDateIn (year : PyStr) (month day : Nat) (line : PyStr) : Bool :=
  let patterns := dayMonth month day
    (seqs [lit " ".toList, linkWord ["de", "del", "of"], verbatim year, bound])
  found patterns.1 (plainText line) || found patterns.2 (plainText line)

/-- `_day_and_month_in`. -/
def dayAndMonthIn (month day : Nat) (line : PyStr) : Bool :=
  let patterns := dayMonth month day bound
  found patterns.1 (plainText line) || found patterns.2 (plainText line)

/-- `_years_as_digits`. -/
def yearsAsDigits (line : PyStr) : PyStr :=
  let words := join (py " ") (findall (plus (.set fun x => (97 ≤ x && x ≤ 122) || isAsciiDigit x))
    ((fold line).map fun c => if c = ord '-' then 32 else c))
  subWith yearInWords (fun m => match yearsInWords m.text with
    | [year] => year
    | _ => m.text) words

/-- `_day_without_its_month`: the day said with no month beside it. -/
def dayWithoutItsMonth (day : Nat) (line : PyStr) : Bool :=
  let t := plainText line
  (finditer (seqs [bound, dayForms day, bound]) t).any fun hit =>
    let after := (((words (t.drop hit.stop)).take 3).filter fun w =>
      decide (w ∉ [py "de", py "del", py "of", py "the"])).take 1
    let before := ((words (t.take hit.start)).reverse.take 2).filter (· != py "the") |>.take 1
    !(after ++ before).any (· ∈ allMonthNames)

/-! ### Dates of earlier lines -/

/-- The most recent three, the last first. -/
def lastThree {α : Type} (lines : List α) : List α := lines.reverse.take 3

/-- `_date_carried`: how many lines back, and whether the date was whole there or joined. -/
def dateCarried (year : PyStr) (month day : Nat) (said : PyStr) (conversation : Option PyStr) :
    Option (Nat × PyStr) :=
  let recent := (lastThree (linesBefore (normText said) (applicantSaid conversation))).zipIdx 1
  match recent.find? fun line => wholeDateIn year month day line.1 with
  | some line => some (line.2, py "whole")
  | none =>
      let namesMonth := found (seqs [bound, monthForms month, bound]) (plainText said)
      if !namesMonth || anyDaySpoken said then none
      else (recent.find? fun line => dayWithoutItsMonth day line.1 &&
          (saysWord year (plainText said) || saysWord year (plainText line.1))).map
        fun line => (line.2, py "joined")

/-- `_CONFIRM`. -/
def confirmRegex : Regex :=
  seqs [start,
    alts [lit "yes".toList, lit "yeah".toList, lit "yep".toList, lit "yup".toList,
      lit "correct".toList, lit "right".toList, lit "exactly".toList,
      seqs [lit "that".toList, opt (lit "'".toList), lit "s right".toList],
      seqs [lit "that".toList, opt (lit "'".toList), lit "s it".toList],
      lit "si".toList, lit "claro".toList, lit "correcto".toList, lit "exacto".toList,
      lit "eso es".toList, lit "asi es".toList, lit "sim".toList, lit "isso".toList,
      lit "certo".toList, lit "exatamente".toList, lit "e isso".toList],
    bound]

/-- `_SPEAKER_LINE`. -/
def speakerLine : Regex :=
  seqs [lineStart, many space,
    group 1 (alts (["INTERVIEWER", "ENTREVISTADOR", "APPLICANT", "SOLICITANTE"].map
      fun w => lit w.toList)),
    many space, lit ":".toList, many space, group 2 (many dot), lineStop]

/-- Whether a speaker is the applicant. -/
def isApplicant (who : PyStr) : Bool := who == py "APPLICANT" || who == py "SOLICITANTE"

/-- The lines of the conversation before what she just said. -/
def speakerLines (said : PyStr) (conversation : Option PyStr) : List (PyStr × PyStr) :=
  let lines := (finditer speakerLine (orEmpty conversation)).map fun m =>
    (PyRuntime.upper (groupText m 1), groupText m 2)
  if lines.getLast?.any fun line => isApplicant line.1 && normText line.2 == normText said then
    lines.dropLast
  else lines

/-- `_date_confirmed`: how a date she confirmed with a yes is hers. -/
def dateConfirmed (year : PyStr) (month day : Nat) (said : PyStr)
    (conversation knownFacts : Option PyStr) : Option PyStr :=
  let yes := plainText said
  if (matchStart confirmRegex yes).isNone || found digit yes ||
      found (seqs [bound, monthForms 0, bound]) yes then none
  else
    let lines := speakerLines said conversation
    match lines.getLast? with
    | none => none
    | some (who, asked) =>
        if who ≠ py "INTERVIEWER" ∧ who ≠ py "ENTREVISTADOR" then none
        else if !isIn (py "?") asked || !(wholeDateIn year month day asked ||
            wholeDateIn year month day (yearsAsDigits asked)) then none
        else if (lastThree ((lines.filter (isApplicant ·.1)).map Prod.snd)).any
            (dayAndMonthIn month day) then some (py "her_day")
        else if isIn (year ++ py "-" ++ twoDigits month ++ py "-" ++ twoDigits day)
            (orEmpty knownFacts) then some (py "on_file")
        else none

/-! ### Partials -/

/-- `_known_line`. -/
def knownLine (knownFacts : Option PyStr) (fieldId : Json) : PyStr :=
  match fieldId with
  | .str fid =>
      ((splitlines (orEmpty knownFacts)).find? fun line =>
        startsWith (fid ++ py ":") (strip line)).getD []
  | _ => []

/-- `_spoken_partial`: the part of a date she gave. -/
def spokenPartial (year : PyStr) (month : Nat) (said known : PyStr) : Option PyStr :=
  let words := fold said
  let yearMonth := year ++ py "-" ++ twoDigits month
  if !(yearSaid year words || isIn year known) then none
  else if (monthNames month).any (saysWord · words) || isIn yearMonth known then some yearMonth
  else some year

/-- `_known_partial`: the partial date that is on file for a field. -/
def knownPartial (knownFacts : Option PyStr) (fieldId : Json) : Option PyStr :=
  let line := knownLine knownFacts fieldId
  if line = [] then none
  else
    let rest := (partition ':' line).2.2
    let yearMonth : Regex := seqs [times 4 digit, lit "-".toList, times 2 digit]
    let marked (r : Regex) (text : String) : Option Match :=
      fullmatch (seqs [many space, group 1 r, lit text.toList, many space]) rest
    match search (seqs [bound, lit "partial".toList, plus space,
        group 1 (.seq (times 4 digit) (opt (.seq (lit "-".toList) (times 2 digit)))), bound]) rest with
    | some m => some (groupText m 1)
    | none =>
        ((marked yearMonth ", day missing").or (marked (times 4 digit) ", month and day missing")).map
          (groupText · 1)

end

end GhostPour.N400
