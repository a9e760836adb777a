/-
Module: GhostPour.Library.PyRuntime
Layer: Library
Purpose: The parts of the Python runtime that are tables rather than algorithms: the Unicode
  database behind `str.lower`, `str.isalpha` and `unicodedata`, the text `repr` gives a float, and
  the message of a JSON error. They are the fields of one class, with the documented facts about
  them that proofs use; `PyRuntime.ascii` is the table of the ASCII range.
Trusted boundary: human-reviewed spec
Main exports: numberToken, PyRuntime, PyRuntime.ascii, isWord, isDecimal, LatinRuntime,
  LatinRuntime.latin, CaseRuntime, CaseRuntime.ascii
-/
import GhostPour.Library.PyText

namespace GhostPour

/-! ### Number literals of JSON -/

/-- Drop one optional character. -/
def dropOpt (p : Nat → Bool) : PyStr → PyStr
  | c :: s => if p c then s else c :: s
  | [] => []

/-- The rest after the integer part: `0`, or a digit from 1 and any digits. -/
def intPart : PyStr → Option PyStr
  | [] => none
  | c :: s =>
      if c = 48 then some s
      else if isAsciiDigit c then some (s.dropWhile isAsciiDigit)
      else none

/-- The rest after at least one digit. -/
def digits1 : PyStr → Option PyStr
  | c :: s => if isAsciiDigit c then some (s.dropWhile isAsciiDigit) else none
  | [] => none

/-- Read `([eE][-+]?[0-9]+)?` to the end, after a fraction or none. -/
def exponentPart (point : Bool) : PyStr → Option Bool
  | [] => some point
  | c :: s =>
      if (c = 101 ∨ c = 69) ∧ digits1 (dropOpt (fun d => d == 45 || d == 43) s) = some [] then
        some true
      else none

/-- Read `(\.[0-9]+)?([eE][-+]?[0-9]+)?` to the end: whether either part was there. -/
def fractionAndExponent : PyStr → Option Bool
  | [] => some false
  | c :: s => if c = 46 then (digits1 s).bind (exponentPart true) else exponentPart false (c :: s)

/-- Whether a whole token is a JSON number, and if it is, whether it is read as a float. -/
def numberToken (token : PyStr) : Option Bool :=
  (intPart (dropOpt (· == 45) token)).bind fractionAndExponent

/-- The integer an integer literal stands for. -/
def intOfToken : PyStr → Int
  | c :: s => if c = 45 then -(natOfDigits s : Int) else natOfDigits (c :: s)
  | [] => 0

/-! ### The tables -/

/-- `str.lower` on one ASCII character. -/
def asciiLower (c : Nat) : Nat := if 65 ≤ c && c ≤ 90 then c + 32 else c

/-- What the Python runtime looks up. -/
class PyRuntime where
  /-- `str.lower`. -/
  lower : PyStr → PyStr
  /-- `str.upper`. -/
  upper : PyStr → PyStr
  /-- `str.isalpha` on one character. -/
  isAlpha : Nat → Bool
  /-- `str.isalnum` on one character. -/
  isAlnum : Nat → Bool
  /-- `str.islower` on one character. -/
  isLower : Nat → Bool
  /-- `str.isdigit` on one character. -/
  isDigit : Nat → Bool
  /-- The value of a decimal digit (category Nd): what `\d` matches and `int` reads. -/
  decimal : Nat → Option Nat
  /-- `unicodedata.normalize("NFD", _)`. -/
  nfd : PyStr → PyStr
  /-- `unicodedata.normalize("NFKD", _)`. -/
  nfkd : PyStr → PyStr
  /-- `unicodedata.normalize("NFKC", _)`. -/
  nfkc : PyStr → PyStr
  /-- `unicodedata.combining(_) != 0`. -/
  combining : Nat → Bool
  /-- `unicodedata.category(_) == "Mn"`. -/
  nonspacing : Nat → Bool
  /-- `repr` of a string. -/
  quote : PyStr → PyStr
  /-- The text `json.dumps` gives the float a literal stands for. -/
  floatText : PyStr → PyStr
  /-- Whether the float of a text is zero. -/
  floatIsZero : PyStr → Bool
  /-- Whether the float of a text equals an integer. -/
  floatEqInt : PyStr → Int → Bool
  /-- `str(e)` of the error `json.loads` raises on a text. -/
  jsonError : PyStr → PyStr
  /-- The letters below 128 in lower case. -/
  lower_ascii : ∀ s, (∀ c ∈ s, c < 128) → lower s = s.map asciiLower
  /-- White space and the digits have no case, and no letter's case depends on what is past one. -/
  lower_break : ∀ s c t, isSpace c = true ∨ isAsciiDigit c = true →
    lower (s ++ c :: t) = lower s ++ c :: lower t
  /-- A character below 128 has no decomposition, and no mark is moved past it. -/
  nfd_ascii : ∀ s c t, c < 128 → nfd (s ++ c :: t) = nfd s ++ c :: nfd t
  nfd_nil : nfd [] = []
  /-- Nor is it a mark. -/
  nonspacing_ascii : ∀ c < 128, nonspacing c = false
  /-- The alphanumeric characters below 128. -/
  isAlnum_ascii : ∀ c < 128, isAlnum c = (isAsciiAlpha c || isAsciiDigit c)
  /-- White space is not alphanumeric. -/
  isAlnum_space : ∀ c, isSpace c = true → isAlnum c = false
  /-- Nor are the closing quotation marks and the ellipsis. -/
  isAlnum_mark : ∀ c ∈ [0xBB, 0x2019, 0x201D, 0x2026], isAlnum c = false
  /-- The decimal digits below 128. -/
  decimal_ascii : ∀ c < 128, decimal c = if isAsciiDigit c then some (c - 48) else none
  /-- A decimal digit has no case and no decomposition, and nothing past one matters to either, -/
  decimal_lower : ∀ s c t, (decimal c).isSome = true → lower (s ++ c :: t) = lower s ++ c :: lower t
  decimal_nfd : ∀ s c t, (decimal c).isSome = true → nfd (s ++ c :: t) = nfd s ++ c :: nfd t
  /-- and it is alphanumeric and no mark. -/
  isAlnum_decimal : ∀ c, (decimal c).isSome = true → isAlnum c = true
  nonspacing_decimal : ∀ c, (decimal c).isSome = true → nonspacing c = false
  /-- A decimal digit is worth less than ten. -/
  decimal_lt : ∀ c d, decimal c = some d → d < 10
  /-- A decimal digit is a digit, white space is none, -/
  isDigit_decimal : ∀ c, (decimal c).isSome = true → isDigit c = true
  isDigit_space : ∀ c, isSpace c = true → isDigit c = false
  /-- and the digits below 128 are the decimal ones. -/
  isDigit_ascii : ∀ c < 128, isDigit c = isAsciiDigit c
  /-- A float prints as infinity or as a float literal that prints as itself. -/
  floatText_spec : ∀ t, numberToken t = some true →
    floatText t = py "Infinity" ∨ floatText t = py "-Infinity" ∨
      (numberToken (floatText t) = some true ∧ floatText (floatText t) = floatText t)
  /-- A digit, a point and a digit is the shortest text of its float. -/
  floatText_short : ∀ a b, isAsciiDigit a → isAsciiDigit b →
    floatText [a, 46, b] = [a, 46, b]
  /-- Only a finite float equals an integer, -/
  floatEqInt_token : ∀ t n, floatEqInt t n = true → numberToken t = some true
  /-- and it equals one. -/
  floatEqInt_unique : ∀ t m n, floatEqInt t m = true → floatEqInt t n = true → m = n
  /-- The zeros equal the integer zero. -/
  floatEqInt_zero : ∀ t, floatIsZero t = true → floatEqInt t 0 = true
  /-- Floats that equal one integer print alike, but for the two zeros. -/
  floatText_eqInt : ∀ s t n, floatEqInt s n = true → floatEqInt t n = true →
    floatText s = floatText t ∨ floatIsZero s = true ∧ floatIsZero t = true

export PyRuntime (lower upper isAlpha isAlnum isLower isDigit decimal nfd nfkd nfkc combining
  nonspacing)

section
variable [PyRuntime]

/-- `\w`. -/
def isWord (c : Nat) : Bool := isAlnum c || c == 95

/-- `\d`. -/
def isDecimal (c : Nat) : Bool := (decimal c).isSome

/-- Only decimal digits: `re.sub(r"\D", "", s)`. -/
def onlyDigits (s : PyStr) : PyStr := s.filter isDecimal

end

/-! ### The ASCII tables -/

/-- `str.upper` on one ASCII character. -/
def asciiUpper (c : Nat) : Nat := if 97 ≤ c && c ≤ 122 then c - 32 else c

/-- A float literal without a digit from 1 to 9. -/
def asciiFloatIsZero (t : PyStr) : Bool :=
  numberToken t == some true && t.all fun c => !(49 ≤ c && c ≤ 57)

/-- A float literal that is an integer, a point and a zero, or one that is zero. -/
def asciiFloatEqInt (t : PyStr) (n : Int) : Bool :=
  numberToken t == some true &&
    if asciiFloatIsZero t then n == 0
    else n == intOfToken (t.take (t.length - 2)) &&
      t == strOfInt (intOfToken (t.take (t.length - 2))) ++ py ".0"

/-- The runtime on texts of ASCII characters and uncased punctuation. -/
@[reducible] def PyRuntime.ascii : PyRuntime where
  lower := List.map asciiLower
  upper := List.map asciiUpper
  isAlpha := isAsciiAlpha
  isAlnum c := isAsciiAlpha c || isAsciiDigit c
  isLower c := 97 ≤ c && c ≤ 122
  isDigit := isAsciiDigit
  decimal c := if isAsciiDigit c then some (c - 48) else none
  nfd := id
  nfkd := id
  nfkc := id
  combining _ := false
  nonspacing _ := false
  quote s := py "'" ++ s ++ py "'"
  floatText := id
  floatIsZero := asciiFloatIsZero
  floatEqInt := asciiFloatEqInt
  jsonError _ := py "Expecting value"
  lower_ascii _ _ := rfl
  lower_break s c t plain := by
    have same : asciiLower c = c := by
      simp only [isSpace, isAsciiDigit, Bool.or_eq_true, Bool.and_eq_true, decide_eq_true_eq,
        beq_iff_eq] at plain
      unfold asciiLower
      split
      · next upper =>
        rw [Bool.and_eq_true, decide_eq_true_eq, decide_eq_true_eq] at upper
        omega
      · rfl
    rw [List.map_append, List.map_cons, same]
  nfd_ascii _ _ _ _ := rfl
  nfd_nil := rfl
  nonspacing_ascii _ _ := rfl
  isAlnum_ascii _ _ := rfl
  isAlnum_space c space := by
    simp only [isSpace, isAsciiAlpha, isAsciiDigit, Bool.or_eq_true, Bool.and_eq_true,
      decide_eq_true_eq, beq_iff_eq, Bool.or_eq_false_iff, Bool.and_eq_false_iff,
      decide_eq_false_iff_not] at space ⊢
    omega
  isAlnum_mark c mark := by
    simp only [List.mem_cons, List.not_mem_nil, or_false] at mark
    rcases mark with rfl | rfl | rfl | rfl <;> rfl
  decimal_ascii _ _ := rfl
  decimal_lower s c t decimal := by
    have same : asciiLower c = c := by
      unfold asciiLower
      split at decimal
      · next digit =>
        simp only [isAsciiDigit, Bool.and_eq_true, decide_eq_true_eq] at digit
        rw [if_neg (by simp only [Bool.and_eq_true, decide_eq_true_eq]; omega)]
      · cases decimal
    rw [List.map_append, List.map_cons, same]
  decimal_nfd _ _ _ _ := rfl
  isAlnum_decimal c decimal := by
    split at decimal
    · next digit => rw [digit, Bool.or_true]
    · cases decimal
  nonspacing_decimal _ _ := rfl
  decimal_lt c d value := by
    split at value
    · next digit =>
      cases value
      simp only [isAsciiDigit, Bool.and_eq_true, decide_eq_true_eq] at digit
      omega
    · cases value
  isDigit_decimal c decimal := by
    split at decimal
    · assumption
    · cases decimal
  isDigit_space c space := by
    simp only [isSpace, isAsciiDigit, Bool.or_eq_true, Bool.and_eq_true, decide_eq_true_eq,
      beq_iff_eq, Bool.and_eq_false_iff, decide_eq_false_iff_not] at space ⊢
    omega
  isDigit_ascii _ _ := rfl
  floatText_spec _ h := .inr (.inr ⟨h, rfl⟩)
  floatText_short _ _ _ _ := rfl
  floatEqInt_token t n equal := by
    rw [asciiFloatEqInt, Bool.and_eq_true, beq_iff_eq] at equal
    exact equal.1
  floatEqInt_unique t m n first second := by
    rw [asciiFloatEqInt, Bool.and_eq_true] at first second
    replace first := first.2
    replace second := second.2
    split at first
    · next zero =>
      rw [if_pos zero, beq_iff_eq] at second
      rw [beq_iff_eq] at first
      rw [first, second]
    · next nonzero =>
      rw [if_neg nonzero, Bool.and_eq_true, beq_iff_eq] at second
      rw [Bool.and_eq_true, beq_iff_eq] at first
      rw [first.1, second.1]
  floatEqInt_zero t zero := by
    have token := zero
    rw [asciiFloatIsZero, Bool.and_eq_true] at token
    rw [asciiFloatEqInt, token.1, if_pos zero]
    rfl
  floatText_eqInt s t n first second := by
    have zeroText : ∀ t, asciiFloatEqInt t 0 = true → asciiFloatIsZero t = true := by
      intro t equal
      by_contra nonzero
      rw [asciiFloatEqInt, if_neg nonzero, Bool.and_eq_true, Bool.and_eq_true, beq_iff_eq,
        beq_iff_eq, beq_iff_eq] at equal
      rw [← equal.2.1] at equal
      rw [equal.2.2] at nonzero
      exact nonzero (by decide)
    by_cases zero : asciiFloatIsZero s = true
    · have none_ : n = 0 := by
        rw [asciiFloatEqInt, if_pos zero, Bool.and_eq_true, beq_iff_eq, beq_iff_eq] at first
        exact first.2
      rw [none_] at second
      exact .inr ⟨zero, zeroText t second⟩
    · by_cases zero' : asciiFloatIsZero t = true
      · have none_ : n = 0 := by
          rw [asciiFloatEqInt, if_pos zero', Bool.and_eq_true, beq_iff_eq, beq_iff_eq] at second
          exact second.2
        rw [none_] at first
        exact absurd (zeroText s first) zero
      · rw [asciiFloatEqInt, if_neg zero, Bool.and_eq_true, Bool.and_eq_true, beq_iff_eq, beq_iff_eq,
          beq_iff_eq] at first
        rw [asciiFloatEqInt, if_neg zero', Bool.and_eq_true, Bool.and_eq_true, beq_iff_eq,
          beq_iff_eq, beq_iff_eq] at second
        left
        change s = t
        rw [first.2.2, second.2.2, ← first.2.1, ← second.2.1]

/-! ### Letters of Latin-1 -/

/-- `str.lower` on one character below 256. -/
def latinLower (c : Nat) : Nat :=
  if (65 ≤ c && c ≤ 90) || (0xC0 ≤ c && c ≤ 0xDE && c != 0xD7) then c + 32 else c

/-- The decompositions of the vowels with an acute accent, of `ü` and of `ñ`. -/
def accents : List (Nat × PyStr) :=
  [(0xE1, [97, 0x301]), (0xE9, [101, 0x301]), (0xED, [105, 0x301]), (0xF3, [111, 0x301]),
    (0xFA, [117, 0x301]), (0xFC, [117, 0x308]), (0xF1, [110, 0x303])]

/-- The decomposition of one of these, and of a character that has none. -/
def latinNfd (c : Nat) : PyStr := (accents.lookup c).getD [c]

/-- What the Python runtime looks up for letters with accents. -/
class LatinRuntime extends PyRuntime where
  /-- The characters below 256 change their case one by one. -/
  lower_latin : ∀ s, (∀ c ∈ s, c < 256) → lower s = s.map latinLower
  /-- Letters with an accent are decomposed one by one, -/
  nfd_latin : ∀ s, (∀ c ∈ s, c < 128 ∨ c ∈ accents.map Prod.fst) → nfd s = s.flatMap latinNfd
  /-- and the accents are marks. -/
  nonspacing_accent : ∀ c ∈ [0x301, 0x303, 0x308], nonspacing c = true
  /-- The letters of Latin-1, and those that lower or fold to an ASCII letter. -/
  isAlpha_latin : ∀ c, 0xC0 ≤ c → c ≤ 0xFF → c ≠ 0xD7 → c ≠ 0xF7 → isAlpha c = true
  isAlpha_fold : ∀ c ∈ [0x130, 0x131, 0x17F, 0x212A], isAlpha c = true
  isAlpha_ascii : ∀ c < 128, isAlpha c = isAsciiAlpha c
  /-- A letter is alphanumeric, and no digit. -/
  isAlnum_alpha : ∀ c, isAlpha c = true → isAlnum c = true
  isDigit_alpha : ∀ c, isAlpha c = true → isDigit c = false

/-- The letters of ASCII and Latin-1, and those that lower or fold to an ASCII letter. -/
def latinAlpha (c : Nat) : Bool :=
  isAsciiAlpha c || (0xC0 ≤ c && c ≤ 0xFF && c != 0xD7 && c != 0xF7) ||
    [0x130, 0x131, 0x17F, 0x212A].contains c

/-- A character past Latin-1 or between its letters is in lower case. -/
theorem latinLower_plain {c : Nat} (plain : isSpace c = true ∨ isAsciiDigit c = true) :
    latinLower c = c := by
  simp only [isSpace, isAsciiDigit, Bool.or_eq_true, Bool.and_eq_true, decide_eq_true_eq,
    beq_iff_eq] at plain
  unfold latinLower
  rw [if_neg]
  simp only [Bool.or_eq_true, Bool.and_eq_true, decide_eq_true_eq, bne_iff_ne]
  omega

theorem latinNfd_ascii {c : Nat} (small : c < 128) : latinNfd c = [c] := by
  have absent : accents.lookup c = none := by
    rw [List.lookup_eq_none_iff]
    intro row member
    have past : ∀ row ∈ accents, 128 ≤ row.1 := by decide
    have := past row member
    rw [bne_iff_ne]
    omega
  rw [latinNfd, absent]
  rfl

theorem latinAlpha_ascii {c : Nat} (small : c < 128) : latinAlpha c = isAsciiAlpha c := by
  rw [Bool.eq_iff_iff]
  simp only [latinAlpha, isAsciiAlpha, Bool.or_eq_true, Bool.and_eq_true, decide_eq_true_eq,
    bne_iff_ne, List.contains_iff_mem, List.mem_cons, List.not_mem_nil, or_false]
  omega

theorem asciiDigit_of_decimal {c : Nat}
    (decimal : (if isAsciiDigit c then some (c - 48) else none).isSome = true) :
    isAsciiDigit c = true := by
  split at decimal
  · assumption
  · cases decimal

theorem latinAlpha_digit {c : Nat} (letter : latinAlpha c = true) : isAsciiDigit c = false := by
  simp only [latinAlpha, isAsciiAlpha, isAsciiDigit, Bool.or_eq_true, Bool.and_eq_true,
    decide_eq_true_eq, bne_iff_ne, List.contains_iff_mem, List.mem_cons, List.not_mem_nil, or_false,
    Bool.and_eq_false_iff, decide_eq_false_iff_not] at letter ⊢
  omega

/-- The runtime on texts of ASCII, the letters of Latin-1 and combining marks. -/
@[reducible] def LatinRuntime.latin : LatinRuntime where
  toPyRuntime :=
    { PyRuntime.ascii with
      lower := List.map latinLower
      nfd := List.flatMap latinNfd
      isAlpha := latinAlpha
      isAlnum := fun c => latinAlpha c || isAsciiDigit c
      nonspacing := fun c => 0x300 ≤ c && c ≤ 0x36F
      lower_ascii := by
        intro s small
        apply List.map_congr_left
        intro c member
        have := small c member
        unfold latinLower asciiLower
        have far : (0xC0 ≤ c && c ≤ 0xDE && c != 0xD7) = false := by
          simp only [Bool.and_eq_false_iff, decide_eq_false_iff_not]
          omega
        rw [far, Bool.or_false]
      lower_break := by
        intro s c t plain
        rw [List.map_append, List.map_cons, latinLower_plain plain]
      nfd_ascii := by
        intro s c t small
        rw [List.flatMap_append, List.flatMap_cons, latinNfd_ascii small]
        rfl
      nfd_nil := rfl
      nonspacing_ascii := by
        intro c small
        simp only [Bool.and_eq_false_iff, decide_eq_false_iff_not]
        omega
      isAlnum_ascii := by
        intro c small
        rw [latinAlpha_ascii small]
      isAlnum_space := by
        intro c space
        simp only [isSpace, latinAlpha, isAsciiAlpha, isAsciiDigit, Bool.or_eq_true, Bool.and_eq_true,
          decide_eq_true_eq, beq_iff_eq, Bool.or_eq_false_iff, Bool.and_eq_false_iff,
          decide_eq_false_iff_not, bne_eq_false_iff_eq, List.contains_eq_mem, List.mem_cons,
          List.not_mem_nil, or_false] at space ⊢
        omega
      isAlnum_mark := by
        intro c mark
        simp only [List.mem_cons, List.not_mem_nil, or_false] at mark
        rcases mark with rfl | rfl | rfl | rfl <;> rfl
      decimal_lower := by
        intro s c t decimal
        have digit : isAsciiDigit c = true := asciiDigit_of_decimal decimal
        rw [List.map_append, List.map_cons, latinLower_plain (Or.inr digit)]
      decimal_nfd := by
        intro s c t decimal
        have digit : isAsciiDigit c = true := asciiDigit_of_decimal decimal
        simp only [isAsciiDigit, Bool.and_eq_true, decide_eq_true_eq] at digit
        rw [List.flatMap_append, List.flatMap_cons, latinNfd_ascii (by omega)]
        rfl
      isAlnum_decimal := by
        intro c decimal
        rw [asciiDigit_of_decimal decimal, Bool.or_true]
      nonspacing_decimal := by
        intro c decimal
        have digit : isAsciiDigit c = true := asciiDigit_of_decimal decimal
        simp only [isAsciiDigit, Bool.and_eq_true, decide_eq_true_eq] at digit
        simp only [Bool.and_eq_false_iff, decide_eq_false_iff_not]
        omega }
  lower_latin _ _ := rfl
  nfd_latin _ _ := rfl
  nonspacing_accent := by decide
  isAlpha_latin c low high cross slash := by
    change latinAlpha c = true
    simp only [latinAlpha, Bool.or_eq_true, Bool.and_eq_true, decide_eq_true_eq, bne_iff_ne]
    exact Or.inl (Or.inr ⟨⟨⟨low, high⟩, cross⟩, slash⟩)
  isAlpha_fold := by decide
  isAlpha_ascii _ small := latinAlpha_ascii small
  isAlnum_alpha c letter := by
    change (latinAlpha c || isAsciiDigit c) = true
    rw [show latinAlpha c = true from letter, Bool.true_or]
  isDigit_alpha _ letter := latinAlpha_digit letter

/-! ### The first character in another case -/

/-- What the Python runtime looks up for `str.capitalize`, and that a text in another case starts with an
equals sign only if it did: the sign has no case, and no character becomes one. -/
class CaseRuntime extends PyRuntime where
  /-- `str.capitalize`. -/
  capitalize : PyStr → PyStr
  lower_equals : ∀ s, (lower s).head? = some 61 ↔ s.head? = some 61
  upper_equals : ∀ s, (upper s).head? = some 61 ↔ s.head? = some 61
  capitalize_equals : ∀ s, (capitalize s).head? = some 61 ↔ s.head? = some 61

export CaseRuntime (capitalize)

theorem asciiLower_equals (c : Nat) : asciiLower c = 61 ↔ c = 61 := by
  unfold asciiLower
  split
  · next letter =>
    rw [Bool.and_eq_true, decide_eq_true_eq, decide_eq_true_eq] at letter
    omega
  · rfl

theorem asciiUpper_equals (c : Nat) : asciiUpper c = 61 ↔ c = 61 := by
  unfold asciiUpper
  split
  · next letter =>
    rw [Bool.and_eq_true, decide_eq_true_eq, decide_eq_true_eq] at letter
    omega
  · rfl

/-- The cases of the ASCII letters. -/
@[reducible] def CaseRuntime.ascii : CaseRuntime where
  toPyRuntime := PyRuntime.ascii
  capitalize
    | [] => []
    | c :: s => asciiUpper c :: s.map asciiLower
  lower_equals s := by
    change (s.map asciiLower).head? = some 61 ↔ _
    simp [List.head?_map, asciiLower_equals]
  upper_equals s := by
    change (s.map asciiUpper).head? = some 61 ↔ _
    simp [List.head?_map, asciiUpper_equals]
  capitalize_equals s := by
    cases s with
    | nil => rfl
    | cons c s => simp [asciiUpper_equals]

end GhostPour
