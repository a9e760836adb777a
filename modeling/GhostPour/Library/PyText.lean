/-
Module: GhostPour.Library.PyText
Layer: Library
Purpose: Python `str` values as lists of code points, with the string methods the service uses.
  A Python string may hold a lone surrogate, which a Lean `Char` cannot, so a character is its code
  point. The parts of the Python runtime that are tables (the Unicode database, the text of a float)
  are the fields of `PyRuntime`; everything else is defined here.
Trusted boundary: human-reviewed spec
Main exports: PyStr, py, isSpace, strip, words, splitlines, isIn, strOfInt
-/
import Mathlib

namespace GhostPour

/-- A Python string: its code points in order. -/
abbrev PyStr := List Nat

instance : LawfulBEq PyStr := inferInstance

instance : LawfulBEq (PyStr × PyStr) := inferInstance

/-- The Python string of a literal. -/
def py (text : String) : PyStr := text.toList.map Char.toNat

/-- The code point of a character literal. -/
abbrev ord (c : Char) : Nat := c.toNat

/-! ### Named characters

The characters that programs read one at a time have names, so that proofs see their numerals. -/

/-- `"`. -/
@[simp] abbrev dquote : Nat := 34

/-- `\`. -/
@[simp] abbrev backslash : Nat := 92

/-- `,`. -/
@[simp] abbrev comma : Nat := 44

/-- `:`. -/
@[simp] abbrev colon : Nat := 58

/-- `[`. -/
@[simp] abbrev lbracket : Nat := 91

/-- `]`. -/
@[simp] abbrev rbracket : Nat := 93

/-- `{`. -/
@[simp] abbrev lbrace : Nat := 123

/-- `}`. -/
@[simp] abbrev rbrace : Nat := 125

/-- `u`, the letter of a Unicode escape. -/
@[simp] abbrev letterU : Nat := 117

/-! ### White space -/

/-- `str.isspace` on one character, which is also what `\s` matches. -/
def isSpace (c : Nat) : Bool :=
  (9 ≤ c && c ≤ 13) || (28 ≤ c && c ≤ 32) || c == 0x85 || c == 0xA0 || c == 0x1680 ||
    (0x2000 ≤ c && c ≤ 0x200A) || c == 0x2028 || c == 0x2029 || c == 0x202F || c == 0x205F ||
    c == 0x3000

/-- The characters `str.splitlines` breaks a line at. -/
def isLineBreak (c : Nat) : Bool :=
  (10 ≤ c && c ≤ 13) || (28 ≤ c && c ≤ 30) || c == 0x85 || c == 0x2028 || c == 0x2029

/-- `s.strip(chars)`, with the characters as a predicate. -/
def stripBy (p : Nat → Bool) (s : PyStr) : PyStr := (s.dropWhile p).rdropWhile p

/-- `s.strip()`. -/
def strip (s : PyStr) : PyStr := stripBy isSpace s

/-- `s.rstrip()`. -/
def rstrip (s : PyStr) : PyStr := s.rdropWhile isSpace

/-- `s.rstrip(chars)`. -/
def rstripChars (chars s : PyStr) : PyStr := s.rdropWhile (chars.contains ·)

/-- `s.lstrip(chars)`. -/
def lstripChars (chars s : PyStr) : PyStr := s.dropWhile (chars.contains ·)

/-- `s.split()`: the maximal runs of characters that are not white space. -/
def words (s : PyStr) : List PyStr := (s.splitOnP isSpace).filter (· ≠ [])

/-- `s.split(sep)` for a one character separator. -/
def splitAt (sep : Char) (s : PyStr) : List PyStr := s.splitOn (ord sep)

/-- `s.splitlines()`, with the current line kept reversed. -/
def splitlinesFrom : PyStr → PyStr → List PyStr
  | [], [] => []
  | line, [] => [line.reverse]
  | line, c :: rest =>
      if isLineBreak c then
        match rest with
        | d :: rest' =>
            -- "\r\n" is one break
            if c = ord '\r' ∧ d = ord '\n' then line.reverse :: splitlinesFrom [] rest'
            else line.reverse :: splitlinesFrom [] (d :: rest')
        | [] => [line.reverse]
      else splitlinesFrom (c :: line) rest

/-- `s.splitlines()`. -/
def splitlines (s : PyStr) : List PyStr := splitlinesFrom [] s

/-- `sep.join(parts)`. -/
def join (sep : PyStr) (parts : List PyStr) : PyStr := sep.intercalate parts

/-- `" ".join(s.split())`. -/
def squeeze (s : PyStr) : PyStr := join (py " ") (words s)

/-! ### Substrings -/

/-- `s.startswith(pre)`. -/
def startsWith (pre s : PyStr) : Bool := pre.isPrefixOf s

/-- `s.endswith(suf)`. -/
def endsWith (suf s : PyStr) : Bool := suf.isSuffixOf s

/-- `s.find(needle)`, with `none` for -1. -/
def find? (needle : PyStr) : PyStr → Option Nat
  | [] => if needle = [] then some 0 else none
  | c :: s =>
      if needle.isPrefixOf (c :: s) then some 0 else (find? needle s).map (· + 1)

/-- `needle in s`. -/
def isIn (needle s : PyStr) : Bool := (find? needle s).isSome

/-- `s.partition(sep)` for a one character separator: before, found, after. -/
def partition (sep : Char) (s : PyStr) : PyStr × Bool × PyStr :=
  let before := s.takeWhile (· ≠ ord sep)
  match s.drop before.length with
  | [] => (before, false, [])
  | _ :: after => (before, true, after)

/-- `s.replace(old, new)` for a one character `old`. -/
def replaceChar (old : Nat) (new s : PyStr) : PyStr :=
  s.flatMap fun c => if c = old then new else [c]

/-- `sorted` on a list of strings: code point order, stable. -/
def sortStrs (parts : List PyStr) : List PyStr := parts.insertionSort (· ≤ ·)

/-! ### Numerals -/

/-- The decimal digits of a natural number, by `fuel` divisions. -/
def digitsOfNat : Nat → Nat → PyStr
  | 0, n => [48 + n % 10]
  | fuel + 1, n => if n < 10 then [48 + n] else digitsOfNat fuel (n / 10) ++ [48 + n % 10]

/-- `str(n)` of a natural number. -/
def strOfNat (n : Nat) : PyStr := digitsOfNat n n

/-- `str(n)` of an integer. -/
def strOfInt : Int → PyStr
  | .ofNat n => strOfNat n
  | .negSucc n => 45 :: strOfNat (n + 1)

/-- An ASCII digit. -/
def isAsciiDigit (c : Nat) : Bool := 48 ≤ c && c ≤ 57

/-- An ASCII letter. -/
def isAsciiAlpha (c : Nat) : Bool := (65 ≤ c && c ≤ 90) || (97 ≤ c && c ≤ 122)

/-- The value of a run of ASCII digits. -/
def natOfDigits (digits : PyStr) : Nat := digits.foldl (fun n c => 10 * n + (c - 48)) 0

end GhostPour
