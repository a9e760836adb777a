/-
Module: GhostPour.Library.Regex
Layer: Library
Purpose: Backtracking regular expressions as Python's `re` runs them. `run` gives every way a pattern
  can match at a cursor, in the order the backtracking tries them, so the first one is the match.
  The functions of `re` are defined over it for patterns that never match the empty text.
Trusted boundary: human-reviewed spec
Main exports: Regex, Cursor, run, search, matchStart, fullmatch, finditer, sub, split
-/
import GhostPour.Library.PyRuntime

namespace GhostPour

/-- A pattern. `test` is a zero-width assertion on the character before and the text after. -/
inductive Regex where
  | eps
  | set (p : Nat → Bool)
  | test (p : Option Nat → PyStr → Bool)
  | seq (a b : Regex)
  | alt (a b : Regex)
  | many (r : Regex)
  | manyLazy (r : Regex)
  | group (n : Nat) (r : Regex)

/-- A position in a text: the character before it, the text after it, the groups so far. -/
structure Cursor where
  prev : Option Nat
  after : PyStr
  groups : List (Nat × PyStr)

/-- Remember the text between two cursors as a group. -/
def Cursor.capture (n : Nat) (start finish : Cursor) : Cursor :=
  { finish with
    groups := (n, start.after.take (start.after.length - finish.after.length)) :: finish.groups }

/-- As many rounds of a pattern as possible, then fewer; a round must consume something. -/
@[grind =] def manyRun (step : Cursor → List Cursor) : Nat → Cursor → List Cursor
  | 0, c => [c]
  | fuel + 1, c =>
      ((step c).filter (·.after.length < c.after.length)).flatMap (manyRun step fuel) ++ [c]

/-- As few rounds of a pattern as possible, then more. -/
@[grind =] def manyLazyRun (step : Cursor → List Cursor) : Nat → Cursor → List Cursor
  | 0, c => [c]
  | fuel + 1, c =>
      c :: ((step c).filter (·.after.length < c.after.length)).flatMap (manyLazyRun step fuel)

namespace Regex

/-- Every cursor a pattern can reach, in the order backtracking tries them. -/
@[grind =] def run : Regex → Cursor → List Cursor
  | .eps, c => [c]
  | .set p, c =>
      match c.after with
      | x :: rest => if p x then [⟨some x, rest, c.groups⟩] else []
      | [] => []
  | .test p, c => if p c.prev c.after then [c] else []
  | .seq a b, c => (run a c).flatMap (run b)
  | .alt a b, c => run a c ++ run b c
  | .many r, c => manyRun (run r) c.after.length c
  | .manyLazy r, c => manyLazyRun (run r) c.after.length c
  | .group n r, c => (run r c).map (c.capture n)

/-! ### Patterns by their usual names -/

/-- A literal text. -/
def lit : List Char → Regex
  | [] => .eps
  | [c] => .set (· == c.toNat)
  | c :: cs => .seq (.set (· == c.toNat)) (lit cs)

/-- One character, ignoring case: a cased character of the patterns here is an ASCII letter or a
Latin-1 vowel, and Python folds the long s, the Kelvin sign and the dotted and dotless i with the
ASCII letters. -/
def sameLetter (c x : Nat) : Bool :=
  x == c || (97 ≤ c && c ≤ 122 && x + 32 == c) || (0xE0 ≤ c && c ≤ 0xFE && x + 32 == c) ||
    (c == 115 && x == 0x17F) || (c == 107 && x == 0x212A) || (c == 105 && (x == 0x130 || x == 0x131))

/-- A literal text in any case; the text is given in lower case. -/
def litI : List Char → Regex
  | [] => .eps
  | [c] => .set (sameLetter c.toNat)
  | c :: cs => .seq (.set (sameLetter c.toNat)) (litI cs)

/-- Any one of a text's characters. -/
def oneOf (chars : String) : Regex := .set ((py chars).contains ·)

/-- Any one of a text's characters in any case. -/
def oneOfI (chars : String) : Regex := .set fun x => (py chars).any (sameLetter · x)

/-- Any character but a text's. -/
def noneOf (chars : String) : Regex := .set fun x => !(py chars).contains x

/-- `r?`. -/
def opt (r : Regex) : Regex := .alt r .eps

/-- `r+`. -/
def plus (r : Regex) : Regex := .seq r (.many r)

/-- `a|b|c`. -/
def alts : List Regex → Regex
  | [] => .set fun _ => false
  | [r] => r
  | r :: rs => .alt r (alts rs)

/-- `abc`. -/
def seqs : List Regex → Regex
  | [] => .eps
  | [r] => r
  | r :: rs => .seq r (seqs rs)

/-- `r{n}`. -/
def times : Nat → Regex → Regex
  | 0, _ => .eps
  | 1, r => r
  | n + 1, r => .seq r (times n r)

/-- `r{0,n}`. -/
def upTo : Nat → Regex → Regex
  | 0, _ => .eps
  | n + 1, r => opt (.seq r (upTo n r))

/-- `.`. -/
def dot : Regex := .set (· != 10)

/-- `\s`. -/
def space : Regex := .set isSpace

/-- `\S`. -/
def nonSpace : Regex := .set fun x => !isSpace x

/-- `[a-z]`. -/
def lowerAscii : Regex := .set fun x => 97 ≤ x && x ≤ 122

/-- `^`. -/
def start : Regex := .test fun prev _ => prev.isNone

/-- `^` in multi-line mode. -/
def lineStart : Regex := .test fun prev _ => prev.all (· == 10)

/-- `$`: at the end, or before a newline that ends the text. -/
def stop : Regex := .test fun _ after => after == [] || after == [10]

/-- `$` in multi-line mode. -/
def lineStop : Regex := .test fun _ after => after.head?.all (· == 10)

section
variable [PyRuntime]

/-- `\w`. -/
def word : Regex := .set isWord

/-- `\d`. -/
def digit : Regex := .set isDecimal

/-- `\b`. -/
def bound : Regex := .test fun prev after => prev.any isWord != after.head?.any isWord

end

/-! ### The functions of `re` -/

/-- A match: where it starts, its text and its groups, the latest first. -/
structure Match where
  start : Nat
  text : PyStr
  groups : List (Nat × PyStr)

/-- `m.end()`. -/
def Match.stop (m : Match) : Nat := m.start + m.text.length

/-- `m.group(n)`: what the group captured last. -/
def Match.group (m : Match) (n : Nat) : Option PyStr := (m.groups.find? (·.1 = n)).map Prod.snd

/-- The match between two cursors. -/
def matchBetween (start : Nat) (c d : Cursor) : Match :=
  ⟨start, c.after.take (c.after.length - d.after.length), d.groups⟩

/-- `re.match`. -/
def matchStart (r : Regex) (s : PyStr) : Option Match :=
  (run r ⟨none, s, []⟩).head?.map (matchBetween 0 ⟨none, s, []⟩)

/-- `re.fullmatch`. -/
def fullmatch (r : Regex) (s : PyStr) : Option Match :=
  ((run r ⟨none, s, []⟩).find? (·.after = [])).map (matchBetween 0 ⟨none, s, []⟩)

/-- `re.search` from a position on. -/
def searchFrom (r : Regex) : Nat → Option Nat → PyStr → Option Match
  | i, prev, [] => (run r ⟨prev, [], []⟩).head?.map (matchBetween i ⟨prev, [], []⟩)
  | i, prev, x :: rest =>
      match (run r ⟨prev, x :: rest, []⟩).head? with
      | some d => some (matchBetween i ⟨prev, x :: rest, []⟩ d)
      | none => searchFrom r (i + 1) (some x) rest

/-- `re.search`. -/
def search (r : Regex) (s : PyStr) : Option Match := searchFrom r 0 none s

/-- Whether `re.search` finds anything. -/
def found (r : Regex) (s : PyStr) : Bool := (search r s).isSome

/-- The first match at a cursor, if it consumes something. -/
def step (r : Regex) (prev : Option Nat) (s : PyStr) : Option Cursor :=
  (run r ⟨prev, s, []⟩).head?.filter (·.after.length < s.length)

/-- Put a skipped character before the next match, or before the end. -/
def addGap (x : Nat) : List (PyStr × Match) × PyStr → List (PyStr × Match) × PyStr
  | ((gap, m) :: later, tail) => ((x :: gap, m) :: later, tail)
  | ([], tail) => ([], x :: tail)

/-- The successive matches of a pattern, each with the text skipped before it, and the text left;
`inside` counts the characters of the last match that are still to be passed. -/
def piecesFrom (r : Regex) : Nat → Option Nat → Nat → PyStr → List (PyStr × Match) × PyStr
  | _, _, _, [] => ([], [])
  | i, _, inside + 1, x :: rest => piecesFrom r (i + 1) (some x) inside rest
  | i, prev, 0, x :: rest =>
      match step r prev (x :: rest) with
      | some d =>
          let later := piecesFrom r (i + 1) (some x) (rest.length - d.after.length) rest
          (([], matchBetween i ⟨prev, x :: rest, []⟩ d) :: later.1, later.2)
      | none => addGap x (piecesFrom r (i + 1) (some x) 0 rest)

/-- The pieces of a whole text. -/
def pieces (r : Regex) (s : PyStr) : List (PyStr × Match) × PyStr := piecesFrom r 0 none 0 s

/-- `re.finditer`. -/
def finditer (r : Regex) (s : PyStr) : List Match := (pieces r s).1.map Prod.snd

/-- `re.findall` for a pattern without groups. -/
def findall (r : Regex) (s : PyStr) : List PyStr := (finditer r s).map Match.text

/-- `re.sub` with a function of the match. -/
def subWith (r : Regex) (f : Match → PyStr) (s : PyStr) : PyStr :=
  ((pieces r s).1.flatMap fun piece => piece.1 ++ f piece.2) ++ (pieces r s).2

/-- `re.sub` with a text. -/
def sub (r : Regex) (new s : PyStr) : PyStr := subWith r (fun _ => new) s

/-- `re.split` for a pattern without groups. -/
def split (r : Regex) (s : PyStr) : List PyStr :=
  (pieces r s).1.map Prod.fst ++ [(pieces r s).2]

end Regex

end GhostPour
