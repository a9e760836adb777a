/-
Module: GhostPour.Memory.Proofs.MeetingHeaders
Layer: Proofs
Purpose: The headings of a prompt are the starts of its blocks, and its meeting headers are those of the
  blocks: whether a block starts with a header, and with which date, does not depend on what is around it.
Trusted boundary: none
Main exports: inHeader, headerDate, headerDate_stop, parts, h2Starts_eq, heads, heads_eq
-/
import GhostPour.Library.LineBlocks
import GhostPour.Library.RegexRewrite
import GhostPour.Memory.RecallWindow

namespace GhostPour

namespace Memory.RecallWindow

open Regex

/-! ### The two patterns -/

/-- `## `. -/
abbrev mark : PyStr := py "## "

theorem mark_oneLine : 10 ∉ mark := by decide

theorem lit_sets {q : Nat → Bool} (cs : List Char) (all : (cs.all fun ch => q ch.toNat) = true) :
    (lit cs).SetsIn q := by
  induction cs with
  | nil => trivial
  | cons ch cs ih =>
      rw [List.all_cons, Bool.and_eq_true] at all
      have one : (Regex.set (· == ch.toNat)).SetsIn q := by
        intro x same
        rw [beq_iff_eq.mp same]
        exact all.1
      cases cs with
      | nil => exact one
      | cons ch' cs => exact ⟨one, ih all.2⟩

theorem run_lineStart {prev : Option Nat} (start : atLineStart prev = true) (s : PyStr) :
    run lineStart ⟨prev, s, []⟩ = [⟨prev, s, []⟩] := by
  rw [lineStart, run]
  exact if_pos start

theorem run_inside {r : Regex} {prev : Option Nat} (inside : atLineStart prev = false) (s : PyStr) :
    run (.seq lineStart r) ⟨prev, s, []⟩ = [] := by
  have none_ : run lineStart ⟨prev, s, []⟩ = [] := by
    rw [lineStart, run]
    exact if_neg (Bool.eq_false_iff.mp inside)
  rw [run, none_]
  rfl

theorem h2_onLine : OnLine h2 where
  starts _ s inside := run_inside inside s
  stays := ⟨trivial, lit_sets _ rfl⟩

/-- A heading is a line start and its mark. -/
theorem step_h2 (prev : Option Nat) (s : PyStr) : (step h2 prev s).isSome = atMark mark prev s := by
  have spells : Spells (lit "## ".toList) (· = mark) := spells_lit _
  apply Bool.eq_iff_iff.mpr
  rw [Option.isSome_iff_exists]
  constructor
  · rintro ⟨d, step_⟩
    have reached := List.mem_of_head? (Option.eq_some_of_filter_eq_some step_)
    rw [h2, mem_run_seqs] at reached
    obtain ⟨e, first, reached⟩ := reached
    obtain ⟨start, rfl⟩ := mem_run_test.mp first
    obtain ⟨_, rfl, split, _⟩ := (spells _ d).mp reached
    rw [atMark, Bool.and_eq_true]
    exact ⟨start, List.isPrefixOf_iff_prefix.mpr ⟨d.after, split.symm⟩⟩
  · intro marked
    rw [atMark, Bool.and_eq_true] at marked
    obtain ⟨start, rest, rfl⟩ := And.intro marked.1 (List.isPrefixOf_iff_prefix.mp marked.2)
    have here : run h2 ⟨prev, mark ++ rest, []⟩ = run (lit "## ".toList) ⟨prev, mark ++ rest, []⟩ := by
      change run (.seq lineStart (lit "## ".toList)) _ = _
      rw [run, run_lineStart start, List.flatMap_cons, List.flatMap_nil, List.append_nil]
    have some_ := spells.step_ne_none (fun t same => by rw [same]; decide) rfl prev rest
    rw [step, ← here] at some_
    exact Option.ne_none_iff_exists'.mp some_

section
variable [PyRuntime]

/-- The pattern of a header up to the boundary behind its date. -/
def headerBody : Regex :=
  seqs [lineStart, lit "## Meeting ".toList, .group 1 (plus digit), lit " of ".toList,
    .group 2 (plus digit), lit " ".toList, oneOf "—-–", lit " ".toList, .group 3 datePattern]

theorem run_meetingH2 (c : Cursor) : run meetingH2 c = (run headerBody c).flatMap (run bound) := by
  simp only [meetingH2, headerBody, seqs, run, List.flatMap_assoc]

/-- No character of a header is a newline or starts a preamble. -/
def inHeader (c : Nat) : Bool := c != 10 && c != 89

theorem inHeader_digit (c : Nat) (digit : isDecimal c = true) : inHeader c = true := by
  by_contra other
  rw [inHeader, Bool.and_eq_true, bne_iff_ne, bne_iff_ne, not_and_or, not_not, not_not] at other
  rcases other with rfl | rfl
  · rw [isDecimal, PyRuntime.decimal_ascii 10 (by decide)] at digit
    cases digit
  · rw [isDecimal, PyRuntime.decimal_ascii 89 (by decide)] at digit
    cases digit

omit [PyRuntime] in
theorem times_sets {q : Nat → Bool} {r : Regex} (sets : r.SetsIn q) (n : Nat) : (times n r).SetsIn q := by
  induction n with
  | zero => trivial
  | succ n ih =>
      cases n with
      | zero => exact sets
      | succ n => exact ⟨sets, ih⟩

theorem datePattern_sets {q : Nat → Bool} (digits : Regex.digit.SetsIn q)
    (hyphen : q 45 = true) : datePattern.SetsIn q := by
  have between : (Regex.set (· == 45)).SetsIn q := fun x same => by
    rw [beq_iff_eq.mp same]
    exact hyphen
  exact ⟨times_sets digits 4, between, times_sets digits 2, between, times_sets digits 2⟩

theorem headerBody_sets : headerBody.SetsIn inHeader := by
  have dash : (oneOf "—-–").SetsIn inHeader := by
    intro x member
    have all : ∀ x ∈ py "—-–", inHeader x = true := by decide
    exact all x (List.contains_iff_mem.mp member)
  exact ⟨trivial, lit_sets _ rfl, ⟨inHeader_digit, inHeader_digit⟩, lit_sets _ rfl,
    ⟨inHeader_digit, inHeader_digit⟩, lit_sets _ rfl, dash, lit_sets _ rfl,
    datePattern_sets inHeader_digit (by decide)⟩

theorem meetingH2_onLine : OnLine meetingH2 where
  starts _ s inside := run_inside inside s
  stays := by
    have weaker : ∀ {r : Regex}, r.SetsIn inHeader → r.SetsIn (· != 10) := by
      intro r sets
      induction r with
      | eps => trivial
      | set p => exact fun x holds => (Bool.and_eq_true _ _ ▸ sets x holds).1
      | test p => trivial
      | seq a b ihA ihB => exact ⟨ihA sets.1, ihB sets.2⟩
      | alt a b ihA ihB => exact ⟨ihA sets.1, ihB sets.2⟩
      | many r ih => exact ih sets
      | manyLazy r ih => exact ih sets
      | group n r ih => exact ih sets
    obtain ⟨a, b, c, d, e, f, g, h, i⟩ := weaker headerBody_sets
    exact ⟨a, b, c, d, e, f, g, h, i, trivial⟩

/-! ### Headers -/

/-- The date text a header matched. -/
def dateOf (m : Match) : PyStr := (m.group 3).getD []

/-- The date text of the header a text starts with. -/
def headerDate (s : PyStr) : Option PyStr := (matchStart meetingH2 s).map dateOf

theorem meetingH2_starts {prev : Option Nat} {s : PyStr} {d : Cursor}
    (reached : d ∈ run meetingH2 ⟨prev, s, []⟩) :
    atLineStart prev = true ∧ startsWith mark s = true ∧ d.after.length < s.length := by
  rw [meetingH2, mem_run_seqs] at reached
  obtain ⟨a, first, reached⟩ := reached
  obtain ⟨start, rfl⟩ := mem_run_test.mp first
  rw [mem_run_seqs] at reached
  obtain ⟨b, named, reached⟩ := reached
  obtain ⟨_, rfl, split, _⟩ := (spells_lit "## Meeting ".toList _ b).mp named
  replace split : s = mark ++ (py "Meeting " ++ b.after) := split
  have shorter := (run_reaches _ b d reached).length_le
  refine ⟨start, List.isPrefixOf_iff_prefix.mpr ⟨_, split.symm⟩, ?_⟩
  rw [split, List.length_append, List.length_append]
  have eleven : 0 < mark.length := by decide
  omega

/-- A header reads the same whatever newline is in front of it. -/
theorem step_meetingH2 (i : Nat) (prev : Option Nat) (s : PyStr) :
    (step meetingH2 prev s).map (fun d => (i, dateOf (matchBetween i ⟨prev, s, []⟩ d))) =
      if atMark mark prev s then (headerDate s).map (i, ·) else none := by
  have whole : step meetingH2 none s = (run meetingH2 ⟨none, s, []⟩).head? := by
    rw [step]
    cases first : (run meetingH2 ⟨none, s, []⟩).head? with
    | none => rfl
    | some d =>
        have shorter := (meetingH2_starts (List.mem_of_head? first)).2.2
        rw [Option.filter_some, if_pos (by simpa using shorter)]
  have blind : Blind 10 meetingH2 := by
    have notWord : isWord 10 = false := by
      rw [isWord, PyRuntime.isAlnum_ascii 10 (by decide)]
      rfl
    have digits : Blind 10 (plus digit) := .of_plain 10 rfl
    have date : Blind 10 datePattern := .of_plain 10 rfl
    have text : ∀ cs, Blind 10 (lit cs) := by
      intro cs
      induction cs with
      | nil => exact .eps
      | cons ch cs ih =>
          cases cs with
          | nil => exact .set _
          | cons ch' cs => exact .seq (.set _) ih
    exact .seq (.test fun prev _ => by cases prev <;> rfl) <| .seq (text _) <| .seq (.group 1 digits) <|
      .seq (text _) <| .seq (.group 2 digits) <| .seq (text _) <| .seq (.set _) <| .seq (text _) <|
      .seq (.group 3 date) (.bound notWord)
  have read : ∀ prev, atLineStart prev = true →
      (step meetingH2 prev s).map (fun d => (i, dateOf (matchBetween i ⟨prev, s, []⟩ d))) =
        (headerDate s).map (i, ·) := by
    intro prev start
    cases prev with
    | none =>
        rw [whole, headerDate, matchStart, Option.map_map, Option.map_map]
        rfl
    | some x =>
        obtain rfl : x = 10 := beq_iff_eq.mp start
        rw [step_behind blind, whole, headerDate, matchStart, Option.map_map, Option.map_map,
          Option.map_map]
        rfl
  by_cases start : atLineStart prev = true
  · rw [read prev start, atMark, start, Bool.true_and]
    split
    · rfl
    · next unmarked =>
      have none_ : headerDate s = none := by
        rw [headerDate, matchStart, ← whole, Option.map_map, Option.map_eq_none_iff]
        by_contra some_
        obtain ⟨d, first⟩ := Option.ne_none_iff_exists'.mp some_
        rw [whole] at first
        exact unmarked (meetingH2_starts (List.mem_of_head? first)).2.1
      rw [none_]
      rfl
  · rw [Bool.not_eq_true] at start
    rw [meetingH2_onLine.step_eq_none start, atMark, start]
    rfl

/-- Past a character that no header has, a header does not look. -/
theorem run_meetingH2_stop {c : Nat} (other : inHeader c = false) (prev : Option Nat) (s z : PyStr) :
    run meetingH2 ⟨prev, s ++ c :: z, []⟩ = (run meetingH2 ⟨prev, s ++ [c], []⟩).map (extend z) := by
  have blind : Local z headerBody := by
    have digits : Local z (plus digit) := .of_plain z rfl
    have date : Local z datePattern := .of_plain z rfl
    have text : ∀ cs, Local z (lit cs) := by
      intro cs
      induction cs with
      | nil => exact .eps
      | cons ch cs ih =>
          cases cs with
          | nil => exact .set _
          | cons ch' cs => exact .seq (.set _) ih
    exact .seq (.test fun _ _ => rfl) <| .seq (text _) <| .seq (.group 1 digits) <| .seq (text _) <|
      .seq (.group 2 digits) <| .seq (text _) <| .seq (.set _) <| .seq (text _) (.group 3 date)
  -- the body stops in front of the character
  have before : ∀ t d, d ∈ run headerBody ⟨prev, s ++ c :: t, []⟩ → t.length < d.after.length := by
    intro t d reached
    obtain ⟨passed, split, each⟩ := run_passes headerBody_sets _ d reached
    replace split : s ++ c :: t = passed ++ d.after := split
    rcases List.append_eq_append_iff.mp split with ⟨u, rfl, rest⟩ | ⟨u, _, rest⟩
    · cases u with
      | nil => rw [← List.nil_append d.after, ← rest]; exact Nat.lt_succ_self _
      | cons x u =>
          obtain ⟨rfl, _⟩ := List.cons.inj rest
          have inside := each c (List.mem_append_right s (List.mem_cons_self ..))
          rw [other] at inside
          cases inside
    · rw [rest, List.length_append, List.length_cons]
      omega
  have body : run headerBody ⟨prev, s ++ c :: z, []⟩ =
      (run headerBody ⟨prev, s ++ [c], []⟩).map (extend z) := by
    have moved := run_extend blind ⟨prev, s ++ [c], []⟩
    rw [extend, List.append_assoc, List.singleton_append] at moved
    rw [← moved, List.filter_eq_self.mpr]
    exact fun d reached => decide_eq_true (before z d reached).le
  rw [run_meetingH2, run_meetingH2, body, List.flatMap_map, List.map_flatMap]
  refine List.flatMap_congr fun d reached => ?_
  obtain ⟨x, rest, after⟩ := List.exists_cons_of_ne_nil (List.ne_nil_of_length_pos (before [] d reached))
  obtain ⟨p, _, groups⟩ := d
  replace after : _ = x :: rest := after
  subst after
  change (if (p.any isWord != (some x).any isWord) = true then [extend z ⟨p, x :: rest, groups⟩] else []) =
    (if (p.any isWord != (some x).any isWord) = true then [⟨p, x :: rest, groups⟩] else []).map (extend z)
  rw [apply_ite (List.map (extend z))]
  rfl

theorem headerDate_stop {c : Nat} (other : inHeader c = false) (s z z' : PyStr) :
    headerDate (s ++ c :: z) = headerDate (s ++ c :: z') := by
  have groups : ∀ z, headerDate (s ++ c :: z) = (run meetingH2 ⟨none, s ++ [c], []⟩).head?.map fun d =>
      dateOf ⟨0, [], d.groups⟩ := by
    intro z
    rw [headerDate, matchStart, run_meetingH2_stop other none s z, List.head?_map, Option.map_map,
      Option.map_map]
    rfl
  rw [groups z, groups z']

/-- The header of a block does not depend on what follows the block. -/
theorem headerDate_append {b rest : PyStr} (nonempty : b ≠ []) (ended : EndsLine none b ∨ rest = []) :
    headerDate (b ++ rest) = headerDate b := by
  rcases ended with ended | rfl
  · rw [EndsLine, Option.or_none, atLineStart] at ended
    obtain ⟨front, x, rfl⟩ : ∃ front x, b = front ++ [x] :=
      ⟨b.dropLast, b.getLast nonempty, (List.dropLast_concat_getLast nonempty).symm⟩
    rw [List.getLast?_concat, Option.all_some, beq_iff_eq] at ended
    rw [ended, List.append_assoc]
    exact headerDate_stop (by decide) front rest []
  · rw [List.append_nil]

/-! ### Headers and blocks -/

/-- The text in front of the first heading, and the blocks the headings start. -/
def parts (text : PyStr) : PyStr × List PyStr := cut mark none text

omit [PyRuntime] in
/-- The starts of the blocks. -/
theorem h2Starts_eq (text : PyStr) : (finditer h2 text).map Match.start =
    (placesFrom (parts text).1.length (parts text).2).map Prod.fst := by
  rw [finditer_onLine h2_onLine, matchesAt_cut mark_oneLine (k := fun i _ => some i)]
  · rw [Nat.zero_add, List.filterMap_eq_map']
    rfl
  · intro i prev x rest
    have same := step_h2 prev (x :: rest)
    split
    · next marked =>
      rw [marked, Option.isSome_iff_exists] at same
      obtain ⟨d, first⟩ := same
      rw [first]
      rfl
    · next unmarked =>
      rw [Bool.not_eq_true] at unmarked
      rw [unmarked, Option.isSome_eq_false_iff, Option.isNone_iff_eq_none] at same
      rw [same]
      rfl
  · exact fun _ _ _ _ _ => rfl

/-- The headers, each with the start of its block. -/
def heads (start : Nat) (blocks : List PyStr) : List (Nat × PyStr) :=
  (placesFrom start blocks).filterMap fun place => (headerDate place.2).map (place.1, ·)

theorem heads_eq (text : PyStr) : (finditer meetingH2 text).map (fun m => (m.start, dateOf m)) =
    heads (parts text).1.length (parts text).2 := by
  rw [finditer_onLine meetingH2_onLine,
    matchesAt_cut mark_oneLine (k := fun i s => (headerDate s).map (i, ·)), Nat.zero_add]
  · rfl
  · exact fun i prev x rest => step_meetingH2 i prev (x :: rest)
  · intro i b rest nonempty ended
    rw [headerDate_append nonempty ended]

end

end Memory.RecallWindow

end GhostPour
