/-
Module: GhostPour.Memory.Proofs.MeetingWindow
Layer: Proofs
Purpose: The clamp cuts exactly the blocks whose readable date is older than the cutoff, when there is a
  cutoff. The loop over the headers leaves the other blocks, the rest is cut into these again, and the
  restated preamble neither makes a header nor breaks one. With a window that reaches back before year 1
  the subtraction raises instead.
Trusted boundary: none
Main exports: isOld, keptBlocks, clampText_eq, NoOld, NoOld.restate, RemovesOldBlocks,
  clampMeetingBlocks_exact_iff, wide_window_raises
-/
import GhostPour.Library.JsonCanonical
import GhostPour.Library.RegexRewrite
import GhostPour.Memory.Proofs.MeetingHeaders

namespace GhostPour

namespace Memory.RecallWindow

open Regex

/-! ### The loop -/

/-- A visit depends on the start of the header and on its date text. -/
def visitAt (text : PyStr) (h2Starts : List Nat) (cutoff : Nat) (c : Clamp) (head : Nat × PyStr) : Clamp :=
  visit text h2Starts cutoff c ⟨head.1, [], [(3, head.2)]⟩

theorem visitAt_kept {text : PyStr} {h2Starts : List Nat} {cutoff : Nat} {c : Clamp} {start : Nat}
    {date : PyStr} (young : (fromIsoFormat date).any (· < cutoff) = false) :
    ∃ dates, visitAt text h2Starts cutoff c (start, date) = { c with keptDates := dates } := by
  have group : (Match.group ⟨start, [], [(3, date)]⟩ 3).getD [] = date := rfl
  unfold visitAt visit
  rw [group]
  dsimp only
  cases read : fromIsoFormat date with
  | none => exact ⟨_, rfl⟩
  | some day =>
      rw [read, Option.any_some, decide_eq_false_iff_not] at young
      exact ⟨_, if_neg young⟩

theorem visitAt_dropped {text : PyStr} {h2Starts : List Nat} {cutoff : Nat} {c : Clamp} {start : Nat}
    {date : PyStr} (old : (fromIsoFormat date).any (· < cutoff) = true) :
    visitAt text h2Starts cutoff c (start, date) =
      { c with out := c.out ++ [(text.take start).drop c.pos],
               pos := (h2Starts.find? (start < ·)).getD text.length,
               dropped := c.dropped ++ [date] } := by
  have group : (Match.group ⟨start, [], [(3, date)]⟩ 3).getD [] = date := rfl
  unfold visitAt visit
  rw [group]
  dsimp only
  cases read : fromIsoFormat date with
  | none =>
      rw [read] at old
      cases old
  | some day =>
      rw [read, Option.any_some, decide_eq_true_eq] at old
      exact if_pos old

/-- The block of a heading ends where the next one starts. -/
theorem next_start {before b : PyStr} {blocks : List PyStr} {earlier : List Nat} (nonempty : b ≠ [])
    (past : ∀ i ∈ earlier, i < before.length) :
    ((earlier ++ (placesFrom before.length (b :: blocks)).map Prod.fst).find? (before.length < ·)).getD
      (before ++ (b :: blocks).flatten).length = before.length + b.length := by
  have none_ : earlier.find? (before.length < ·) = none := by
    rw [List.find?_eq_none]
    intro i member later
    exact absurd (of_decide_eq_true later) (past i member).asymm
  have here : decide (before.length < before.length) = false := decide_eq_false (lt_irrefl _)
  have next : before.length < before.length + b.length :=
    Nat.lt_add_of_pos_right (List.length_pos_iff.mpr nonempty)
  rw [List.find?_append, none_, Option.none_or, placesFrom, List.map_cons, List.find?_cons, here]
  cases blocks with
  | nil => rw [placesFrom, List.flatten_singleton, List.length_append]; rfl
  | cons b' blocks =>
      rw [placesFrom, List.map_cons, List.find?_cons, decide_eq_true next]
      rfl

section
variable [PyRuntime]

/-- The date a block starts with, if it starts with a header and the date can be read. -/
def dateOfBlock (b : PyStr) : Option Nat := (headerDate b).bind fromIsoFormat

/-- A block older than the cutoff. -/
def isOld (cutoff : Nat) (b : PyStr) : Bool := (dateOfBlock b).any (· < cutoff)

/-- The blocks of a text that are not older than the cutoff. -/
def keptBlocks (cutoff : Nat) (text : PyStr) : List PyStr := (parts text).2.filter (!isOld cutoff ·)

/-- What the loop leaves of the text, from a block on. -/
theorem foldl_visitAt_text (cutoff : Nat) (blocks : List PyStr) : ∀ (before : PyStr) (earlier : List Nat)
    (c : Clamp) (left : PyStr), (∀ b ∈ blocks, b ≠ []) → (∀ i ∈ earlier, i < before.length) →
    c.pos ≤ before.length → c.out.flatten ++ before.drop c.pos = left →
    let c' := (heads before.length blocks).foldl (visitAt (before ++ blocks.flatten)
      (earlier ++ (placesFrom before.length blocks).map Prod.fst) cutoff) c
    c'.out.flatten ++ (before ++ blocks.flatten).drop c'.pos =
      left ++ (blocks.filter (!isOld cutoff ·)).flatten := by
  induction blocks with
  | nil =>
      intro before earlier c left _ _ _ same
      change c.out.flatten ++ (before ++ []).drop c.pos = left ++ []
      rw [List.append_nil, List.append_nil, same]
  | cons b blocks ih =>
      intro before earlier c left nonempty past inside same
      rw [List.forall_mem_cons] at nonempty
      have next := @next_start _ _ blocks _ nonempty.1 past
      have text : before ++ (b :: blocks).flatten = (before ++ b) ++ blocks.flatten := by
        rw [List.flatten_cons, List.append_assoc]
      have starts : earlier ++ (placesFrom before.length (b :: blocks)).map Prod.fst =
          (earlier ++ [before.length]) ++ (placesFrom (before ++ b).length blocks).map Prod.fst := by
        rw [placesFrom, List.map_cons, List.append_assoc, List.length_append]
        rfl
      have past' : ∀ i ∈ earlier ++ [before.length], i < (before ++ b).length := by
        rw [List.length_append]
        have longer := List.length_pos_iff.mpr nonempty.1
        refine List.forall_mem_append.mpr ⟨fun i member => ?_, List.forall_mem_singleton.mpr (by omega)⟩
        have := past i member
        omega
      have inside' : c.pos ≤ (before ++ b).length := by
        rw [List.length_append]
        omega
      have kept : c.out.flatten ++ (before ++ b).drop c.pos = left ++ b := by
        rw [List.drop_append_of_le_length inside, ← List.append_assoc, same]
      rw [text, starts] at next ⊢
      have split : heads before.length (b :: blocks) =
          ((headerDate b).map (before.length, ·)).toList ++ heads (before ++ b).length blocks := by
        rw [heads, placesFrom, List.filterMap_cons, ← List.length_append]
        cases headerDate b <;> rfl
      rw [split]
      cases header : headerDate b with
      | none =>
          have young : isOld cutoff b = false := by rw [isOld, dateOfBlock, header]; rfl
          rw [List.filter_cons_of_pos (by simp [young]), List.flatten_cons, ← List.append_assoc]
          exact ih (before ++ b) _ c (left ++ b) nonempty.2 past' inside' kept
      | some date =>
          rw [Option.map_some, Option.toList_some, List.singleton_append, List.foldl_cons]
          have agrees : isOld cutoff b = (fromIsoFormat date).any (· < cutoff) := by
            rw [isOld, dateOfBlock, header]
            rfl
          cases old : (fromIsoFormat date).any (· < cutoff) with
          | false =>
              obtain ⟨dates, visited⟩ := @visitAt_kept (before ++ b ++ blocks.flatten)
                ((earlier ++ [before.length]) ++ (placesFrom (before ++ b).length blocks).map Prod.fst)
                cutoff c before.length date old
              rw [visited, List.filter_cons_of_pos (by simp [agrees, old]), List.flatten_cons,
                ← List.append_assoc]
              exact ih (before ++ b) _ { c with keptDates := dates } (left ++ b) nonempty.2 past' inside' kept
          | true =>
              have gone : ((before ++ b ++ blocks.flatten).take before.length).drop c.pos =
                  before.drop c.pos := by
                rw [List.append_assoc, List.take_left]
              rw [visitAt_dropped old, next, gone, List.filter_cons_of_neg (by simp [agrees, old])]
              refine ih (before ++ b) _ _ left nonempty.2 past' ?_ ?_
              · rw [List.length_append]
              · dsimp only
                rw [List.flatten_append, List.flatten_singleton, same, ← List.length_append,
                  List.drop_length, List.append_nil]

/-- The dates the loop drops. -/
theorem foldl_visitAt_dropped (text : PyStr) (h2Starts : List Nat) (cutoff : Nat) (blocks : List PyStr) :
    ∀ (start : Nat) (c : Clamp), ((heads start blocks).foldl (visitAt text h2Starts cutoff) c).dropped =
      c.dropped ++ (blocks.filter (isOld cutoff)).map fun b => (headerDate b).getD [] := by
  induction blocks with
  | nil => exact fun start c => (List.append_nil _).symm
  | cons b blocks ih =>
      intro start c
      have split : heads start (b :: blocks) =
          ((headerDate b).map (start, ·)).toList ++ heads (start + b.length) blocks := by
        rw [heads, placesFrom, List.filterMap_cons]
        cases headerDate b <;> rfl
      rw [split]
      cases header : headerDate b with
      | none =>
          have young : isOld cutoff b = false := by rw [isOld, dateOfBlock, header]; rfl
          rw [List.filter_cons_of_neg (by simp [young])]
          exact ih _ c
      | some date =>
          rw [Option.map_some, Option.toList_some, List.singleton_append, List.foldl_cons, ih]
          have agrees : isOld cutoff b = (fromIsoFormat date).any (· < cutoff) := by
            rw [isOld, dateOfBlock, header]
            rfl
          cases old : (fromIsoFormat date).any (· < cutoff) with
          | false =>
              obtain ⟨dates, visited⟩ := @visitAt_kept text h2Starts cutoff c start date old
              rw [visited, List.filter_cons_of_neg (by simp [agrees, old])]
          | true =>
              rw [visitAt_dropped old, List.filter_cons_of_pos (by simp [agrees, old]), List.map_cons,
                header, List.append_assoc]
              rfl

/-- The text without its old blocks, and their dates. -/
theorem clamped_eq (text : PyStr) (cutoff : Nat) :
    ((clamped text cutoff).out ++ [text.drop (clamped text cutoff).pos]).flatten =
        (parts text).1 ++ (keptBlocks cutoff text).flatten ∧
      (clamped text cutoff).dropped =
        ((parts text).2.filter (isOld cutoff)).map fun b => (headerDate b).getD [] := by
  have joined : (parts text).1 ++ (parts text).2.flatten = text := cut_join none text
  have isCut := isCut_cut mark_oneLine none text
  have nonempty : ∀ b ∈ (parts text).2, b ≠ [] := by
    rintro b member rfl
    have block := isCut.block [] member
    cases block
  have loop : clamped text cutoff = (heads (parts text).1.length (parts text).2).foldl
      (visitAt text ((placesFrom (parts text).1.length (parts text).2).map Prod.fst) cutoff)
      ⟨[], 0, [], []⟩ := by
    rw [clamped, h2Starts_eq, ← heads_eq, List.foldl_map]
    rfl
  rw [loop]
  constructor
  · have left := foldl_visitAt_text cutoff (parts text).2 (parts text).1 [] ⟨[], 0, [], []⟩ (parts text).1
      nonempty nofun (Nat.zero_le _) rfl
    rw [joined, List.nil_append] at left
    rw [List.flatten_append, List.flatten_singleton]
    exact left
  · exact foldl_visitAt_dropped text _ cutoff (parts text).2 _ _

/-- The preamble restated, or not. -/
def restatedBy : Option PyStr → PyStr → PyStr
  | some pre, text => restate pre text
  | none, text => text

/-- The restated preamble starts as one does, and stays in its line. -/
def IsSentence (pre : PyStr) : Prop := pre.head? = some 89 ∧ 10 ∉ pre

omit [PyRuntime] in
theorem isSentence_preambleOf {n : Nat} {dates : List (Option Nat)} {pre : PyStr}
    (restated : preambleOf n dates = some pre) : IsSentence pre := by
  have digit : ∀ c : Nat, isAsciiDigit c = true → 10 ≠ c := by
    rintro c isDigit rfl
    cases isDigit
  have numeral : ∀ m, 10 ∉ strOfNat m := fun m member => digit 10 (digitsOfNat_isDigit m m 10 member) rfl
  have digits_ : ∀ width m, 10 ∉ digits width m := by
    intro width
    induction width with
    | zero => exact fun m => List.not_mem_nil
    | succ width ih =>
        intro m member
        rcases List.mem_append.mp member with front | last
        · exact ih _ front
        · rw [List.mem_singleton] at last
          omega
  have day : ∀ d, 10 ∉ DateTime.dayText d := by
    intro d member
    rw [DateTime.dayText, DateTime.dateText, List.mem_append, List.mem_cons, List.mem_append, List.mem_cons] at member
    rcases member with year | hyphen | month | hyphen | day
    · exact digits_ _ _ year
    · cases hyphen
    · exact digits_ _ _ month
    · cases hyphen
    · exact digits_ _ _ day
  unfold preambleOf at restated
  dsimp only at restated
  generalize dates.filterMap id = real at restated
  split at restated
  · obtain rfl := Option.some.inj restated
    refine ⟨rfl, ?_⟩
    simp only [List.mem_append, numeral, or_false]
    decide
  · obtain rfl := Option.some.inj restated
    refine ⟨rfl, ?_⟩
    simp only [List.mem_append, day, or_false]
    decide
  · obtain rfl := Option.some.inj restated
    refine ⟨rfl, ?_⟩
    simp only [List.mem_append, numeral, day, or_false]
    decide
  · cases restated

/-- Restating puts a text that starts as a preamble in the place of one that does. -/
theorem restate_split (pre text : PyStr) : restate pre text = text ∨
    ∃ x old y more, text = x ++ (old ++ y) ∧ old.head? = some 89 ∧ 10 ∉ more ∧
      restate pre text = x ++ ((pre ++ more) ++ y) := by
  rw [restate]
  cases found : search preamble text with
  | none => exact .inl rfl
  | some m =>
      obtain ⟨a, d, rfl, start, reached, groups⟩ := search_eq_some found
      have notNewline : Regex.digit.SetsIn (· != 10) := fun c digit =>
        (Bool.and_eq_true _ _ ▸ inHeader_digit c digit).1
      have date : datePattern.SetsIn (· != 10) := datePattern_sets notNewline rfl
      have sets : preamble.SetsIn (· != 10) :=
        ⟨lit_sets _ rfl, ⟨⟨lit_sets _ rfl, date⟩, ⟨notNewline, notNewline⟩, lit_sets _ rfl,
          ⟨lit_sets _ rfl, trivial⟩, lit_sets _ rfl, date, lit_sets _ rfl, date⟩, lit_sets _ rfl, trivial⟩
      have clean : 10 ∉ (m.group 1).getD [] := by
        rw [Match.group]
        cases captured : m.groups.find? fun g => decide (g.1 = 1) with
        | none => exact List.not_mem_nil
        | some g =>
            intro member
            have inGroups := List.mem_of_find?_eq_some captured
            rw [groups] at inGroups
            have other := groupsIn_run sets _ (fun g none_ => absurd none_ List.not_mem_nil) d reached g
              inGroups 10 member
            cases other
      have opens : m.text.head? = some 89 := by
        rw [preamble, mem_run_seqs] at reached
        obtain ⟨e, first, rest⟩ := reached
        obtain ⟨_, rfl, split, _⟩ := (spells_lit _ _ e).mp first
        replace split : m.text ++ d.after = py "You have context from " ++ e.after := split
        have shorter := (run_reaches _ e d rest).length_le
        have length := congrArg List.length split
        rw [List.length_append, List.length_append] at length
        have long : 0 < (py "You have context from ").length := by decide
        cases text : m.text with
        | nil =>
            rw [text, List.length_nil] at length
            omega
        | cons z t =>
            rw [text] at split
            obtain ⟨rfl, _⟩ := List.cons.inj split
            rfl
      refine .inr ⟨a, m.text, d.after, _, rfl, opens, clean, ?_⟩
      have stop : m.stop = (a ++ m.text).length := by rw [Match.stop, start, List.length_append]
      dsimp only
      rw [start, List.take_left, stop, ← List.append_assoc a m.text, List.drop_left, List.append_assoc]

/-! ### No old block -/

/-- No block of a text is older than the cutoff. -/
def NoOld (cutoff : Nat) (text : PyStr) : Prop := ∀ b ∈ (parts text).2, isOld cutoff b = false

theorem headerDate_starts {s date : PyStr} (header : headerDate s = some date) : atMark mark none s = true := by
  rw [headerDate, matchStart, Option.map_map, Option.map_eq_some_iff] at header
  obtain ⟨d, first, _⟩ := header
  exact (meetingH2_starts (List.mem_of_head? first)).2.1

/-- The blocks with a header are told by the headers. -/
theorem noOld_iff_heads (cutoff : Nat) (text : PyStr) : NoOld cutoff text ↔
    ∀ m ∈ finditer meetingH2 text, (fromIsoFormat (dateOf m)).any (· < cutoff) = false := by
  have places : ∀ blocks start, (placesFrom start blocks).map Prod.snd = blocks := by
    intro blocks
    induction blocks with
    | nil => exact fun _ => rfl
    | cons b blocks ih => exact fun start => congrArg (b :: ·) (ih _)
  have same := heads_eq text
  constructor
  · intro noOld m found
    have inHeads : (m.start, dateOf m) ∈ heads (parts text).1.length (parts text).2 := by
      rw [← same]
      exact List.mem_map_of_mem found
    obtain ⟨⟨i, b⟩, place, read⟩ := List.mem_filterMap.mp inHeads
    obtain ⟨date, header, agree⟩ := Option.map_eq_some_iff.mp read
    have inBlocks : b ∈ (parts text).2 := by
      rw [← places (parts text).2 (parts text).1.length]
      exact List.mem_map_of_mem place
    have young := noOld b inBlocks
    rw [isOld, dateOfBlock, show headerDate b = some date from header] at young
    rw [← show date = dateOf m from congrArg Prod.snd agree]
    exact young
  · intro young b member
    rw [← places (parts text).2 (parts text).1.length] at member
    obtain ⟨⟨i, b'⟩, place, which⟩ := List.mem_map.mp member
    replace which : b' = b := which
    subst which
    rw [isOld, dateOfBlock]
    cases header : headerDate b' with
    | none => rfl
    | some date =>
        have inHeads : (i, date) ∈ heads (parts text).1.length (parts text).2 :=
          List.mem_filterMap.mpr ⟨(i, b'), place, by rw [header]; rfl⟩
        rw [← same] at inHeads
        obtain ⟨m, found, agree⟩ := List.mem_map.mp inHeads
        rw [← show dateOf m = date from congrArg Prod.snd agree]
        exact young m found

/-- A block starts wherever a line starts with a header. -/
theorem noOld_iff (cutoff : Nat) (text : PyStr) : NoOld cutoff text ↔
    ∀ a b date, text = a ++ b → atLineStart a.getLast? = true → headerDate b = some date →
      (fromIsoFormat date).any (· < cutoff) = false := by
  rw [noOld_iff_heads, finditer_onLine meetingH2_onLine]
  constructor
  · rintro young a b date rfl start header
    have marked : atMark mark a.getLast? b = true := by
      have here := headerDate_starts header
      rw [atMark, start]
      exact here
    cases b with
    | nil =>
        rw [atMark, Bool.and_eq_true] at marked
        cases marked.2
    | cons x b =>
        have read := step_meetingH2 a.length a.getLast? (x :: b)
        rw [if_pos marked, header, Option.map_some, Option.map_eq_some_iff] at read
        obtain ⟨d, first, same⟩ := read
        have member := (mem_matchesAt (r := meetingH2) (a ++ x :: b) 0 none).mpr
          ⟨a, x, b, d, rfl, by rwa [Option.or_none], rfl⟩
        have young := young _ member
        rw [Option.or_none] at young
        rw [← show _ = date from congrArg Prod.snd same]
        exact young
  · intro young m member
    obtain ⟨a, x, b, d, rfl, first, rfl⟩ := (mem_matchesAt (r := meetingH2) _ 0 none).mp member
    rw [Option.or_none] at first ⊢
    have read := step_meetingH2 (0 + a.length) a.getLast? (x :: b)
    rw [first, Option.map_some] at read
    split at read
    · next marked =>
      obtain ⟨date, header, same⟩ := Option.map_eq_some_iff.mp read.symm
      have read : date = dateOf (matchBetween (0 + a.length) ⟨a.getLast?, x :: b, []⟩ d) :=
        congrArg Prod.snd same
      rw [← read]
      rw [atMark, Bool.and_eq_true] at marked
      exact young a (x :: b) date rfl marked.1 header
    · cases read

/-- A text in a line does not make or break a header when it starts as a preamble does. -/
theorem NoOld.swap {cutoff : Nat} {x old new y : PyStr} (opens : old.head? = some 89)
    (sentence : IsSentence new) (noOld : NoOld cutoff (x ++ (old ++ y))) : NoOld cutoff (x ++ (new ++ y)) := by
  obtain ⟨o, rfl⟩ := List.head?_eq_some_iff.mp opens
  obtain ⟨opens', clean⟩ := sentence
  rw [noOld_iff] at noOld ⊢
  have inLine : ∀ a u v, u ≠ [] → new = u ++ v → ¬atLineStart (a ++ u).getLast? = true := by
    intro a u v some_ split start
    rw [List.getLast?_append_of_ne_nil a some_, List.getLast?_eq_getLast_of_ne_nil some_, atLineStart,
      Option.all_some, beq_iff_eq] at start
    rw [split] at clean
    exact clean (List.mem_append_left v (start ▸ List.getLast_mem some_))
  intro a b date split start header
  rcases List.append_eq_append_iff.mp split with ⟨u, rfl, rest⟩ | ⟨u, rfl, rest⟩
  · -- the line starts inside the new text or behind it
    rcases List.append_eq_append_iff.mp rest with ⟨v, behind, rest⟩ | ⟨v, inside, rest⟩
    · cases v with
      | nil =>
          rw [List.append_nil] at behind
          obtain ⟨n, rfl⟩ := List.head?_eq_some_iff.mp opens'
          refine absurd start (inLine x u [] ?_ (by rw [List.append_nil, behind]))
          rw [behind]
          exact List.cons_ne_nil _ _
      | cons z v =>
          refine noOld (x ++ (89 :: o ++ z :: v)) b date ?_ ?_ header
          · rw [rest, List.append_assoc, List.append_assoc]
          · rw [behind, ← List.append_assoc, List.getLast?_append_of_ne_nil _ (List.cons_ne_nil z v)] at start
            rw [← List.append_assoc, List.getLast?_append_of_ne_nil _ (List.cons_ne_nil z v)]
            exact start
    · cases u with
      | nil =>
          rw [List.nil_append] at inside
          rw [List.append_nil] at start
          refine noOld x (89 :: o ++ y) date rfl start ?_
          obtain ⟨n, rfl⟩ := List.head?_eq_some_iff.mp opens'
          rw [← header, ← show 89 :: n ++ y = b from rest]
          exact headerDate_stop (by decide) [] _ _
      | cons z u => exact absurd start (inLine x (z :: u) v (List.cons_ne_nil z u) inside)
  · -- the line starts in front of it
    refine noOld a (u ++ (89 :: o ++ y)) date (List.append_assoc ..) start ?_
    obtain ⟨n, rfl⟩ := List.head?_eq_some_iff.mp opens'
    rw [← header, rest]
    exact headerDate_stop (by decide) u _ _

theorem NoOld.restate {cutoff : Nat} {pre text : PyStr} (sentence : IsSentence pre)
    (noOld : NoOld cutoff text) : NoOld cutoff (restate pre text) := by
  rcases restate_split pre text with same | ⟨x, old, y, more, rfl, opens, clean, restated⟩
  · rw [same]
    exact noOld
  · rw [restated]
    refine noOld.swap opens ⟨?_, ?_⟩
    · obtain ⟨rest, rfl⟩ := List.head?_eq_some_iff.mp sentence.1
      rfl
    · exact fun member => (List.mem_append.mp member).elim sentence.2 clean

/-- What is left of a text has no old block. -/
theorem noOld_kept (cutoff : Nat) (text : PyStr) :
    NoOld cutoff ((parts text).1 ++ (keptBlocks cutoff text).flatten) := by
  have isCut := (isCut_cut mark_oneLine none text).sublist (List.filter_sublist (p := (!isOld cutoff ·)))
  have again : parts ((parts text).1 ++ (keptBlocks cutoff text).flatten) =
      ((parts text).1, keptBlocks cutoff text) := cut_of_isCut mark_oneLine isCut
  rw [NoOld, again]
  intro b member
  simpa using (List.mem_filter.mp member).2

theorem NoOld.kept_eq {cutoff : Nat} {text : PyStr} (noOld : NoOld cutoff text) :
    (parts text).1 ++ (keptBlocks cutoff text).flatten = text := by
  rw [keptBlocks, List.filter_eq_self.mpr fun b member => by rw [noOld b member]; rfl]
  exact cut_join none text

theorem NoOld.dropped_eq {cutoff : Nat} {text : PyStr} (noOld : NoOld cutoff text) :
    (parts text).2.filter (isOld cutoff) = [] := by
  rw [List.filter_eq_nil_iff]
  intro b member
  rw [noOld b member]
  exact Bool.false_ne_true

/-! ### The clamp -/

/-- What the clamp makes of a text when there is a cutoff. -/
theorem clampMeetingBlocks_eq {text : PyStr} (some_ : text ≠ []) {n : Nat} (pos : 1 ≤ n) {today : Today}
    (reaches : n ≤ today.val) : ∃ restated dropped,
      clampMeetingBlocks (some text) (some n) today = some (some (restatedBy restated
        ((parts text).1 ++ (keptBlocks (today.val - n) text).flatten)), dropped) ∧
      (∀ pre, restated = some pre → IsSentence pre) ∧
      (NoOld (today.val - n) text → restated = none ∧ dropped = []) := by
  have inYears := today.isLt
  have cutoff : cutoffOf today (n : Int).toNat = some (today.val - n) := by
    rw [Int.toNat_natCast, cutoffOf, if_pos ⟨by omega, reaches⟩]
  have runs : ¬(text.isEmpty = true ∨ (n : Int) < 1) := by
    rintro (empty | small)
    · exact some_ (List.isEmpty_iff.mp empty)
    · omega
  obtain ⟨joined, dropped⟩ := clamped_eq text (today.val - n)
  rw [clampMeetingBlocks, if_neg runs, cutoff, Option.map_some, Int.toNat_natCast]
  dsimp only
  split
  · next noHeads =>
    have noOld : NoOld (today.val - n) text := by
      rw [noOld_iff_heads, List.isEmpty_iff.mp noHeads]
      exact fun m member => absurd member List.not_mem_nil
    refine ⟨none, [], ?_, nofun, fun _ => ⟨rfl, rfl⟩⟩
    rw [restatedBy, noOld.kept_eq]
  · unfold clampText
    dsimp only
    rw [joined, dropped]
    split
    · next old others pre some_ restated =>
      refine ⟨some pre, _, rfl, ?_, fun noOld => ?_⟩
      · intro pre' same
        obtain rfl := Option.some.inj same
        exact isSentence_preambleOf restated
      · rw [noOld.dropped_eq] at some_
        cases some_
    · refine ⟨none, _, rfl, nofun, fun noOld => ⟨rfl, ?_⟩⟩
      rw [noOld.dropped_eq]
      rfl

/-- For a text, a window and a day: the clamp returns, no block of the result is old, the result is the
text without the old blocks but for the restated preamble, a second run changes nothing, and a
narrower window keeps no other blocks. -/
def RemovesOldBlocks (text : PyStr) (n : Nat) (today : Today) : Prop :=
  ∃ out dropped, clampMeetingBlocks (some text) (some n) today = some (some out, dropped) ∧
    NoOld (today.val - n) out ∧
    (∃ restated, out = restatedBy restated
      ((parts text).1 ++ (keptBlocks (today.val - n) text).flatten)) ∧
    clampMeetingBlocks (some out) (some n) today = some (some out, []) ∧
    ∀ m, 1 ≤ m → m ≤ n → ∃ out' dropped' restated,
      clampMeetingBlocks (some text) (some m) today = some (some out', dropped') ∧
      out' = restatedBy restated ((parts text).1 ++ (keptBlocks (today.val - m) text).flatten) ∧
      (keptBlocks (today.val - m) text).Sublist (keptBlocks (today.val - n) text)

theorem clampMeetingBlocks_nil (n : Nat) (today : Today) :
    clampMeetingBlocks (some []) (some n) today = some (some [], []) := by
  rw [clampMeetingBlocks]
  exact if_pos (.inl rfl)

/-- A later cutoff keeps less. -/
theorem keptBlocks_sublist {early late : Nat} (le : early ≤ late) (text : PyStr) :
    (keptBlocks late text).Sublist (keptBlocks early text) := by
  refine List.monotone_filter_right _ fun b kept => ?_
  rw [Bool.not_eq_true', isOld] at kept ⊢
  cases read : dateOfBlock b with
  | none => rfl
  | some day =>
      rw [read, Option.any_some, decide_eq_false_iff_not] at kept
      rw [Option.any_some, decide_eq_false_iff_not]
      omega

theorem removesOldBlocks_nil (n : Nat) (today : Today) : RemovesOldBlocks [] n today := by
  refine ⟨[], [], clampMeetingBlocks_nil n today, fun b member => absurd member List.not_mem_nil,
    ⟨none, rfl⟩, clampMeetingBlocks_nil n today, fun m _ narrower => ?_⟩
  exact ⟨[], [], none, clampMeetingBlocks_nil m today, rfl, .refl _⟩

theorem removesOldBlocks_of_reaches {text : PyStr} (some_ : text ≠ []) {n : Nat} (pos : 1 ≤ n)
    {today : Today} (reaches : n ≤ today.val) : RemovesOldBlocks text n today := by
  obtain ⟨restated, dropped, result, sentence, _⟩ := clampMeetingBlocks_eq some_ pos reaches
  have noOld : NoOld (today.val - n) (restatedBy restated
      ((parts text).1 ++ (keptBlocks (today.val - n) text).flatten)) := by
    cases restated with
    | none => exact noOld_kept _ text
    | some pre => exact (noOld_kept _ text).restate (sentence pre rfl)
  refine ⟨_, dropped, result, noOld, ⟨restated, rfl⟩, ?_, fun m pos' narrower => ?_⟩
  · generalize restatedBy restated ((parts text).1 ++ (keptBlocks (today.val - n) text).flatten) = out
      at noOld
    cases out with
    | nil => exact clampMeetingBlocks_nil n today
    | cons x out =>
        obtain ⟨_, _, again, _, unchanged⟩ :=
          clampMeetingBlocks_eq (List.cons_ne_nil x out) pos reaches
        obtain ⟨rfl, rfl⟩ := unchanged noOld
        rw [again, restatedBy, noOld.kept_eq]
  · obtain ⟨restated', dropped', result', _, _⟩ :=
      clampMeetingBlocks_eq some_ pos' (narrower.trans reaches)
    exact ⟨_, dropped', restated', result', rfl, keptBlocks_sublist (by omega) text⟩

/-- The clamp removes exactly the old blocks if and only if the window reaches back to a date, or there
is no text. -/
theorem clampMeetingBlocks_exact_iff (text : PyStr) (n : Nat) (pos : 1 ≤ n) (today : Today) :
    RemovesOldBlocks text n today ↔ text = [] ∨ n ≤ today.val := by
  constructor
  · rintro ⟨out, dropped, result, _⟩
    by_contra neither
    rw [not_or] at neither
    have runs : ¬(text.isEmpty = true ∨ (n : Int) < 1) := by
      rintro (empty | small)
      · exact neither.1 (List.isEmpty_iff.mp empty)
      · omega
    have none_ : cutoffOf today (n : Int).toNat = none := by
      rw [Int.toNat_natCast, cutoffOf, if_neg fun both => neither.2 both.2]
    rw [clampMeetingBlocks, if_neg runs, none_] at result
    cases result
  · rintro (rfl | reaches)
    · exact removesOldBlocks_nil n today
    · by_cases empty : text = []
      · rw [empty]
        exact removesOldBlocks_nil n today
      · exact removesOldBlocks_of_reaches empty pos reaches

end

/-- 2026-08-26. -/
def aDay : Today := ⟨739853, by decide⟩

theorem clamp_exact_at_thirty : letI := PyRuntime.ascii
    RemovesOldBlocks (py "no meetings here") 30 aDay :=
  let _ := PyRuntime.ascii
  (clampMeetingBlocks_exact_iff (py "no meetings here") 30 (by decide) aDay).mpr (.inr (by decide))

/-- With a window of a million days the clamp raises on a text without a block. -/
theorem wide_window_raises : letI := PyRuntime.ascii
    clampMeetingBlocks (some (py "no meetings here")) (some 1000000) aDay = none ∧
      ¬RemovesOldBlocks (py "no meetings here") 1000000 aDay := by
  let _ := PyRuntime.ascii
  have raises : clampMeetingBlocks (some (py "no meetings here")) (some (1000000 : Nat)) aDay = none := by
    decide
  refine ⟨raises, ?_⟩
  rintro ⟨out, dropped, result, _⟩
  rw [raises] at result
  cases result

end Memory.RecallWindow

end GhostPour
