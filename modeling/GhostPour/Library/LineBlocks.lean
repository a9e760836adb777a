/-
Module: GhostPour.Library.LineBlocks
Layer: Library
Purpose: A text cut into blocks at the lines that start with a mark, as Markdown headings do, and the
  patterns that match at the start of a line and stay in it. Every place where such a pattern matches is
  found, and when it starts with the mark these are starts of blocks, so that the matches of a text are
  those of its blocks.
Trusted boundary: human-reviewed spec
Main exports: atMark, cut, cut_join, IsCut, isCut_cut, cut_of_isCut, OnLine, matchesFrom_onLine,
  matchesAt_cut, mem_matchesAt
-/
import GhostPour.Library.RegexSearch

namespace GhostPour

/-! ### Cutting a text -/

/-- Behind a newline, or at the start of the text. -/
def atLineStart (prev : Option Nat) : Bool := prev.all (· == 10)

/-- At a line that starts with a mark. -/
def atMark (mark : PyStr) (prev : Option Nat) (s : PyStr) : Bool := atLineStart prev && startsWith mark s

/-- The text in front of the first mark, and the blocks from one mark to the next. -/
def cut (mark : PyStr) : Option Nat → PyStr → PyStr × List PyStr
  | _, [] => ([], [])
  | prev, x :: rest =>
      let later := cut mark (some x) rest
      if atMark mark prev (x :: rest) then ([], (x :: later.1) :: later.2) else (x :: later.1, later.2)

section
variable {mark : PyStr}

theorem cut_marked {prev : Option Nat} {x : Nat} {rest : PyStr} (marked : atMark mark prev (x :: rest) = true) :
    cut mark prev (x :: rest) = ([], (x :: (cut mark (some x) rest).1) :: (cut mark (some x) rest).2) := by
  rw [cut, if_pos marked]

theorem cut_unmarked {prev : Option Nat} {x : Nat} {rest : PyStr}
    (unmarked : ¬atMark mark prev (x :: rest) = true) :
    cut mark prev (x :: rest) = (x :: (cut mark (some x) rest).1, (cut mark (some x) rest).2) := by
  rw [cut, if_neg unmarked]

/-- Nothing is lost. -/
theorem cut_join (prev : Option Nat) (s : PyStr) :
    (cut mark prev s).1 ++ (cut mark prev s).2.flatten = s := by
  induction s generalizing prev with
  | nil => rfl
  | cons x rest ih =>
      by_cases marked : atMark mark prev (x :: rest) = true
      · rw [cut_marked marked, List.nil_append, List.flatten_cons, List.cons_append, ih]
      · rw [cut_unmarked marked, List.cons_append, ih]

/-- At a line start it does not matter which. -/
theorem cut_prev {prev prev' : Option Nat} (same : atLineStart prev = atLineStart prev') (s : PyStr) :
    cut mark prev s = cut mark prev' s := by
  cases s with
  | nil => rfl
  | cons x rest => rw [cut, cut, atMark, atMark, same]

/-- Where the text ends a line, or has not begun, in front of something. -/
def EndsLine (prev : Option Nat) (s : PyStr) : Prop := atLineStart (s.getLast?.or prev) = true

theorem endsLine_cons {prev : Option Nat} {x : Nat} {s : PyStr} :
    EndsLine prev (x :: s) ↔ EndsLine (some x) s := by
  rw [EndsLine, EndsLine, getLast?_cons_or]

/-- A block: it starts with the mark, and no other line of it does. -/
def IsBlock (mark s : PyStr) : Prop := cut mark none s = ([], [s])

/-- The parts of a text: no line of the first starts with the mark, the others are blocks, and each ends
its line in front of another. -/
structure IsCut (mark : PyStr) (prev : Option Nat) (lead : PyStr) (blocks : List PyStr) : Prop where
  plain : cut mark prev lead = (lead, [])
  block : ∀ b ∈ blocks, IsBlock mark b
  leadEnds : blocks ≠ [] → EndsLine prev lead
  ends : blocks.Pairwise fun a _ => EndsLine none a

theorem atMark_extend {prev : Option Nat} {s t : PyStr} (marked : atMark mark prev s = true) :
    atMark mark prev (s ++ t) = true := by
  rw [atMark, Bool.and_eq_true] at marked ⊢
  refine ⟨marked.1, List.isPrefixOf_iff_prefix.mpr ?_⟩
  exact (List.isPrefixOf_iff_prefix.mp marked.2).trans (List.prefix_append s t)

variable (oneLine : 10 ∉ mark)
include oneLine

/-- A mark does not reach past the end of a line. -/
theorem atMark_append {prev : Option Nat} {s t : PyStr} (some_ : s ≠ []) (ended : EndsLine none s ∨ t = []) :
    atMark mark prev (s ++ t) = atMark mark prev s := by
  rcases ended with ended | rfl
  · apply Bool.eq_iff_iff.mpr
    refine ⟨fun marked => ?_, atMark_extend⟩
    rw [atMark, Bool.and_eq_true] at marked ⊢
    refine ⟨marked.1, List.isPrefixOf_iff_prefix.mpr ?_⟩
    rcases List.prefix_or_prefix_of_prefix (List.isPrefixOf_iff_prefix.mp marked.2)
      (List.prefix_append s t) with inside | beyond
    · exact inside
    · -- then the mark has the newline that ends the text
      rw [EndsLine, Option.or_none, atLineStart] at ended
      obtain ⟨front, x, rfl⟩ : ∃ front x, s = front ++ [x] :=
        ⟨s.dropLast, s.getLast some_, (List.dropLast_concat_getLast some_).symm⟩
      rw [List.getLast?_concat, Option.all_some, beq_iff_eq] at ended
      exact absurd (beyond.subset (ended ▸ List.mem_append_right front (List.mem_singleton_self x))) oneLine
  · rw [List.append_nil]

/-- A text cut in front of a mark is cut as its two parts are. -/
theorem cut_append {s t : PyStr} (starts : (cut mark none t).1 = []) : ∀ {prev : Option Nat},
    EndsLine prev s → cut mark prev (s ++ t) = ((cut mark prev s).1, (cut mark prev s).2 ++ (cut mark none t).2) := by
  induction s with
  | nil =>
      intro prev ended
      rw [EndsLine, List.getLast?_nil, Option.none_or] at ended
      have same : atLineStart prev = atLineStart none := ended
      rw [List.nil_append, cut_prev same]
      exact Prod.ext starts rfl
  | cons x rest ih =>
      intro prev ended
      rw [endsLine_cons] at ended
      have later := ih ended
      have here := @atMark_append _ oneLine prev _ t (List.cons_ne_nil x rest)
        (.inl (endsLine_cons.mpr ended))
      rw [List.cons_append] at here ⊢
      by_cases marked : atMark mark prev (x :: rest) = true
      · rw [cut_marked marked, cut_marked (here.trans marked), later]
        rfl
      · rw [cut_unmarked marked, cut_unmarked (here ▸ marked), later]

theorem cut_blocks {blocks : List PyStr} (block : ∀ b ∈ blocks, IsBlock mark b)
    (ends : blocks.Pairwise fun a _ => EndsLine none a) : cut mark none blocks.flatten = ([], blocks) := by
  induction blocks with
  | nil => rfl
  | cons b blocks ih =>
      rw [List.forall_mem_cons] at block
      rw [List.pairwise_cons] at ends
      have first : cut mark none b = ([], [b]) := block.1
      cases blocks with
      | nil => rw [List.flatten_singleton, first]
      | cons c blocks =>
          have later := ih block.2 ends.2
          rw [List.flatten_cons, cut_append oneLine (by rw [later]) (ends.1 c (List.mem_cons_self ..)),
            first, later]
          rfl

/-- The parts of a text are what it is cut into. -/
theorem cut_of_isCut {prev : Option Nat} {lead : PyStr} {blocks : List PyStr}
    (isCut : IsCut mark prev lead blocks) : cut mark prev (lead ++ blocks.flatten) = (lead, blocks) := by
  have later := cut_blocks oneLine isCut.block isCut.ends
  by_cases none_ : blocks = []
  · rw [none_, List.flatten_nil, List.append_nil, isCut.plain]
  · rw [cut_append oneLine (by rw [later]) (isCut.leadEnds none_), isCut.plain, later]
    rfl

/-- What a text is cut into are the parts of it. -/
theorem isCut_cut (prev : Option Nat) (s : PyStr) :
    IsCut mark prev (cut mark prev s).1 (cut mark prev s).2 := by
  induction s generalizing prev with
  | nil => exact ⟨rfl, nofun, fun some_ => absurd rfl some_, .nil⟩
  | cons x rest ih =>
      have later := ih (some x)
      have joined := @cut_join mark (some x) rest
      set l := (cut mark (some x) rest).1
      set bs := (cut mark (some x) rest).2
      have ended : bs ≠ [] → EndsLine none (x :: l) := fun some_ => endsLine_cons.mpr (later.leadEnds some_)
      have here : ∀ p, atMark mark p (x :: rest) = atMark mark p (x :: l) := by
        intro p
        rw [← joined, ← List.cons_append]
        refine atMark_append oneLine (List.cons_ne_nil x l) ?_
        by_cases none_ : bs = []
        · exact .inr (by rw [none_]; rfl)
        · exact .inl (ended none_)
      by_cases marked : atMark mark prev (x :: rest) = true
      · have start : atLineStart prev = true := (Bool.and_eq_true _ _ ▸ marked).1
        have marked' : atMark mark none (x :: l) = true := by
          have starts := marked
          rw [atMark, start, Bool.true_and] at starts
          rw [← here, atMark, starts]
          rfl
        rw [cut_marked marked]
        refine ⟨rfl, List.forall_mem_cons.mpr ⟨?_, later.block⟩, fun _ => start,
          List.pairwise_cons.mpr ⟨fun b member => ended (List.ne_nil_of_mem member), later.ends⟩⟩
        rw [IsBlock, cut_marked marked', later.plain]
      · rw [cut_unmarked marked]
        refine ⟨?_, later.block, fun some_ => endsLine_cons.mpr (later.leadEnds some_), later.ends⟩
        rw [cut_unmarked (here prev ▸ marked), later.plain]

omit oneLine in
/-- Some of the blocks are blocks. -/
theorem IsCut.sublist {prev : Option Nat} {lead : PyStr} {blocks some_ : List PyStr}
    (isCut : IsCut mark prev lead blocks) (sublist : some_.Sublist blocks) : IsCut mark prev lead some_ where
  plain := isCut.plain
  block b member := isCut.block b (sublist.subset member)
  leadEnds nonempty := isCut.leadEnds fun none_ => nonempty (List.sublist_nil.mp (none_ ▸ sublist))
  ends := isCut.ends.sublist sublist

end

/-! ### Patterns of one line -/

namespace Regex

/-- Every place from a position on where a pattern matches, with the first match there. -/
def matchesAt (r : Regex) : Nat → Option Nat → PyStr → List Match
  | _, _, [] => []
  | i, prev, x :: rest =>
      ((step r prev (x :: rest)).map (matchBetween i ⟨prev, x :: rest, []⟩)).toList ++
        matchesAt r (i + 1) (some x) rest

/-- A pattern that starts at a line start and stays in the line. -/
structure OnLine (r : Regex) : Prop where
  starts : ∀ prev s, atLineStart prev = false → run r ⟨prev, s, []⟩ = []
  stays : r.SetsIn (· != 10)

theorem OnLine.step_eq_none {r : Regex} (onLine : OnLine r) {prev : Option Nat}
    (inside : atLineStart prev = false) (s : PyStr) : step r prev s = none := by
  rw [step, onLine.starts prev s inside]
  rfl

/-- No match starts in a match, so all of them are found. -/
theorem matchesFrom_onLine {r : Regex} (onLine : OnLine r) (s : PyStr) :
    ∀ i prev inside, (inside ≠ 0 → atLineStart prev = false ∧ ∀ c ∈ s.take (inside - 1), c ≠ 10) →
      matchesFrom r i prev inside s = matchesAt r i prev s := by
  induction s with
  | nil => exact fun i prev inside _ => matchesFrom_nil r i prev inside
  | cons x rest ih =>
      intro i prev inside within
      cases inside with
      | succ inside =>
          obtain ⟨notStart, clean⟩ := within (Nat.succ_ne_zero inside)
          rw [matchesFrom_inside, matchesAt, onLine.step_eq_none notStart]
          refine ih (i + 1) (some x) inside fun some_ => ?_
          obtain ⟨inside, rfl⟩ := Nat.exists_eq_succ_of_ne_zero some_
          rw [Nat.add_sub_cancel, List.take_succ_cons, List.forall_mem_cons] at clean
          exact ⟨by simpa [atLineStart] using clean.1, clean.2⟩
      | zero =>
          rw [matchesAt]
          cases first : step r prev (x :: rest) with
          | none =>
              rw [matchesFrom_none i first]
              exact ih (i + 1) (some x) 0 fun some_ => absurd rfl some_
          | some d =>
              rw [matchesFrom_some i first]
              refine congrArg (_ :: ·) (ih (i + 1) (some x) _ fun some_ => ?_)
              have reached := List.mem_of_head? (Option.eq_some_of_filter_eq_some first)
              obtain ⟨passed, split, each⟩ := run_passes onLine.stays _ d reached
              replace split : x :: rest = passed ++ d.after := split
              cases passed with
              | nil =>
                  rw [List.nil_append] at split
                  rw [← split, List.length_cons] at some_
                  omega
              | cons y passed =>
                  rw [List.forall_mem_cons] at each
                  obtain ⟨rfl, rfl⟩ : x = y ∧ rest = passed ++ d.after := List.cons.inj split
                  refine ⟨by simpa [atLineStart] using each.1, fun c member => ?_⟩
                  rw [List.length_append, Nat.add_sub_cancel] at member
                  have inPassed : c ∈ passed := by
                    rw [List.take_append_of_le_length (Nat.sub_le _ _)] at member
                    exact List.mem_of_mem_take member
                  simpa using each.2 c inPassed

theorem finditer_onLine {r : Regex} (onLine : OnLine r) (s : PyStr) :
    finditer r s = matchesAt r 0 none s := by
  rw [finditer_eq]
  exact matchesFrom_onLine onLine s 0 none 0 fun some_ => absurd rfl some_

/-- The places of blocks that follow each other from a position on. -/
def placesFrom : Nat → List PyStr → List (Nat × PyStr)
  | _, [] => []
  | i, b :: blocks => (i, b) :: placesFrom (i + b.length) blocks

/-- The matches of a pattern that matches at marks only are those of the blocks, read as what depends on
the block only. -/
theorem matchesAt_cut {r : Regex} {mark : PyStr} (oneLine : 10 ∉ mark) {α : Type} {g : Match → α}
    {k : Nat → PyStr → Option α}
    (reads : ∀ i prev x rest, ((step r prev (x :: rest)).map fun d => g (matchBetween i ⟨prev, x :: rest, []⟩ d)) =
      if atMark mark prev (x :: rest) then k i (x :: rest) else none)
    (within : ∀ i b rest, b ≠ [] → EndsLine none b ∨ rest = [] → k i (b ++ rest) = k i b) (s : PyStr) :
    ∀ i prev, (matchesAt r i prev s).map g =
      (placesFrom (i + (cut mark prev s).1.length) (cut mark prev s).2).filterMap fun place => k place.1 place.2 := by
  induction s with
  | nil => exact fun i prev => rfl
  | cons x rest ih =>
      intro i prev
      have later := ih (i + 1) (some x)
      have isCut := isCut_cut oneLine (some x) rest
      have joined := @cut_join mark (some x) rest
      have first : ((step r prev (x :: rest)).map (matchBetween i ⟨prev, x :: rest, []⟩)).toList.map g =
          (if atMark mark prev (x :: rest) then k i (x :: rest) else none).toList := by
        rw [← reads i prev x rest]
        cases step r prev (x :: rest) <;> rfl
      rw [matchesAt, List.map_append, first, later]
      by_cases marked : atMark mark prev (x :: rest) = true
      · have same : k i (x :: rest) = k i (x :: (cut mark (some x) rest).1) := by
          rw [← joined, ← List.cons_append, within i _ _ (List.cons_ne_nil _ _)]
          · rw [joined]
          · by_cases none_ : (cut mark (some x) rest).2 = []
            · exact .inr (by rw [none_]; rfl)
            · exact .inl (endsLine_cons.mpr (isCut.leadEnds none_))
        rw [if_pos marked, cut_marked marked, same, placesFrom, List.filterMap_cons]
        have next : i + 1 + (cut mark (some x) rest).1.length =
            i + ([] : PyStr).length + (x :: (cut mark (some x) rest).1).length := by
          rw [List.length_nil, List.length_cons]
          omega
        rw [next]
        cases k i (x :: (cut mark (some x) rest).1) <;> rfl
      · have next : i + 1 + (cut mark (some x) rest).1.length =
            i + (x :: (cut mark (some x) rest).1).length := by
          rw [List.length_cons]
          omega
        rw [if_neg marked, cut_unmarked marked, next]
        rfl

/-- The places where a pattern matches are those where it can run. -/
theorem mem_matchesAt {r : Regex} {m : Match} (s : PyStr) : ∀ i prev, m ∈ matchesAt r i prev s ↔
    ∃ a x b d, s = a ++ x :: b ∧ step r (a.getLast?.or prev) (x :: b) = some d ∧
      m = matchBetween (i + a.length) ⟨a.getLast?.or prev, x :: b, []⟩ d := by
  induction s with
  | nil =>
      intro i prev
      constructor
      · intro member
        cases member
      · rintro ⟨a, x, b, d, empty, _⟩
        exact absurd empty.symm (List.append_ne_nil_of_right_ne_nil a (List.cons_ne_nil x b))
  | cons y rest ih =>
      intro i prev
      rw [matchesAt, List.mem_append, Option.mem_toList, Option.map_eq_some_iff, ih]
      constructor
      · rintro (⟨d, first, rfl⟩ | ⟨a, x, b, d, rfl, first, rfl⟩)
        · exact ⟨[], y, rest, d, rfl, first, rfl⟩
        · refine ⟨y :: a, x, b, d, rfl, by rwa [getLast?_cons_or], ?_⟩
          rw [getLast?_cons_or, List.length_cons, Nat.add_assoc, Nat.add_comm 1]
      · rintro ⟨a, x, b, d, split, first, rfl⟩
        cases a with
        | nil =>
            obtain ⟨rfl, rfl⟩ : y = x ∧ rest = b := List.cons.inj split
            exact .inl ⟨d, first, rfl⟩
        | cons z a =>
            obtain ⟨rfl, rfl⟩ : y = z ∧ rest = a ++ x :: b := List.cons.inj split
            rw [getLast?_cons_or] at first
            refine .inr ⟨a, x, b, d, rfl, first, ?_⟩
            rw [getLast?_cons_or, List.length_cons, Nat.add_assoc, Nat.add_comm 1]

end Regex

end GhostPour
