/-
Module: GhostPour.Library.RegexChains
Layer: Library
Purpose: The pattern of a chain: a marked character, then rounds of at most so many separators and a
  marked one. Its matches are the chains of two or more, so to rewrite them all is to rewrite the marked
  characters chain after chain.
Trusted boundary: none
Main exports: Regex.chain, Regex.run_link, Regex.step_chain, Regex.subWith_chain
-/
import GhostPour.Library.Chains
import GhostPour.Library.RegexSearch

namespace GhostPour

namespace Regex

open Chains

variable (mark sep : Nat → Bool) (n : Nat)

/-- One round: at most so many separators and a marked character. -/
def link : Regex := .seq (upTo n (.set sep)) (.set mark)

/-- A chain of two or more marked characters. -/
def chain : Regex := .seq (.set mark) (plus (link mark sep n))

variable {mark sep n}

theorem plain_upTo (k : Nat) : (upTo k (.set sep)).plain = true := by
  induction k with
  | zero => rfl
  | succ k ih =>
      rw [upTo, opt, plain, plain, plain, ih]
      rfl

theorem plain_chain : (chain mark sep n).plain = true := by
  have round : (link mark sep n).plain = true := by
    rw [link, plain, plain_upTo]
    rfl
  rw [chain, plus, plain, plain, plain, plain, round]
  rfl

/-! ### What the pieces of the pattern do -/

theorem run_seq (a b : Regex) (c : Cursor) : run (.seq a b) c = (run a c).flatMap (run b) := by
  rw [run]

theorem run_alt (a b : Regex) (c : Cursor) : run (.alt a b) c = run a c ++ run b c := by
  rw [run]

theorem run_eps (c : Cursor) : run .eps c = [c] := by
  rw [run]

theorem run_set_cons (p : Nat → Bool) (prev : Option Nat) (x : Nat) (rest : PyStr)
    (groups : List (Nat × PyStr)) : run (.set p) ⟨prev, x :: rest, groups⟩ =
      if p x then [⟨some x, rest, groups⟩] else [] := by
  rw [run]

theorem run_set_nil (p : Nat → Bool) (prev : Option Nat) (groups : List (Nat × PyStr)) :
    run (.set p) ⟨prev, [], groups⟩ = [] := by
  rw [run]

/-- A round with one more separator: one first, or none. -/
theorem run_link_succ (k : Nat) (c : Cursor) : run (link mark sep (k + 1)) c =
    (run (.set sep) c).flatMap (run (link mark sep k)) ++ run (.set mark) c := by
  have later : run (link mark sep k) = fun d => (run (upTo k (.set sep)) d).flatMap (run (.set mark)) :=
    funext fun d => run_seq _ _ d
  rw [link, run_seq, upTo, opt, run_alt, run_seq, run_eps, List.flatMap_append, List.flatMap_assoc,
    List.flatMap_singleton, later]

section
variable (apart : ∀ x, sep x = true → mark x = false)
include apart

/-- A round has one way to match: up to the next marked character. -/
theorem run_link (k : Nat) (c : Cursor) :
    (next mark sep k c.after = none ∧ run (link mark sep k) c = []) ∨
      ∃ x rest, next mark sep k c.after = some rest ∧
        run (link mark sep k) c = [⟨some x, rest, c.groups⟩] := by
  induction k generalizing c with
  | zero =>
      obtain ⟨prev, after, groups⟩ := c
      rw [link, run_seq, upTo, run_eps, List.flatMap_singleton]
      cases after with
      | nil => exact .inl ⟨rfl, run_set_nil ..⟩
      | cons x rest =>
          rw [run_set_cons]
          by_cases marked : mark x = true
          · exact .inr ⟨x, rest, by rw [next, if_pos marked], by rw [if_pos marked]⟩
          · exact .inl ⟨by rw [next, if_neg marked], by rw [if_neg marked]⟩
  | succ k ih =>
      obtain ⟨prev, after, groups⟩ := c
      rw [run_link_succ]
      cases after with
      | nil => exact .inl ⟨rfl, by rw [run_set_nil, run_set_nil]; rfl⟩
      | cons x rest =>
          rw [run_set_cons, run_set_cons, next]
          by_cases marked : mark x = true
          · have other : sep x ≠ true := fun separates => by
              rw [apart x separates] at marked
              cases marked
            rw [if_pos marked, if_pos marked, if_neg other]
            exact .inr ⟨x, rest, rfl, rfl⟩
          · rw [if_neg marked, if_neg marked, List.append_nil]
            by_cases separates : sep x = true
            · rw [if_pos separates, if_pos separates, List.flatMap_singleton]
              exact ih ⟨some x, rest, groups⟩
            · rw [if_neg separates, if_neg separates]
              exact .inl ⟨rfl, rfl⟩

omit apart in
theorem filter_gap {gap : List Nat} (between : ∀ y ∈ gap, mark y = false ∧ sep y = true)
    (later : List Nat) : (gap ++ later).filter mark = later.filter mark := by
  have none_ : gap.filter mark = [] := by
    rw [List.filter_eq_nil_iff]
    intro y member
    rw [(between y member).1]
    exact Bool.false_ne_true
  rw [List.filter_append, none_, List.nil_append]

omit apart in
theorem gap_chars {gap front : List Nat} {z : Nat}
    (between : ∀ y ∈ gap, mark y = false ∧ sep y = true) (marked : mark z = true)
    (inside : ∀ y ∈ front, mark y = true ∨ sep y = true) :
    ∀ y ∈ gap ++ z :: front, mark y = true ∨ sep y = true := by
  intro y member
  rcases List.mem_append.mp member with old | new
  · exact .inr (between y old).2
  · rcases List.mem_cons.mp new with rfl | new
    · exact .inl marked
    · exact inside y new

/-- As many rounds as there are end where the chain that was begun ends. -/
theorem manyRun_link (fuel : Nat) (c : Cursor) (enough : c.after.length ≤ fuel) :
    ∃ d later front, manyRun (run (link mark sep n)) fuel c = d :: later ∧
      c.after = front ++ d.after ∧ (∀ y ∈ front, mark y = true ∨ sep y = true) ∧
      ∀ x, mark x = true →
        blocks mark sep n (x :: c.after) = (x :: front.filter mark) :: blocks mark sep n d.after := by
  induction fuel generalizing c with
  | zero =>
      have empty : c.after = [] := List.length_eq_zero_iff.mp (Nat.le_zero.mp enough)
      have ends : next mark sep n c.after = none := by
        rw [empty]
        cases n <;> rfl
      exact ⟨c, [], [], rfl, rfl, nofun, fun x marked => blocks_alone marked ends⟩
  | succ fuel ih =>
      rw [manyRun]
      rcases run_link apart n c with ⟨ends, none_⟩ | ⟨y, rest, found, one⟩
      · refine ⟨c, [], [], ?_, rfl, nofun, fun x marked => blocks_alone marked ends⟩
        rw [none_]
        rfl
      · have shorter : rest.length < c.after.length := next_length_lt found
        obtain ⟨gap, z, whole, between, marked'⟩ := next_split found
        obtain ⟨d, later, front, runs, split, inside, chained⟩ :=
          ih ⟨some y, rest, c.groups⟩ (by simp only; omega)
        refine ⟨d, later ++ [c], gap ++ z :: front, ?_, ?_, ?_, ?_⟩
        · rw [one, List.filter_cons_of_pos (by simpa using shorter), List.filter_nil,
            List.flatMap_singleton, runs, List.cons_append]
        · rw [whole, List.append_assoc, List.cons_append, ← split]
        · exact gap_chars between marked' inside
        · intro x marked
          rw [blocks_linked marked found, whole, blocks_gap (fun w member => (between w member).1),
            chained z marked', joinHead, filter_gap between, List.filter_cons_of_pos marked']

/-! ### Matches are chains -/

omit apart in
theorem step_chain_unmarked {x : Nat} (unmarked : ¬mark x = true) (rest : PyStr) :
    step (chain mark sep n) none (x :: rest) = none := by
  rw [step, chain, run_seq, run_set_cons, if_neg unmarked]
  rfl

omit apart in
theorem run_chain {x : Nat} (marked : mark x = true) (rest : PyStr) :
    run (chain mark sep n) ⟨none, x :: rest, []⟩ =
      (run (link mark sep n) ⟨some x, rest, []⟩).flatMap (run (.many (link mark sep n))) := by
  rw [chain, run_seq, run_set_cons, if_pos marked, List.flatMap_singleton, plus, run_seq]

theorem step_chain_alone {x : Nat} {rest : PyStr} (ends : next mark sep n rest = none) :
    step (chain mark sep n) none (x :: rest) = none := by
  by_cases marked : mark x = true
  · rcases run_link apart n ⟨some x, rest, []⟩ with ⟨_, none_⟩ | ⟨y, later, found, _⟩
    · rw [step, run_chain marked, none_]
      rfl
    · rw [ends] at found
      cases found
  · exact step_chain_unmarked marked rest

/-- A chain of two or more is matched as a whole. -/
theorem step_chain_linked {x : Nat} {rest r : PyStr} (marked : mark x = true)
    (found : next mark sep n rest = some r) :
    ∃ d front, step (chain mark sep n) none (x :: rest) = some d ∧
      rest = front ++ d.after ∧ (∀ y ∈ front, mark y = true ∨ sep y = true) ∧
      blocks mark sep n (x :: rest) = (x :: front.filter mark) :: blocks mark sep n d.after := by
  rcases run_link apart n ⟨some x, rest, []⟩ with ⟨none_, _⟩ | ⟨y, later, found', one⟩
  · rw [found] at none_
    cases none_
  · obtain ⟨gap, z, whole, between, marked'⟩ := next_split found'
    obtain ⟨d, others, front, runs, split, inside, chained⟩ :=
      manyRun_link apart later.length ⟨some y, later, []⟩ (le_refl _)
    have parted : rest = (gap ++ z :: front) ++ d.after := by
      rw [List.append_assoc, List.cons_append, ← split]
      exact whole
    have shorter : d.after.length < (x :: rest).length := by
      rw [parted, List.length_cons, List.length_append]
      omega
    refine ⟨d, gap ++ z :: front, ?_, parted, gap_chars between marked' inside, ?_⟩
    · rw [step, run_chain marked, one, List.flatMap_singleton, run, runs, List.head?_cons,
        Option.filter_some, if_pos (by simpa using shorter)]
    · have whole' : rest = gap ++ z :: later := whole
      rw [blocks_linked marked found, whole', blocks_gap (fun w member => (between w member).1),
        chained z marked', joinHead, filter_gap between, List.filter_cons_of_pos marked']

/-- To rewrite every match of a chain is to rewrite the marked characters chain after chain; a lone one is
no match, so it must stay. -/
theorem subWith_chain {speak f : PyStr → PyStr} (keeps : ∀ b, (speak b).length = b.length)
    (alone : ∀ x, speak [x] = [x])
    (fills : ∀ t, (∀ y ∈ t, mark y = true ∨ sep y = true) → f t = refill mark (speak (t.filter mark)) t)
    (s : PyStr) :
    subWith (chain mark sep n) (fun m => f m.text) s =
      refill mark ((blocks mark sep n s).flatMap speak) s := by
  induction len : s.length using Nat.strong_induction_on generalizing s with
  | _ k ih =>
      cases s with
      | nil =>
          cases (blocks mark sep n []).flatMap speak <;> rfl
      | cons x rest =>
          have later := ih rest.length (by rw [← len]; exact Nat.lt_succ_self _) rest rfl
          by_cases marked : mark x = true
          · cases found : next mark sep n rest with
            | none =>
                rw [subWith_skip plain_chain f (step_chain_alone apart found), later,
                  blocks_alone marked found, List.flatMap_cons, alone, List.singleton_append, refill,
                  if_pos marked]
            | some r =>
                obtain ⟨d, front, first, split, inside, chained⟩ := step_chain_linked apart marked found
                have whole : x :: rest = (x :: front) ++ d.after := by
                  rw [List.cons_append, ← split]
                have shorter : d.after.length < k := by
                  rw [← len, whole, List.length_append, List.length_cons]
                  omega
                have fits : (speak (x :: front.filter mark)).length = (x :: front).countP mark := by
                  rw [keeps, List.countP_eq_length_filter, List.filter_cons_of_pos marked]
                have filled : f (x :: front) =
                    refill mark (speak (x :: front.filter mark)) (x :: front) := by
                  rw [fills _ (List.forall_mem_cons.mpr ⟨.inl marked, inside⟩),
                    List.filter_cons_of_pos marked]
                rw [whole] at first
                rw [chained, List.flatMap_cons, whole,
                  subWith_match plain_chain f (List.cons_ne_nil _ _) first rfl,
                  ih _ shorter d.after rfl, filled, refill_append fits]
          · rw [subWith_skip plain_chain f (step_chain_unmarked marked rest), later, blocks,
              if_neg marked]
            cases (blocks mark sep n rest).flatMap speak with
            | nil => rw [refill_nil, refill_nil]
            | cons d ds => rw [refill, if_neg marked]

end

end Regex

end GhostPour
