/-
Module: GhostPour.N400.Proofs.OathSentences
Layer: Proofs
Purpose: The sentences the oath refusal reads, by where they stand in the text: a run of characters
  that end no sentence, the stops after it, and nothing that could be added on either side.
Trusted boundary: none
Main exports: SentenceAt, mem_sentences_iff
-/
import GhostPour.Library.RegexSearch
import GhostPour.N400.Refusals

namespace GhostPour.N400

open Regex

/-- `[^.!?¡¿]`. -/
abbrev inBody (c : Nat) : Bool := !(py ".!?¡¿").contains c

/-- `[.!?]`. -/
abbrev isStop (c : Nat) : Bool := (py ".!?").contains c

theorem inBody_of_stop {c : Nat} (stop : isStop c = true) : inBody c = false := by
  have all : ∀ d ∈ py ".!?", inBody d = false := by decide +kernel
  exact all c (List.contains_iff_mem.mp stop)

/-- A sentence with the text before and after it. -/
structure SentenceAt (a g b : PyStr) : Prop where
  shape : ∃ x y, g = x ++ y ∧ x ≠ [] ∧ (∀ c ∈ x, inBody c = true) ∧ (∀ c ∈ y, isStop c = true) ∧
    (y = [] → ∀ c ∈ b.head?, inBody c = false)
  before : ∀ c ∈ a.getLast?, inBody c = false
  after : ∀ c ∈ b.head?, isStop c = false

theorem SentenceAt.ne_nil {a g b : PyStr} (here : SentenceAt a g b) : g ≠ [] := by
  obtain ⟨x, y, rfl, nonempty, _⟩ := here.shape
  simp [nonempty]

/-- What stands before matters only by its last character. -/
theorem SentenceAt.move {a a' g b : PyStr} (here : SentenceAt a g b)
    (before : ∀ c ∈ a'.getLast?, inBody c = false) : SentenceAt a' g b :=
  ⟨here.shape, before, here.after⟩

/-! ### The next sentence -/

theorem head?_flatMap {α β : Type} {l : List α} {f : α → List β} {x : α} {y : β}
    (head : l.head? = some x) (next : (f x).head? = some y) : (l.flatMap f).head? = some y := by
  obtain ⟨rest, rfl⟩ : ∃ rest, l = x :: rest := by
    cases l with
    | nil => cases head
    | cons z rest =>
        rw [List.head?_cons, Option.some.injEq] at head
        exact ⟨rest, by rw [head]⟩
  rw [List.flatMap_cons, List.head?_append, next]
  rfl

theorem dropWhile_append_stop {p : Nat → Bool} {x s : PyStr} (inside : ∀ c ∈ x, p c = true)
    (stop : ∀ c ∈ s.head?, p c = false) : (x ++ s).dropWhile p = s := by
  rw [List.dropWhile_append_of_pos inside]
  cases s with
  | nil => rfl
  | cons c s => rw [List.dropWhile_cons_of_neg (by simp [stop c rfl])]

theorem step_sentence {g b : PyStr} (here : SentenceAt [] g b) :
    ∃ d, step sentenceRegex none (g ++ b) = some d ∧ d.after = b := by
  obtain ⟨x, y, rfl, nonempty, body, stops, ended⟩ := here.shape
  obtain ⟨c, x, rfl⟩ := List.exists_cons_of_ne_nil nonempty
  have first : run (.set inBody) ⟨none, c :: x ++ y ++ b, []⟩ = [⟨some c, x ++ y ++ b, []⟩] := by
    simp only [run, List.cons_append, body c (List.mem_cons_self ..), if_true]
  -- the stops end the body, and what follows the stops is no stop
  have bodyEnds : ∀ c ∈ (y ++ b).head?, inBody c = false := by
    intro c head
    cases y with
    | nil => exact ended rfl c head
    | cons d y =>
        obtain rfl : d = c := by simpa using head
        exact inBody_of_stop (stops d (List.mem_cons_self ..))
  obtain ⟨d, headD, afterD, _⟩ := run_many_set_head inBody ⟨some c, x ++ y ++ b, []⟩
  obtain ⟨e, headE, afterE, _⟩ := run_many_set_head isStop d
  rw [List.append_assoc,
    dropWhile_append_stop (fun d member => body d (List.mem_cons_of_mem _ member)) bodyEnds] at afterD
  rw [afterD, dropWhile_append_stop stops here.after] at afterE
  refine ⟨e, ?_, afterE⟩
  have head : (run sentenceRegex ⟨none, c :: x ++ y ++ b, []⟩).head? = some e := by
    rw [sentenceRegex, run]
    refine head?_flatMap ?_ headE
    rw [plus, run]
    exact head?_flatMap (congrArg List.head? first) headD
  rw [step, head, Option.filter_some, if_pos]
  simp only [afterE, decide_eq_true_eq, List.length_append, List.length_cons]
  omega

theorem sentences_nil : sentences [] = [] := rfl

theorem sentences_skip {c : Nat} (stop : inBody c = false) (s : PyStr) :
    sentences (c :: s) = sentences s := by
  have starts : sentenceRegex.StartsIn inBody := .seq (.seq (.set fun _ body => body) _) _
  exact findall_skip rfl (step_outside starts none stop s)

theorem sentences_next {g b : PyStr} (here : SentenceAt [] g b) :
    sentences (g ++ b) = g :: sentences b := by
  obtain ⟨d, first, rest⟩ := step_sentence here
  exact findall_match rfl here.ne_nil first rest

/-- A text that starts in the body of a sentence starts with a sentence. -/
theorem exists_sentence {c : Nat} (body : inBody c = true) (s : PyStr) :
    ∃ g b, c :: s = g ++ b ∧ SentenceAt [] g b := by
  refine ⟨(c :: s).takeWhile inBody ++ ((c :: s).dropWhile inBody).takeWhile isStop,
    ((c :: s).dropWhile inBody).dropWhile isStop, ?_, ⟨_, _, rfl, ?_, ?_, ?_, ?_⟩, ?_, ?_⟩
  · rw [List.append_assoc, List.takeWhile_append_dropWhile, List.takeWhile_append_dropWhile]
  · rw [List.takeWhile_cons_of_pos body]
    exact List.cons_ne_nil _ _
  · exact fun d member => List.mem_takeWhile_imp member
  · exact fun d member => List.mem_takeWhile_imp member
  · intro none d head
    cases rest : (c :: s).dropWhile inBody with
    | nil => simp [rest] at head
    | cons e t =>
        have notBody : inBody e = false := by
          have := List.head?_dropWhile_not inBody (c :: s)
          rw [rest] at this
          simpa using this
        rw [rest, List.takeWhile_cons] at none
        split at none
        · cases none
        · next notStop =>
          rw [rest, List.dropWhile_cons_of_neg notStop] at head
          obtain rfl : e = d := by simpa using head
          exact notBody
  · exact fun d none => (by cases none)
  · intro d head
    have := List.head?_dropWhile_not isStop ((c :: s).dropWhile inBody)
    rw [Option.mem_def.mp head] at this
    simpa using this

/-! ### Sentences by their place -/

/-- Where a sentence has ended and no stop follows, the text may be read in two parts. -/
theorem sentences_append (a s : PyStr) (before : ∀ c ∈ a.getLast?, inBody c = false)
    (after : ∀ c ∈ s.head?, isStop c = false) :
    sentences (a ++ s) = sentences a ++ sentences s := by
  induction size : a.length using Nat.strong_induction_on generalizing a with
  | _ n ih =>
    cases a with
    | nil => rfl
    | cons c a =>
        have later : ∀ front b, c :: a = front ++ b → front ≠ [] →
            sentences (b ++ s) = sentences b ++ sentences s := by
          intro front b split nonempty
          have size' := congrArg List.length split
          have := List.length_pos_iff.mpr nonempty
          rw [List.length_append] at size'
          refine ih b.length (by omega) b (fun d last => before d ?_) rfl
          rw [split, List.getLast?_append, Option.mem_def.mp last]
          rfl
        cases body : inBody c with
        | false =>
            rw [List.cons_append, sentences_skip body, sentences_skip body]
            exact later [c] a rfl (List.cons_ne_nil _ _)
        | true =>
            obtain ⟨g, b, split, here⟩ := exists_sentence body a
            have there : SentenceAt [] g (b ++ s) := by
              obtain ⟨x, y, shape, nonempty, inX, inY, ended⟩ := here.shape
              refine ⟨⟨x, y, shape, nonempty, inX, inY, fun none d head => ?_⟩, here.before,
                fun d head => ?_⟩
              · cases b with
                | cons e b => exact ended none d (by simpa using head)
                | nil =>
                    -- a body that ends the first part has not ended
                    have last := List.getLast?_eq_getLast_of_ne_nil nonempty
                    have final := before (x.getLast nonempty) (by simp [split, shape, none, last])
                    rw [inX _ (List.getLast_mem nonempty)] at final
                    cases final
              · cases b with
                | cons e b => exact here.after d (by simpa using head)
                | nil => exact after d (by simpa using head)
            rw [split, List.append_assoc, sentences_next there, sentences_next here,
              later g b split here.ne_nil, List.cons_append]

/-- The sentences of a text are the places of it that have the shape of a sentence. -/
theorem mem_sentences_iff (s g : PyStr) :
    g ∈ sentences s ↔ ∃ a b, s = a ++ (g ++ b) ∧ SentenceAt a g b := by
  constructor
  · induction size : s.length using Nat.strong_induction_on generalizing s with
    | _ n ih =>
      intro member
      cases s with
      | nil => cases member
      | cons c s =>
          cases body : inBody c with
          | false =>
              rw [sentences_skip body] at member
              obtain ⟨a, b, split, here⟩ := ih s.length (by simp [← size]) s rfl member
              refine ⟨c :: a, b, by rw [split]; rfl, here.move fun d last => ?_⟩
              cases a with
              | nil =>
                  obtain rfl : c = d := by simpa using last
                  exact body
              | cons e a => exact here.before d (by simpa [List.getLast?_cons] using last)
          | true =>
              obtain ⟨g', b', split, first⟩ := exists_sentence body s
              rw [split, sentences_next first] at member
              rcases List.mem_cons.mp member with rfl | member
              · exact ⟨[], b', split, first⟩
              · have shorter := congrArg List.length split
                have := List.length_pos_iff.mpr first.ne_nil
                rw [List.length_append] at shorter
                obtain ⟨a, b, split', here⟩ := ih b'.length (by omega) b' rfl member
                refine ⟨g' ++ a, b, by rw [split, split', List.append_assoc], here.move ?_⟩
                intro d last
                rw [List.getLast?_append] at last
                cases more : a.getLast? with
                | some e =>
                    rw [more, Option.some_or] at last
                    exact here.before d (more ▸ last)
                | none =>
                    -- the first sentence ends in a stop, or a stop follows it
                    obtain rfl := List.getLast?_eq_none_iff.mp more
                    rw [more, Option.none_or] at last
                    obtain ⟨x, y, rfl, _, _, stops, ended⟩ := first.shape
                    cases y with
                    | cons e y =>
                        rw [List.getLast?_append, List.getLast?_cons, Option.some_or] at last
                        refine inBody_of_stop (stops d (List.mem_of_getLast? ?_))
                        rwa [List.getLast?_cons]
                    | nil =>
                        obtain ⟨x', y', shape, nonempty, inX, _⟩ := here.shape
                        obtain ⟨e, x', rfl⟩ := List.exists_cons_of_ne_nil nonempty
                        have notBody := ended rfl e (by rw [split', shape]; rfl)
                        rw [inX e (List.mem_cons_self ..)] at notBody
                        cases notBody
  · rintro ⟨a, b, rfl, here⟩
    have next : ∀ c ∈ (g ++ b).head?, isStop c = false := by
      obtain ⟨x, y, rfl, nonempty, body, _⟩ := here.shape
      obtain ⟨d, x, rfl⟩ := List.exists_cons_of_ne_nil nonempty
      intro c head
      obtain rfl : d = c := by simpa using head
      by_contra stop
      have notBody := inBody_of_stop (by simpa using stop)
      rw [body d (List.mem_cons_self ..)] at notBody
      cases notBody
    rw [sentences_append a (g ++ b) here.before next,
      sentences_next (here.move fun _ none => (by cases none))]
    simp

end GhostPour.N400
