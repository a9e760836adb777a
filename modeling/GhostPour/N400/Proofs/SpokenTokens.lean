/-
Module: GhostPour.N400.Proofs.SpokenTokens
Layer: Proofs
Purpose: The tokens of an utterance. A text is spelt by its tokens with gaps between them, each token a
  whole run of letters, a whole run of decimal digits or a single mark; and a token is told by its own
  characters, so that a text put in front of another keeps its tokens.
Trusted boundary: none
Main exports: isGapChar, tokensFrom, tokensFrom_gap, tokensFrom_letters, tokensFrom_digits,
  tokensFrom_mark, Spelt, spelt_tokensFrom, tokensFrom_append, fold_decimals
-/
import GhostPour.Library.RegexTokens
import GhostPour.N400.SpokenNumbers

namespace GhostPour.N400.SpokenNumbers

open Regex

section
variable [PyRuntime]

/-! ### Characters -/

/-- What no token has: white space and the underscore. -/
def isGapChar (c : Nat) : Bool := !isLetterChar c && !isDecimal c && !isMarkChar c

/-- A decimal digit is a word character, and no underscore. -/
theorem isWord_of_decimal {c : Nat} (decimal : isDecimal c = true) : isWord c = true := by
  rw [isWord, PyRuntime.isAlnum_decimal c decimal, Bool.true_or]

theorem letter_not_decimal {c : Nat} (letter : isLetterChar c = true) : isDecimal c = false := by
  rw [isLetterChar, Bool.and_eq_true, Bool.and_eq_true, Bool.not_eq_true'] at letter
  exact letter.1.2

theorem decimal_not_letter {c : Nat} (decimal : isDecimal c = true) : isLetterChar c = false := by
  rw [isLetterChar, decimal, Bool.not_true, Bool.and_false, Bool.false_and]

theorem mark_not_word {c : Nat} (mark : isMarkChar c = true) : isWord c = false := by
  rw [isMarkChar, Bool.and_eq_true, Bool.not_eq_true'] at mark
  exact mark.1

theorem mark_not_letter {c : Nat} (mark : isMarkChar c = true) : isLetterChar c = false := by
  rw [isLetterChar, mark_not_word mark, Bool.false_and, Bool.false_and]

theorem mark_not_decimal {c : Nat} (mark : isMarkChar c = true) : isDecimal c = false := by
  by_contra decimal
  rw [Bool.not_eq_false] at decimal
  have word := isWord_of_decimal decimal
  rw [mark_not_word mark] at word
  cases word

theorem gap_cases {c : Nat} (gap : isGapChar c = true) :
    isLetterChar c = false ∧ isDecimal c = false ∧ isMarkChar c = false := by
  rw [isGapChar, Bool.and_eq_true, Bool.and_eq_true, Bool.not_eq_true', Bool.not_eq_true',
    Bool.not_eq_true'] at gap
  exact ⟨gap.1.1, gap.1.2, gap.2⟩

/-! ### The pattern -/

theorem plain_token : token.plain = true := rfl

theorem run_token (s : PyStr) : run token ⟨none, s, []⟩ =
    run (plus (.set isLetterChar)) ⟨none, s, []⟩ ++
      (run (plus (.set isDecimal)) ⟨none, s, []⟩ ++ run (.set isMarkChar) ⟨none, s, []⟩) := by
  have pattern : token = .alt (plus (.set isLetterChar)) (.alt (plus digit) (.set isMarkChar)) := rfl
  have either : ∀ a b c, run (.alt a b) c = run a c ++ run b c := fun a b c => by rw [run]
  rw [pattern, either, either]
  rfl

theorem step_of_head {s : PyStr} {d : Cursor} (head : (run token ⟨none, s, []⟩).head? = some d)
    (shorter : d.after.length < s.length) : step token none s = some d := by
  rw [step, head]
  exact Option.filter_some_pos (by simpa using shorter)

/-! ### Tokens from a position on -/

/-- The tokens of a text that starts at a position. -/
def tokensFrom (i : Nat) (s : PyStr) : List Token :=
  (matchesFrom token i none 0 s).map fun m => ⟨m.start, m.text, fold m.text⟩

theorem tokens_eq (text : PyStr) : tokens text = tokensFrom 0 text := rfl

theorem tokensFrom_nil (i : Nat) : tokensFrom i [] = [] := by
  rw [tokensFrom, matchesFrom_nil]
  rfl

theorem tokensFrom_gap {c : Nat} (gap : isGapChar c = true) (i : Nat) (s : PyStr) :
    tokensFrom i (c :: s) = tokensFrom (i + 1) s := by
  obtain ⟨letter, decimal, mark⟩ := gap_cases gap
  have none_ : step token none (c :: s) = none := by
    rw [step, run_token, run_plus_none (by simpa using letter), run_plus_none (by simpa using decimal),
      run_set_none (by simpa using mark)]
    rfl
  rw [tokensFrom, matchesFrom_none i none_, matchesFrom_prev plain_token, tokensFrom]

theorem tokensFrom_gaps {gap : PyStr} (gaps : ∀ c ∈ gap, isGapChar c = true) (i : Nat) (s : PyStr) :
    tokensFrom i (gap ++ s) = tokensFrom (i + gap.length) s := by
  induction gap generalizing i with
  | nil => rfl
  | cons c gap ih =>
      rw [List.forall_mem_cons] at gaps
      have next : i + 1 + gap.length = i + (c :: gap).length := by
        rw [List.length_cons]
        omega
      rw [List.cons_append, tokensFrom_gap gaps.1, ih gaps.2, next]

theorem tokensFrom_here {w s : PyStr} {d : Cursor} (some_ : w ≠ [])
    (head : (run token ⟨none, w ++ s, []⟩).head? = some d) (after : d.after = s) (i : Nat) :
    tokensFrom i (w ++ s) = ⟨i, w, fold w⟩ :: tokensFrom (i + w.length) s := by
  have shorter : d.after.length < (w ++ s).length := by
    rw [after, List.length_append]
    have := List.length_pos_iff.mpr some_
    omega
  rw [tokensFrom, matchesFrom_here plain_token some_ (step_of_head head shorter) after, List.map_cons,
    tokensFrom]

/-- A run of letters is a token. -/
theorem tokensFrom_letters {w s : PyStr} (some_ : w ≠ []) (letters : ∀ c ∈ w, isLetterChar c = true)
    (stop : ∀ c ∈ s.head?, isLetterChar c = false) (i : Nat) :
    tokensFrom i (w ++ s) = ⟨i, w, fold w⟩ :: tokensFrom (i + w.length) s := by
  obtain ⟨d, head, after⟩ := run_plus_head some_ letters stop
  refine tokensFrom_here some_ ?_ after i
  rw [run_token, List.head?_append, head]
  rfl

/-- A run of decimal digits is a token. -/
theorem tokensFrom_digits {w s : PyStr} (some_ : w ≠ []) (decimals : ∀ c ∈ w, isDecimal c = true)
    (stop : ∀ c ∈ s.head?, isDecimal c = false) (i : Nat) :
    tokensFrom i (w ++ s) = ⟨i, w, fold w⟩ :: tokensFrom (i + w.length) s := by
  obtain ⟨d, head, after⟩ := run_plus_head some_ decimals stop
  refine tokensFrom_here some_ ?_ after i
  have other : ∀ c ∈ (w ++ s).head?, isLetterChar c = false := by
    obtain ⟨x, w, rfl⟩ := List.exists_cons_of_ne_nil some_
    intro c first
    cases first
    exact decimal_not_letter (decimals x List.mem_cons_self)
  rw [run_token, run_plus_none other, List.nil_append, List.head?_append, head]
  rfl

/-- A mark is a token by itself. -/
theorem tokensFrom_mark {c : Nat} (mark : isMarkChar c = true) (i : Nat) (s : PyStr) :
    tokensFrom i (c :: s) = ⟨i, [c], fold [c]⟩ :: tokensFrom (i + 1) s := by
  have single : run (.set isMarkChar) ⟨none, c :: s, []⟩ = [⟨some c, s, []⟩] := by
    rw [run]
    exact if_pos mark
  have head : (run token ⟨none, [c] ++ s, []⟩).head? = some ⟨some c, s, []⟩ := by
    rw [List.singleton_append, run_token, run_plus_none (by simpa using mark_not_letter mark),
      run_plus_none (by simpa using mark_not_decimal mark), single]
    rfl
  exact tokensFrom_here (List.cons_ne_nil c []) head rfl i

/-! ### Spelling -/

/-- What a token can be, in front of what follows it. -/
inductive Shape : PyStr → PyStr → Prop
  | letters {w s : PyStr} (some_ : w ≠ []) (each : ∀ c ∈ w, isLetterChar c = true)
      (stop : ∀ c ∈ s.head?, isLetterChar c = false) : Shape w s
  | digits {w s : PyStr} (some_ : w ≠ []) (each : ∀ c ∈ w, isDecimal c = true)
      (stop : ∀ c ∈ s.head?, isDecimal c = false) : Shape w s
  | mark {c : Nat} {s : PyStr} (mark : isMarkChar c = true) : Shape [c] s

/-- A text is spelt by tokens with gaps between them. -/
inductive Spelt : Nat → List Token → PyStr → Prop
  | done {i : Nat} {s : PyStr} (gaps : ∀ c ∈ s, isGapChar c = true) : Spelt i [] s
  | next {i : Nat} {gap raw s : PyStr} {toks : List Token} (gaps : ∀ c ∈ gap, isGapChar c = true)
      (shape : Shape raw s) (later : Spelt (i + gap.length + raw.length) toks s) :
      Spelt i (⟨i + gap.length, raw, fold raw⟩ :: toks) (gap ++ (raw ++ s))

theorem Shape.ne_nil {w s : PyStr} (shape : Shape w s) : w ≠ [] := by
  cases shape with
  | letters some_ => exact some_
  | digits some_ => exact some_
  | mark => exact List.cons_ne_nil _ _

theorem tokensFrom_shape {w s : PyStr} (shape : Shape w s) (i : Nat) :
    tokensFrom i (w ++ s) = ⟨i, w, fold w⟩ :: tokensFrom (i + w.length) s := by
  cases shape with
  | letters some_ each stop => exact tokensFrom_letters some_ each stop i
  | digits some_ each stop => exact tokensFrom_digits some_ each stop i
  | mark mark => exact tokensFrom_mark mark i s

/-- A spelling is by the tokens. -/
theorem tokensFrom_of_spelt {i : Nat} {toks : List Token} {s : PyStr} (spelt : Spelt i toks s) :
    tokensFrom i s = toks := by
  induction spelt with
  | @done i s gaps =>
      rw [← List.append_nil s, tokensFrom_gaps gaps, tokensFrom_nil]
  | next gaps shape later ih => rw [tokensFrom_gaps gaps, tokensFrom_shape shape, ih]

/-- A text in front of which there is no gap starts with a token. -/
theorem shape_of_front {c : Nat} (other : ¬isGapChar c = true) (s : PyStr) :
    ∃ w rest, c :: s = w ++ rest ∧ Shape w rest := by
  by_cases letter : isLetterChar c = true
  · obtain ⟨w, rest, split, some_, each, stop⟩ := front_of letter s
    exact ⟨w, rest, split, .letters some_ each stop⟩
  · by_cases decimal : isDecimal c = true
    · obtain ⟨w, rest, split, some_, each, stop⟩ := front_of decimal s
      exact ⟨w, rest, split, .digits some_ each stop⟩
    · refine ⟨[c], s, rfl, .mark ?_⟩
      simpa [isGapChar, letter, decimal] using other

theorem spelt_exists (n : Nat) : ∀ (i : Nat) (s : PyStr), s.length ≤ n → ∃ toks, Spelt i toks s := by
  induction n with
  | zero =>
      intro i s short
      rw [List.length_eq_zero_iff.mp (Nat.le_zero.mp short)]
      exact ⟨[], .done fun c member => absurd member List.not_mem_nil⟩
  | succ n ih =>
      intro i s short
      have split := (List.takeWhile_append_dropWhile (p := isGapChar) (l := s)).symm
      have gaps : ∀ c ∈ s.takeWhile isGapChar, isGapChar c = true := fun c => List.mem_takeWhile_imp
      cases rest : s.dropWhile isGapChar with
      | nil =>
          rw [rest, List.append_nil] at split
          rw [split]
          exact ⟨[], .done gaps⟩
      | cons c t =>
          have other : ¬isGapChar c = true := by
            have := List.head?_dropWhile_not isGapChar s
            rw [rest] at this
            simpa using this
          obtain ⟨w, later, front, shape⟩ := shape_of_front other t
          rw [rest, front] at split
          have fewer : later.length ≤ n := by
            have lengths := congrArg List.length split
            have some_ := List.length_pos_iff.mpr shape.ne_nil
            simp only [List.length_append] at lengths
            omega
          obtain ⟨toks, spelt⟩ := ih (i + (s.takeWhile isGapChar).length + w.length) later fewer
          rw [split]
          generalize s.takeWhile isGapChar = gap at gaps spelt
          exact ⟨_, .next gaps shape spelt⟩

/-- Every text is spelt by its tokens. -/
theorem spelt_tokensFrom (i : Nat) (s : PyStr) : Spelt i (tokensFrom i s) s := by
  obtain ⟨toks, spelt⟩ := spelt_exists s.length i s (le_refl _)
  rw [tokensFrom_of_spelt spelt]
  exact spelt

/-! ### Texts put together -/

/-- Two texts between which no run of letters and no run of digits goes on. -/
def Apart (s t : PyStr) : Prop :=
  ∀ a ∈ s.getLast?, ∀ b ∈ t.head?,
    ¬(isLetterChar a = true ∧ isLetterChar b = true) ∧ ¬(isDecimal a = true ∧ isDecimal b = true)

omit [PyRuntime] in
theorem getLast?_append_of_nonempty {s t : PyStr} (some_ : t ≠ []) : (s ++ t).getLast? = t.getLast? := by
  obtain ⟨c, last⟩ := Option.ne_none_iff_exists'.mp (mt List.getLast?_eq_none_iff.mp some_)
  rw [List.getLast?_append, last]
  rfl

theorem Shape.append {w s t : PyStr} (shape : Shape w s) (apart : s = [] → Apart w t) :
    Shape w (s ++ t) := by
  have stop : ∀ {p : Nat → Bool}, w ≠ [] → (∀ c ∈ w, p c = true) → (∀ c ∈ s.head?, p c = false) →
      (s = [] → ∀ a ∈ w.getLast?, ∀ b ∈ t.head?, ¬(p a = true ∧ p b = true)) →
      ∀ c ∈ (s ++ t).head?, p c = false := by
    intro p some_ each stop clash c head
    cases s with
    | cons x s => exact stop c head
    | nil =>
        obtain ⟨a, last⟩ := Option.ne_none_iff_exists'.mp (mt List.getLast?_eq_none_iff.mp some_)
        have other := clash rfl a last c head
        rw [Bool.eq_false_iff]
        exact fun holds => other ⟨each a (List.mem_of_getLast? last), holds⟩
  cases shape with
  | letters some_ each ends =>
      exact .letters some_ each (stop some_ each ends fun empty a last b head => (apart empty a last b head).1)
  | digits some_ each ends =>
      exact .digits some_ each (stop some_ each ends fun empty a last b head => (apart empty a last b head).2)
  | mark mark => exact .mark mark

/-- A text keeps its tokens in front of another. -/
theorem tokensFrom_append {i : Nat} {s t : PyStr} (apart : Apart s t) :
    tokensFrom i (s ++ t) = tokensFrom i s ++ tokensFrom (i + s.length) t := by
  have spelt := spelt_tokensFrom i s
  generalize tokensFrom i s = toks at spelt ⊢
  induction spelt with
  | done gaps => exact tokensFrom_gaps gaps _ _
  | @next i gap raw s toks gaps shape later ih =>
      have apart_later : Apart s t := by
        cases s with
        | nil => exact fun a last => nomatch last
        | cons c s =>
            rwa [Apart, getLast?_append_of_nonempty (by simp), getLast?_append_of_nonempty (by simp)] at apart
      have shape' : Shape raw (s ++ t) := by
        refine shape.append fun empty => ?_
        rwa [empty, List.append_nil, Apart, getLast?_append_of_nonempty shape.ne_nil] at apart
      have length : i + gap.length + raw.length + s.length = i + (gap ++ (raw ++ s)).length := by
        simp only [List.length_append]
        omega
      rw [List.append_assoc, List.append_assoc, tokensFrom_gaps gaps, tokensFrom_shape shape',
        ih apart_later, length, List.cons_append]

/-! ### Folded digits -/

theorem lower_nil : lower [] = [] := PyRuntime.lower_ascii [] fun _ member => absurd member List.not_mem_nil

/-- A decimal digit folds to itself, and what is past it is folded by itself. -/
theorem fold_decimal_cons {c : Nat} (decimal : isDecimal c = true) (s : PyStr) :
    fold (c :: s) = c :: fold s := by
  have lowered := PyRuntime.decimal_lower [] c s decimal
  rw [List.nil_append, lower_nil, List.nil_append] at lowered
  have decomposed := PyRuntime.decimal_nfd [] c (lower s) decimal
  rw [List.nil_append, PyRuntime.nfd_nil, List.nil_append] at decomposed
  rw [fold, lowered, decomposed,
    List.filter_cons_of_pos (by rw [PyRuntime.nonspacing_decimal c decimal]; rfl), fold]

theorem fold_nil : fold [] = [] := by
  rw [fold, lower_nil, PyRuntime.nfd_nil]
  rfl

theorem fold_decimals {w : PyStr} (decimals : ∀ c ∈ w, isDecimal c = true) : fold w = w := by
  induction w with
  | nil => exact fold_nil
  | cons c w ih =>
      rw [List.forall_mem_cons] at decimals
      rw [fold_decimal_cons decimals.1, ih decimals.2]

end

end GhostPour.N400.SpokenNumbers
