/-
Module: GhostPour.Library.RegexTokens
Layer: Library
Purpose: Tokens of three kinds: `[..]+|[..]+|[..]`, runs of two sets of characters and single marks, with
  everything else between them. The sets are apart, so that a text is spelt by its tokens in one way, and a
  text is cut where two characters of it do not belong to one run.
Trusted boundary: none
Main exports: Regex.run_plus_head, Regex.run_plus_none, Regex.front_of, Regex.tokenRuns,
  Regex.TokenSets, Regex.Spelling, Regex.findall_of_spelling, Regex.spelling, Regex.findall_append,
  Regex.findall_gaps, Regex.findall_run_append, Regex.Spelling.mem
-/
import GhostPour.Library.RegexSearch

namespace GhostPour

namespace Regex

/-! ### Runs -/

/-- A run of a set and what follows it. -/
theorem run_plus_head {p : Nat → Bool} {w s : PyStr} (some_ : w ≠ []) (inside : ∀ c ∈ w, p c = true)
    (stop : ∀ c ∈ s.head?, p c = false) :
    ∃ d, (run (plus (.set p)) ⟨none, w ++ s, []⟩).head? = some d ∧ d.after = s := by
  obtain ⟨x, w, rfl⟩ := List.exists_cons_of_ne_nil some_
  rw [List.forall_mem_cons] at inside
  obtain ⟨d, head, after, _⟩ := run_many_set_head p ⟨some x, w ++ s, []⟩
  have first : run (.set p) ⟨none, x :: (w ++ s), []⟩ = [⟨some x, w ++ s, []⟩] := by
    rw [run]
    exact if_pos inside.1
  refine ⟨d, ?_, ?_⟩
  · rw [List.cons_append, plus, run, first, List.flatMap_singleton]
    exact head
  · rw [after, List.dropWhile_append_of_pos inside.2]
    cases s with
    | nil => rfl
    | cons c s => rw [List.dropWhile_cons_of_neg (by rw [stop c rfl]; exact Bool.false_ne_true)]

theorem run_set_none {p : Nat → Bool} {s : PyStr} (other : ∀ c ∈ s.head?, p c = false) :
    run (.set p) ⟨none, s, []⟩ = [] :=
  StartsIn.set (fun _ holds => holds) none s [] other

theorem run_plus_none {p : Nat → Bool} {s : PyStr} (other : ∀ c ∈ s.head?, p c = false) :
    run (plus (.set p)) ⟨none, s, []⟩ = [] := by
  rw [plus, run, run_set_none other]
  rfl

/-- The run of a set at the front of a text. -/
theorem front_of {p : Nat → Bool} {c : Nat} (first : p c = true) (s : PyStr) :
    ∃ w rest, c :: s = w ++ rest ∧ w ≠ [] ∧ (∀ x ∈ w, p x = true) ∧ ∀ x ∈ rest.head?, p x = false := by
  refine ⟨(c :: s).takeWhile p, (c :: s).dropWhile p, List.takeWhile_append_dropWhile.symm, ?_,
    fun x member => List.mem_takeWhile_imp member, fun x head => ?_⟩
  · rw [List.takeWhile_cons_of_pos first]
    exact List.cons_ne_nil _ _
  · have := List.head?_dropWhile_not p (c :: s)
    rw [show ((c :: s).dropWhile p).head? = some x from head] at this
    simpa using this

/-! ### The pattern -/

/-- `[p]+|[q]+|[m]`. -/
def tokenRuns (p q m : Nat → Bool) : Regex := alts [plus (.set p), plus (.set q), .set m]

/-- The sets have no character in common. -/
structure TokenSets (p q m : Nat → Bool) : Prop where
  second : ∀ c, q c = true → p c = false
  mark : ∀ c, m c = true → p c = false ∧ q c = false

/-- How tokens and the characters between them spell a text. -/
inductive Spelling (p q m : Nat → Bool) : List PyStr → PyStr → Prop
  | done : Spelling p q m [] []
  | gap {c : Nat} {toks : List PyStr} {s : PyStr} (first : p c = false) (second : q c = false)
      (mark : m c = false) (later : Spelling p q m toks s) : Spelling p q m toks (c :: s)
  | first {w s : PyStr} {toks : List PyStr} (some_ : w ≠ []) (each : ∀ c ∈ w, p c = true)
      (stop : ∀ c ∈ s.head?, p c = false) (later : Spelling p q m toks s) :
      Spelling p q m (w :: toks) (w ++ s)
  | second {w s : PyStr} {toks : List PyStr} (some_ : w ≠ []) (each : ∀ c ∈ w, q c = true)
      (stop : ∀ c ∈ s.head?, q c = false) (later : Spelling p q m toks s) :
      Spelling p q m (w :: toks) (w ++ s)
  | mark {c : Nat} {s : PyStr} {toks : List PyStr} (mark : m c = true) (later : Spelling p q m toks s) :
      Spelling p q m ([c] :: toks) (c :: s)

section
variable {p q m : Nat → Bool}

theorem plain_tokenRuns : (tokenRuns p q m).plain = true := rfl

theorem run_tokenRuns (s : PyStr) : run (tokenRuns p q m) ⟨none, s, []⟩ =
    run (plus (.set p)) ⟨none, s, []⟩ ++
      (run (plus (.set q)) ⟨none, s, []⟩ ++ run (.set m) ⟨none, s, []⟩) := by
  have pattern : tokenRuns p q m = .alt (plus (.set p)) (.alt (plus (.set q)) (.set m)) := rfl
  have either : ∀ a b c, run (.alt a b) c = run a c ++ run b c := fun a b c => by rw [run]
  rw [pattern, either, either]

/-- A match at the front is the first of all matches. -/
theorem findall_here {r : Regex} (ok : r.plain = true) {w s : PyStr} {d : Cursor} (some_ : w ≠ [])
    (head : (run r ⟨none, w ++ s, []⟩).head? = some d) (after : d.after = s) :
    findall r (w ++ s) = w :: findall r s := by
  have shorter : d.after.length < (w ++ s).length := by
    rw [after, List.length_append]
    have := List.length_pos_iff.mpr some_
    omega
  have first : step r none (w ++ s) = some d := by
    rw [step, head]
    exact Option.filter_some_pos (by simpa using shorter)
  exact findall_match ok some_ first after

/-- A spelling is by the matches. -/
theorem findall_of_spelling (apart : TokenSets p q m) {toks : List PyStr} {s : PyStr}
    (spelt : Spelling p q m toks s) : findall (tokenRuns p q m) s = toks := by
  induction spelt with
  | done => rfl
  | @gap c toks s first second mark later ih =>
      have none_ : step (tokenRuns p q m) none (c :: s) = none := by
        rw [step, run_tokenRuns, run_plus_none (by simpa using first), run_plus_none (by simpa using second),
          run_set_none (by simpa using mark)]
        rfl
      rw [findall_skip plain_tokenRuns none_, ih]
  | @first w s toks some_ each stop later ih =>
      obtain ⟨d, head, after⟩ := run_plus_head some_ each stop
      have found : (run (tokenRuns p q m) ⟨none, w ++ s, []⟩).head? = some d := by
        rw [run_tokenRuns, List.head?_append, head]
        rfl
      rw [findall_here plain_tokenRuns some_ found after, ih]
  | @second w s toks some_ each stop later ih =>
      obtain ⟨d, head, after⟩ := run_plus_head some_ each stop
      have other : ∀ c ∈ (w ++ s).head?, p c = false := by
        obtain ⟨x, w, rfl⟩ := List.exists_cons_of_ne_nil some_
        intro c first
        cases first
        exact apart.second x (each x List.mem_cons_self)
      have found : (run (tokenRuns p q m) ⟨none, w ++ s, []⟩).head? = some d := by
        rw [run_tokenRuns, run_plus_none other, List.nil_append, List.head?_append, head]
        rfl
      rw [findall_here plain_tokenRuns some_ found after, ih]
  | @mark c s toks mark later ih =>
      have single : run (.set m) ⟨none, c :: s, []⟩ = [⟨some c, s, []⟩] := by
        rw [run]
        exact if_pos mark
      have found : (run (tokenRuns p q m) ⟨none, [c] ++ s, []⟩).head? = some ⟨some c, s, []⟩ := by
        rw [List.singleton_append, run_tokenRuns, run_plus_none (by simpa using (apart.mark c mark).1),
          run_plus_none (by simpa using (apart.mark c mark).2), single]
        rfl
      have here := findall_here plain_tokenRuns (List.cons_ne_nil c []) found rfl
      rw [List.singleton_append] at here
      rw [here, ih]

theorem spelling_exists (p q m : Nat → Bool) (n : Nat) : ∀ s : PyStr, s.length ≤ n →
    ∃ toks, Spelling p q m toks s := by
  induction n with
  | zero =>
      intro s short
      rw [List.length_eq_zero_iff.mp (Nat.le_zero.mp short)]
      exact ⟨[], .done⟩
  | succ n ih =>
      intro s short
      cases s with
      | nil => exact ⟨[], .done⟩
      | cons c s =>
          have shorter : ∀ {w rest : PyStr}, c :: s = w ++ rest → w ≠ [] → rest.length ≤ n := by
            intro w rest split some_
            have total := congrArg List.length split
            have := List.length_pos_iff.mpr some_
            rw [List.length_append] at total
            omega
          by_cases first : p c = true
          · obtain ⟨w, rest, split, some_, each, stop⟩ := front_of first s
            obtain ⟨toks, later⟩ := ih rest (shorter split some_)
            exact ⟨w :: toks, split ▸ .first some_ each stop later⟩
          · by_cases second : q c = true
            · obtain ⟨w, rest, split, some_, each, stop⟩ := front_of second s
              obtain ⟨toks, later⟩ := ih rest (shorter split some_)
              exact ⟨w :: toks, split ▸ .second some_ each stop later⟩
            · obtain ⟨toks, later⟩ := ih s (Nat.le_of_succ_le_succ short)
              by_cases mark : m c = true
              · exact ⟨[c] :: toks, .mark mark later⟩
              · exact ⟨toks, .gap (by simpa using first) (by simpa using second) (by simpa using mark)
                  later⟩

/-- A text is spelt by its tokens. -/
theorem spelling (apart : TokenSets p q m) (s : PyStr) : Spelling p q m (findall (tokenRuns p q m) s) s := by
  obtain ⟨toks, spelt⟩ := spelling_exists p q m s.length s (le_refl _)
  rwa [findall_of_spelling apart spelt]

/-- A spelling goes on after a character that no run would take further. -/
theorem Spelling.append {toks later : List PyStr} {a b : PyStr} (front : Spelling p q m toks a)
    (back : Spelling p q m later b) (last : ∀ c ∈ a.getLast?, p c = false ∧ q c = false) :
    Spelling p q m (toks ++ later) (a ++ b) := by
  -- A run that does not end the text stops where it did.
  have stays : ∀ {r : Nat → Bool} {w s : PyStr}, (∀ c ∈ w, r c = true) → w ≠ [] →
      (∀ c ∈ (w ++ s).getLast?, r c = false) → (∀ c ∈ s.head?, r c = false) →
      ∀ c ∈ (s ++ b).head?, r c = false := by
    intro r w s each some_ ends stop
    cases s with
    | nil =>
        rw [List.append_nil, List.getLast?_eq_some_getLast some_] at ends
        have out := ends _ rfl
        rw [each _ (List.getLast_mem some_)] at out
        cases out
    | cons x s => exact stop
  have tail : ∀ {w s : PyStr}, (∀ c ∈ (w ++ s).getLast?, p c = false ∧ q c = false) →
      ∀ c ∈ s.getLast?, p c = false ∧ q c = false := by
    intro w s ends c member
    apply ends
    rw [List.getLast?_append, Option.mem_def.mp member]
    rfl
  induction front with
  | done => exact back
  | @gap c toks s first second mark _ ih =>
      exact .gap first second mark (ih (@tail [c] s last))
  | @first w s toks some_ each stop _ ih =>
      rw [List.append_assoc]
      exact .first some_ each (stays each some_ (fun c member => (last c member).1) stop) (ih (tail last))
  | @second w s toks some_ each stop _ ih =>
      rw [List.append_assoc]
      exact .second some_ each (stays each some_ (fun c member => (last c member).2) stop)
        (ih (tail last))
  | @mark c s toks mark _ ih => exact .mark mark (ih (@tail [c] s last))

theorem findall_append (apart : TokenSets p q m) {a : PyStr} (b : PyStr)
    (last : ∀ c ∈ a.getLast?, p c = false ∧ q c = false) :
    findall (tokenRuns p q m) (a ++ b) = findall (tokenRuns p q m) a ++ findall (tokenRuns p q m) b :=
  findall_of_spelling apart ((spelling apart a).append (spelling apart b) last)

/-- What is in no set has no tokens. -/
theorem findall_gaps (apart : TokenSets p q m) {gap : PyStr}
    (gaps : ∀ c ∈ gap, p c = false ∧ q c = false ∧ m c = false) (s : PyStr) :
    findall (tokenRuns p q m) (gap ++ s) = findall (tokenRuns p q m) s := by
  induction gap with
  | nil => rfl
  | cons c gap ih =>
      rw [List.forall_mem_cons] at gaps
      rw [← ih gaps.2]
      exact findall_of_spelling apart (.gap gaps.1.1 gaps.1.2.1 gaps.1.2.2 (spelling apart (gap ++ s)))

/-- A run of the first set in front of another character is a token. -/
theorem findall_run_append (apart : TokenSets p q m) {w s : PyStr} (some_ : w ≠ [])
    (each : ∀ c ∈ w, p c = true) (stop : ∀ c ∈ s.head?, p c = false) :
    findall (tokenRuns p q m) (w ++ s) = w :: findall (tokenRuns p q m) s :=
  findall_of_spelling apart (.first some_ each stop (spelling apart s))

/-- A token is a run or a mark, and a piece of the text; a run of the first set stands between characters
that are not in it. -/
theorem Spelling.mem (apart : TokenSets p q m) {toks : List PyStr} {s t : PyStr} (spelt : Spelling p q m toks s)
    (member : t ∈ toks) :
    (∃ front back, s = front ++ (t ++ back) ∧ t ≠ [] ∧ (∀ c ∈ t, p c = true) ∧
      (∀ c ∈ front.getLast?, p c = false) ∧ ∀ c ∈ back.head?, p c = false) ∨
    (t ≠ [] ∧ (∀ c ∈ t, q c = true) ∧ ∀ c ∈ t, c ∈ s) ∨ ∃ c, m c = true ∧ t = [c] := by
  -- A token of the rest of a text, behind what comes before the rest.
  have behind : ∀ {w s : PyStr}, (∀ c ∈ w.getLast?, p c = false ∨ ∀ x ∈ s.head?, p x = false) →
      ((∃ front back, s = front ++ (t ++ back) ∧ t ≠ [] ∧ (∀ c ∈ t, p c = true) ∧
        (∀ c ∈ front.getLast?, p c = false) ∧ ∀ c ∈ back.head?, p c = false) ∨
      (t ≠ [] ∧ (∀ c ∈ t, q c = true) ∧ ∀ c ∈ t, c ∈ s) ∨ ∃ c, m c = true ∧ t = [c]) →
      (∃ front back, w ++ s = front ++ (t ++ back) ∧ t ≠ [] ∧ (∀ c ∈ t, p c = true) ∧
        (∀ c ∈ front.getLast?, p c = false) ∧ ∀ c ∈ back.head?, p c = false) ∨
      (t ≠ [] ∧ (∀ c ∈ t, q c = true) ∧ ∀ c ∈ t, c ∈ w ++ s) ∨ ∃ c, m c = true ∧ t = [c] := by
    intro w s edge later
    rcases later with ⟨front, back, split, some_, each, before, after⟩ | ⟨some_, each, within⟩ | mark
    · refine Or.inl ⟨w ++ front, back, by rw [split, List.append_assoc], some_, each, ?_, after⟩
      intro c last
      cases front with
      | nil =>
          rw [List.append_nil] at last
          rcases edge c last with out | starts
          · exact out
          · obtain ⟨x, t', rfl⟩ := List.exists_cons_of_ne_nil some_
            have out := starts x (by rw [split]; rfl)
            rw [each x List.mem_cons_self] at out
            cases out
      | cons x front =>
          rw [List.getLast?_append_of_ne_nil _ (List.cons_ne_nil x front)] at last
          exact before c last
    · exact Or.inr (Or.inl ⟨some_, each, fun c inside => List.mem_append_right w (within c inside)⟩)
    · exact Or.inr (Or.inr mark)
  induction spelt with
  | done => cases member
  | @gap c toks s first _ _ _ ih =>
      apply @behind [c] s _ (ih member)
      intro x last
      cases last
      exact Or.inl first
  | @first w s toks some_ each stop _ ih =>
      rcases List.mem_cons.mp member with rfl | later
      · refine Or.inl ⟨[], s, rfl, some_, each, ?_, stop⟩
        intro c last
        cases last
      · exact behind (fun _ _ => Or.inr stop) (ih later)
  | @second w s toks some_ each stop _ ih =>
      rcases List.mem_cons.mp member with rfl | later
      · exact Or.inr (Or.inl ⟨some_, each, fun c inside => List.mem_append_left s inside⟩)
      · apply behind _ (ih later)
        intro c last
        exact Or.inl (apart.second c (each c (List.mem_of_getLast? last)))
  | @mark c s toks mark _ ih =>
      rcases List.mem_cons.mp member with rfl | later
      · exact Or.inr (Or.inr ⟨c, mark, rfl⟩)
      · apply @behind [c] s _ (ih later)
        intro x last
        cases last
        exact Or.inl (apart.mark c mark).1

end

end Regex

end GhostPour
