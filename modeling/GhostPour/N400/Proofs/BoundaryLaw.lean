/-
Module: GhostPour.N400.Proofs.BoundaryLaw
Layer: Proofs
Purpose: Where the sentence splitter ends a sentence. Its flag is set by the first terminator and cleared
  by the second, so what counts is whether the terminators before the white space are odd in number.
Trusted boundary: none
Main exports: Abbreviated, isRealBoundary_iff, trailingTerminators, feed_parity, boundaryLaw_iff,
  doubled_terminator_ends_nothing
-/
import GhostPour.N400.Proofs.Segments

namespace GhostPour.N400

/-! ### The end of a sentence in parts -/

theorem rdropWhile_append {p : Nat → Bool} {core tail : PyStr} (all : ∀ x ∈ tail, p x = true)
    (last : ∀ x ∈ core.getLast?, p x = false) : (core ++ tail).rdropWhile p = core := by
  induction tail using List.reverseRecOn with
  | nil =>
      rw [List.append_nil, List.rdropWhile_eq_self_iff]
      intro nonempty
      rw [last _ (List.getLast?_eq_getLast_of_ne_nil nonempty)]
      exact Bool.false_ne_true
  | append_singleton tail x ih =>
      rw [← List.append_assoc, List.rdropWhile_concat_pos _ _ x (all x (by simp))]
      exact ih fun y member => all y (List.mem_append_left _ member)

/-- A terminator that is not a second one, the terminators after it, and closers. -/
structure EndsIn (s core : PyStr) (t : Nat) (run closing : PyStr) : Prop where
  whole : s = core ++ (t :: run) ++ closing
  first : ∀ c ∈ core.getLast?, c ∉ terminals
  terminators : ∀ c ∈ t :: run, c ∈ terminals
  closers : ∀ c ∈ closing, c ∈ closers

theorem terminal_not_closer {c : Nat} (terminal : c ∈ terminals) : c ∉ closers := by
  revert c
  decide +kernel

/-- Every end of a sentence has these parts. -/
theorem EndsSentence.parts {s : PyStr} (ends : EndsSentence s) :
    ∃ core t run closing, EndsIn s core t run closing := by
  obtain ⟨front, t, closing, whole, terminal, closes⟩ := ends
  have parts : (front ++ [t]).rdropWhile (terminals.contains ·) ++
      (front ++ [t]).rtakeWhile (terminals.contains ·) = front ++ [t] :=
    List.rdropWhile_append_rtakeWhile ..
  have run : (front ++ [t]).rtakeWhile (terminals.contains ·) ≠ [] := by
    rw [List.rtakeWhile_concat_pos _ _ t (by simpa using terminal)]
    exact List.append_ne_nil_of_right_ne_nil _ (List.cons_ne_nil _ _)
  obtain ⟨t', run', first⟩ := List.exists_cons_of_ne_nil run
  refine ⟨(front ++ [t]).rdropWhile (terminals.contains ·), t', run', closing, ?_, ?_, ?_, closes⟩
  · rw [← first, parts, whole, List.append_assoc]
    rfl
  · intro c last terminal'
    obtain ⟨nonempty, same⟩ := List.mem_getLast?_eq_getLast last
    refine List.rdropWhile_last_not _ _ nonempty ?_
    rw [← same]
    simpa using terminal'
  · intro c member
    rw [← first] at member
    simpa using List.mem_rtakeWhile_imp member

namespace EndsIn

variable {s core run closing : PyStr} {t : Nat} (parts : EndsIn s core t run closing)
include parts

theorem rstrip_closers : rstripChars N400.closers s = core ++ (t :: run) := by
  rw [rstripChars, parts.whole]
  refine rdropWhile_append (fun c member => by simpa using parts.closers c member) fun c last => ?_
  have terminal : c ∈ terminals := by
    rw [List.getLast?_append_of_ne_nil _ (List.cons_ne_nil t run)] at last
    exact parts.terminators c (List.mem_of_getLast? last)
  simpa using terminal_not_closer terminal

theorem rstrip_terminals : rstripChars terminals (core ++ (t :: run)) = core :=
  rdropWhile_append (fun c member => by simpa using parts.terminators c member)
    fun c last => by simpa using parts.first c last

end EndsIn

section
variable [PyRuntime]

/-! ### Abbreviations -/

/-- A token, without the periods around its end, that is an abbreviation, an initial or a dotted
acronym. -/
def ShortToken (token : PyStr) : Prop :=
  token ∈ abbreviations ∨ (token.length = 1 ∧ token.all isAlpha = true) ∨
    ord '.' ∈ token ∧
      ∀ part ∈ splitAt '.' token, part ≠ [] → part.all isAlpha = true ∧ part.length = 1

/-- The text ends in a short token, a run of terminators that a period begins, and closers. -/
def Abbreviated (s : PyStr) : Prop :=
  ∃ core run closing, EndsIn s core (ord '.') run closing ∧ core ≠ [] ∧
    ShortToken (rstripChars (py ".") (lower (lastToken core)))

theorem abbreviated_iff {s core run closing : PyStr} {t : Nat}
    (parts : EndsIn s core t run closing) : Abbreviated s ↔
      core ≠ [] ∧ t = ord '.' ∧ ShortToken (rstripChars (py ".") (lower (lastToken core))) := by
  constructor
  · rintro ⟨core', run', closing', parts', nonempty, short⟩
    have body : core ++ (t :: run) = core' ++ (ord '.' :: run') :=
      parts.rstrip_closers.symm.trans parts'.rstrip_closers
    have same : core = core' := by
      rw [← parts.rstrip_terminals, body, parts'.rstrip_terminals]
    subst same
    exact ⟨nonempty, (List.cons.inj (List.append_cancel_left body)).1, short⟩
  · rintro ⟨nonempty, rfl, short⟩
    exact ⟨core, run, closing, parts, nonempty, short⟩

/-- What the splitter takes for a boundary is one that is no abbreviation. -/
theorem isRealBoundary_iff {s : PyStr} (ends : EndsSentence s) :
    isRealBoundary s = true ↔ ¬Abbreviated s := by
  obtain ⟨core, t, run, closing, parts⟩ := ends.parts
  rw [abbreviated_iff parts, isRealBoundary]
  dsimp only
  rw [parts.rstrip_closers, parts.rstrip_terminals, List.drop_left, List.head?_cons, Option.any_some]
  split
  · next empty => exact iff_of_true rfl fun short => short.1 empty
  · next nonempty =>
    rw [and_iff_right nonempty]
    split
    · next other => exact iff_of_true rfl fun short => by simp [short.1] at other
    · next period =>
      have period : t = ord '.' := by simpa using period
      rw [and_iff_right period, ShortToken]
      split
      · next listed => exact iff_of_false Bool.false_ne_true fun long => long (.inl listed)
      · next unlisted =>
        split
        · next initial =>
          exact iff_of_false Bool.false_ne_true fun long => long (.inr (.inl initial))
        · next more =>
          split
          · next acronym =>
            refine iff_of_false Bool.false_ne_true fun long => long (.inr (.inr ⟨acronym.1, ?_⟩))
            simpa [or_iff_not_imp_left] using acronym.2
          · next word =>
            refine iff_of_true rfl ?_
            rintro (listed | initial | acronym)
            · exact unlisted listed
            · exact more initial
            · refine word ⟨acronym.1, ?_⟩
              simpa [or_iff_not_imp_left] using acronym.2

end

/-! ### The run of terminators -/

/-- How many terminators are among the terminators and closers at the end of a text. -/
def trailingTerminators (s : PyStr) : Nat :=
  (s.rtakeWhile fun c => terminals.contains c || closers.contains c).countP (terminals.contains ·)

theorem trailingTerminators_terminal (s : PyStr) {c : Nat} (terminal : c ∈ terminals) :
    trailingTerminators (s ++ [c]) = trailingTerminators s + 1 := by
  rw [trailingTerminators, List.rtakeWhile_concat_pos _ _ c (by simp [terminal]),
    List.countP_append, List.countP_singleton, if_pos (by simpa using terminal)]
  rfl

theorem trailingTerminators_closer (s : PyStr) {c : Nat} (closer : c ∈ closers) :
    trailingTerminators (s ++ [c]) = trailingTerminators s := by
  have other : c ∉ terminals := fun terminal => terminal_not_closer terminal closer
  rw [trailingTerminators, List.rtakeWhile_concat_pos _ _ c (by simp [closer]),
    List.countP_append, List.countP_singleton, if_neg (by simpa using other)]
  rfl

theorem trailingTerminators_other (s : PyStr) {c : Nat} (other : c ∉ terminals)
    (other' : c ∉ closers) : trailingTerminators (s ++ [c]) = 0 := by
  rw [trailingTerminators, List.rtakeWhile_concat_neg _ _ c (by simp [other, other'])]
  rfl

theorem endsSentence_concat (s : PyStr) (c : Nat) :
    EndsSentence (s ++ [c]) ↔ c ∈ terminals ∨ c ∈ closers ∧ EndsSentence s := by
  constructor
  · rintro ⟨front, t, closing, whole, terminal, closes⟩
    rcases List.eq_nil_or_concat' closing with rfl | ⟨closing, d, rfl⟩
    · obtain ⟨-, same⟩ := List.append_inj' whole rfl
      exact .inl ((List.cons.inj same).1 ▸ terminal)
    · rw [← List.cons_append, ← List.append_assoc] at whole
      obtain ⟨rfl, same⟩ := List.append_inj' whole rfl
      refine .inr ⟨(List.cons.inj same).1 ▸ closes d (by simp), front, t, closing, rfl, terminal, ?_⟩
      exact fun e member => closes e (List.mem_append_left _ member)
  · rintro (terminal | ⟨closer, front, t, closing, rfl, terminal, closes⟩)
    · exact ⟨s, c, [], rfl, terminal, nofun⟩
    · refine ⟨front, t, closing ++ [c], by simp, terminal, ?_⟩
      intro d member
      rcases List.mem_append.mp member with member | member
      · exact closes d member
      · exact List.mem_singleton.mp member ▸ closer

/-- There are some exactly when the text ends in a terminator and closers. -/
theorem endsSentence_iff (s : PyStr) : EndsSentence s ↔ 0 < trailingTerminators s := by
  induction s using List.reverseRecOn with
  | nil =>
      refine iff_of_false ?_ (by decide)
      rintro ⟨front, t, closing, empty, _⟩
      exact absurd empty.symm (by simp)
  | append_singleton s c ih =>
      rw [endsSentence_concat]
      by_cases terminal : c ∈ terminals
      · rw [trailingTerminators_terminal s terminal]
        exact iff_of_true (.inl terminal) (Nat.succ_pos _)
      · rw [or_iff_right terminal]
        by_cases closer : c ∈ closers
        · rw [trailingTerminators_closer s closer, and_iff_right closer, ih]
        · rw [trailingTerminators_other s terminal closer]
          exact iff_of_false (fun ends => closer ends.1) (Nat.lt_irrefl 0)

/-- After an even number of terminators the next character makes it odd when it is one. -/
theorem odd_concat_iff {s : PyStr} (even : trailingTerminators s % 2 = 0) (c : Nat) :
    trailingTerminators (s ++ [c]) % 2 = 1 ↔ c ∈ terminals := by
  by_cases terminal : c ∈ terminals
  · rw [trailingTerminators_terminal s terminal]
    exact iff_of_true (by omega) terminal
  · refine iff_of_false ?_ terminal
    by_cases closer : c ∈ closers
    · rw [trailingTerminators_closer s closer]
      omega
    · rw [trailingTerminators_other s terminal closer]
      decide

/-- After an odd number of them a character that is no closer makes it even. -/
theorem even_concat {s : PyStr} (odd : trailingTerminators s % 2 = 1) {c : Nat}
    (other : c ∉ closers) : trailingTerminators (s ++ [c]) % 2 = 0 := by
  by_cases terminal : c ∈ terminals
  · rw [trailingTerminators_terminal s terminal]
    omega
  · rw [trailingTerminators_other s terminal other]

namespace SentenceSplitter

variable [PyRuntime]

/-- The flag is up when the terminators at the end are odd in number. -/
def Parity (st : SentenceSplitter) : Prop :=
  st.atBoundary = decide (trailingTerminators st.buf % 2 = 1)

omit [PyRuntime] in
theorem Parity.init : Parity init := rfl

theorem feedChar_parity {st : SentenceSplitter} (parity : Parity st) (ch : Nat) :
    Parity (st.feedChar ch).1 := by
  unfold feedChar
  split
  · next up =>
    have odd : trailingTerminators st.buf % 2 = 1 := by simpa [up] using parity.symm
    split
    · next closer =>
      show st.atBoundary = decide (trailingTerminators (st.buf ++ [ch]) % 2 = 1)
      rw [trailingTerminators_closer _ closer]
      exact parity
    · next other =>
      have down : decide (trailingTerminators (st.buf ++ [ch]) % 2 = 1) = false := by
        rw [even_concat odd other]
        rfl
      split
      · split
        · exact Parity.init
        · exact down.symm
      · split
        · exact down.symm
        · exact down.symm
  · next down =>
    have even : trailingTerminators st.buf % 2 = 0 := by
      have := parity.symm
      rw [Bool.not_eq_true] at down
      rw [down, decide_eq_false_iff_not] at this
      omega
    split
    · exact parity
    · exact decide_eq_decide.mpr (odd_concat_iff even ch).symm

/-! ### The law -/

/-- A text leaves the splitter in a state where the invariants hold. -/
theorem feed_holds (text : PyStr) {st : SentenceSplitter} (holds : Holds st) (parity : Parity st) :
    Holds (st.feed text).1 ∧ Parity (st.feed text).1 := by
  induction text generalizing st with
  | nil => exact ⟨holds, parity⟩
  | cons ch text ih =>
      rw [feed]
      refine ih ?_ (feedChar_parity parity ch)
      rcases feedChar_cases holds ch with ⟨_, _, same⟩ | ⟨_, _, done⟩ | ⟨_, next, _⟩
      · exact same ▸ holds
      · exact done ▸ Holds.init
      · exact next

/-- A sentence is reported. -/
def EndsAt (st : SentenceSplitter) (ch : Nat) : Prop := ∃ s, .sentence s ∈ (st.feedChar ch).2

/-- White space ends a sentence where the flag is up and the boundary is real. -/
theorem endsAt_space_iff (st : SentenceSplitter) {w : Nat} (space : isSpace w = true) :
    EndsAt st w ↔ st.atBoundary = true ∧ isRealBoundary st.buf = true := by
  have open_ : w ∉ closers := fun closer => by
    rw [closer_not_space closer] at space
    cases space
  unfold EndsAt feedChar
  split
  · next up =>
    rw [and_iff_right up]
    split
    · next real => exact iff_of_true ⟨_, List.mem_singleton_self _⟩ real
    · next short => exact iff_of_false (fun ⟨_, none_⟩ => List.not_mem_nil none_) short
  · next down =>
    refine iff_of_false ?_ fun both => down both.1
    rintro ⟨s, member⟩
    split at member
    · exact List.not_mem_nil member
    · dsimp only at member
      split at member
      · exact List.not_mem_nil member
      · cases List.mem_singleton.mp member

/-- The splitter ends the sentence at a character exactly when it ends in terminators and closers and in no
abbreviation. -/
def LawAt (st : SentenceSplitter) (ch : Nat) : Prop :=
  EndsAt st ch ↔ EndsSentence st.buf ∧ ¬Abbreviated st.buf

/-- The boundary law for a text: at every white space of it. -/
def BoundaryLaw (text : PyStr) : Prop :=
  ∀ front w back, text = front ++ w :: back → isSpace w = true →
    LawAt (SentenceSplitter.init.feed front).1 w

omit [PyRuntime] in
/-- A number of terminators that leaves the flag down although there are some. -/
def Doubled (s : PyStr) : Prop := 0 < trailingTerminators s ∧ trailingTerminators s % 2 = 0

theorem lawAt_iff {st : SentenceSplitter} (parity : Parity st) {w : Nat}
    (space : isSpace w = true) : LawAt st w ↔ (Doubled st.buf → Abbreviated st.buf) := by
  rw [LawAt, endsAt_space_iff st space, parity, decide_eq_true_iff]
  by_cases ends : EndsSentence st.buf
  · have some_ := (endsSentence_iff st.buf).mp ends
    rw [isRealBoundary_iff ends, and_iff_right ends, Doubled, and_iff_right some_]
    rcases Nat.mod_two_eq_zero_or_one (trailingTerminators st.buf) with even | odd
    · rw [even]
      simp
    · rw [odd]
      simp
  · have none_ : trailingTerminators st.buf = 0 := by
      rw [endsSentence_iff] at ends
      omega
    rw [Doubled, none_]
    simp [ends]

/-- The law holds of a text exactly when no sentence in it that is no abbreviation has, at white space, an
even number of terminators. -/
theorem boundaryLaw_iff (text : PyStr) : BoundaryLaw text ↔
    ∀ front w back, text = front ++ w :: back → isSpace w = true →
      Doubled (SentenceSplitter.init.feed front).1.buf →
        Abbreviated (SentenceSplitter.init.feed front).1.buf := by
  refine forall_congr' fun front => forall_congr' fun w => forall_congr' fun back =>
    imp_congr_right fun _ => imp_congr_right fun space => ?_
  exact lawAt_iff (feed_holds front Holds.init Parity.init).2 space

end SentenceSplitter

/-- A question mark and an exclamation mark: the second clears the flag that the first has set. -/
theorem doubled_terminator_ends_nothing :
    letI := PyRuntime.ascii
    ¬SentenceSplitter.BoundaryLaw (py "Really?! Yes.") := by
  let _ := PyRuntime.ascii
  intro law
  have split : py "Really?! Yes." = py "Really?!" ++ ord ' ' :: py "Yes." := by decide +kernel
  have space : isSpace (ord ' ') = true := by decide
  have invariants := SentenceSplitter.feed_holds (py "Really?!") .init .init
  have doubled : SentenceSplitter.Doubled (SentenceSplitter.init.feed (py "Really?!")).1.buf :=
    ⟨by decide +kernel, by decide +kernel⟩
  have ends : EndsSentence (SentenceSplitter.init.feed (py "Really?!")).1.buf :=
    (endsSentence_iff _).mpr doubled.1
  have short := (SentenceSplitter.lawAt_iff invariants.2 space).mp (law _ _ _ split space) doubled
  exact (isRealBoundary_iff ends).mp (by decide +kernel) short

end GhostPour.N400
