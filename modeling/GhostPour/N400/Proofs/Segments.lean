/-
Module: GhostPour.N400.Proofs.Segments
Layer: Proofs
Purpose: What the splitter does to a whole text, as a relation: a text is its units in order, with white space
  around them, and every unit but the last ends in a terminator and its closers. What the sentence splitter
  reports over a whole text, however it is cut: one start before each sentence, and sentences that lie one
  after the other in the text with nothing but white space around them.
Trusted boundary: none
Main exports: Segmented, splitSentences_segmented, Covers, splitterEvents, feedChunks_eq_feed,
  splitterEvents_cover
-/
import GhostPour.N400.SentenceSplitter

namespace GhostPour.N400

/-- Only white space. -/
abbrev Spaces (s : PyStr) : Prop := ∀ c ∈ s, isSpace c = true

theorem Spaces.nil : Spaces [] := fun _ none => (by cases none)

/-- A text ends in a terminator and closers. -/
def EndsSentence (s : PyStr) : Prop :=
  ∃ front t cl, s = front ++ t :: cl ∧ t ∈ terminals ∧ ∀ c ∈ cl, c ∈ closers

/-- A text and the units it is cut into. -/
inductive Segmented : PyStr → List PyStr → Prop where
  | empty {lead} (spaces : Spaces lead) : Segmented lead []
  | last {lead body trail} (spaces : Spaces lead) (spaces' : Spaces trail) :
      Segmented (lead ++ (body ++ trail)) [body]
  | cut {lead unit w rest units} (spaces : Spaces lead) (ends : EndsSentence unit)
      (space : isSpace w = true) (later : Segmented rest units) :
      Segmented (lead ++ (unit ++ w :: rest)) (unit :: units)

theorem Segmented.space {c : Nat} {text : PyStr} {units : List PyStr} (space : isSpace c = true)
    (seg : Segmented text units) : Segmented (c :: text) units := by
  have more : ∀ {lead : PyStr}, Spaces lead → Spaces (c :: lead) := by
    intro lead spaces d member
    rcases List.mem_cons.mp member with rfl | member
    · exact space
    · exact spaces d member
  cases seg with
  | empty spaces => exact .empty (more spaces)
  | last spaces spaces' => exact .last (more spaces) spaces'
  | cut spaces ends space later => exact .cut (more spaces) ends space later

/-! ### Stripping -/

theorem closer_not_space {c : Nat} (closer : c ∈ closers) : isSpace c = false := by
  revert c
  decide +kernel

theorem terminal_not_space {c : Nat} (terminal : c ∈ terminals) : isSpace c = false := by
  revert c
  decide +kernel

theorem EndsSentence.last {s : PyStr} (ends : EndsSentence s) :
    ∃ c, s.getLast? = some c ∧ isSpace c = false := by
  obtain ⟨front, t, cl, rfl, terminal, closing⟩ := ends
  rw [List.getLast?_append]
  cases last : cl.getLast? with
  | none =>
      obtain rfl := List.getLast?_eq_none_iff.mp last
      exact ⟨t, rfl, terminal_not_space terminal⟩
  | some c =>
      refine ⟨c, ?_, closer_not_space (closing c (List.mem_of_getLast? last))⟩
      rw [List.getLast?_cons, last]
      rfl

/-- A text that starts with ink strips to a start of it. -/
theorem strip_of_head {c : Nat} {rest : PyStr} (ink : isSpace c = false) :
    ∃ trail, c :: rest = strip (c :: rest) ++ trail ∧ Spaces trail ∧ strip (c :: rest) ≠ [] := by
  have front : (c :: rest).dropWhile isSpace = c :: rest := by
    rw [List.dropWhile_cons_of_neg (by simp [ink])]
  refine ⟨(c :: rest).rtakeWhile isSpace, ?_, ?_, ?_⟩
  · rw [strip, stripBy, front]
    exact (List.rdropWhile_append_rtakeWhile ..).symm
  · intro d member
    exact List.mem_rtakeWhile_imp member
  · rw [strip, stripBy, front, Ne, List.rdropWhile_eq_nil_iff]
    intro spaces
    have := spaces c (List.mem_cons_self ..)
    rw [ink] at this
    cases this

theorem strip_of_ends {c : Nat} {rest : PyStr} (ink : isSpace c = false)
    (ends : EndsSentence (c :: rest)) : strip (c :: rest) = c :: rest := by
  obtain ⟨d, last, ink'⟩ := ends.last
  have front : (c :: rest).dropWhile isSpace = c :: rest := by
    rw [List.dropWhile_cons_of_neg (by simp [ink])]
  rw [strip, stripBy, front, List.rdropWhile_eq_self_iff]
  intro nonempty
  rw [List.getLast?_eq_getLast_of_ne_nil nonempty, Option.some.injEq] at last
  rw [last, ink']
  decide

/-! ### The run of the splitter -/

namespace SentenceSplitter

/-- What holds between two characters. -/
structure Holds (st : SentenceSplitter) : Prop where
  idle : st.started = false → st = init
  inside : st.started = true → ∃ c rest, st.buf = c :: rest ∧ isSpace c = false
  boundary : st.atBoundary = true → EndsSentence st.buf

theorem Holds.init : Holds init where
  idle _ := rfl
  inside started := by cases started
  boundary boundary := by cases boundary

variable [PyRuntime]

/-- A character is skipped, ends a sentence, or joins the one that is read. -/
theorem feedChar_cases {st : SentenceSplitter} (holds : Holds st) (ch : Nat) :
    (isSpace ch = true ∧ st.buf = [] ∧ st.feedChar ch = (st, [])) ∨
    (isSpace ch = true ∧ EndsSentence st.buf ∧
      st.feedChar ch = (SentenceSplitter.init, [.sentence st.buf])) ∨
    ((st.feedChar ch).1.buf = st.buf ++ [ch] ∧ Holds (st.feedChar ch).1 ∧
      sentencesOf (st.feedChar ch).2 = []) := by
  cases started : st.started with
  | false =>
      obtain rfl := holds.idle started
      cases space : isSpace ch with
      | true => exact .inl ⟨rfl, rfl, by simp [feedChar, SentenceSplitter.init, space]⟩
      | false =>
          refine .inr (.inr ⟨by simp [feedChar, SentenceSplitter.init, space], ?_,
            by simp [feedChar, SentenceSplitter.init, space, sentencesOf]⟩)
          simp only [feedChar, SentenceSplitter.init, space]
          exact ⟨fun idle => (by cases idle), fun _ => ⟨ch, [], rfl, space⟩, fun boundary =>
            ⟨[], ch, [], rfl, by simpa using boundary, by simp⟩⟩
  | true =>
      obtain ⟨c, rest, buf, ink⟩ := holds.inside started
      have inside : ∀ b, Holds ⟨st.buf ++ [ch], true, b⟩ ↔
          (b = true → EndsSentence (st.buf ++ [ch])) := by
        intro b
        refine ⟨Holds.boundary, fun boundary => ⟨fun idle => (by cases idle), fun _ => ?_, boundary⟩⟩
        exact ⟨c, rest ++ [ch], by rw [buf]; rfl, ink⟩
      cases boundary : st.atBoundary with
      | false =>
          refine .inr (.inr ⟨by simp [feedChar, boundary, started], ?_,
            by simp [feedChar, boundary, started, sentencesOf]⟩)
          simp only [feedChar, boundary, started]
          refine (inside _).mpr fun terminal => ?_
          exact ⟨st.buf, ch, [], rfl, by simpa using terminal, by simp⟩
      | true =>
          have ends := holds.boundary boundary
          by_cases closer : ch ∈ closers
          · refine .inr (.inr ⟨by simp [feedChar, boundary, closer], ?_,
              by simp [feedChar, boundary, closer, sentencesOf]⟩)
            simp only [feedChar, boundary, closer, if_true, started]
            obtain ⟨front, t, cl, split, terminal, closing⟩ := ends
            refine (inside _).mpr fun _ => ⟨front, t, cl ++ [ch], by simp [split], terminal, ?_⟩
            intro d member
            rcases List.mem_append.mp member with member | member
            · exact closing d member
            · exact List.mem_singleton.mp member ▸ closer
          · cases space : isSpace ch with
            | false =>
                refine .inr (.inr ⟨by simp [feedChar, boundary, closer, space, started], ?_,
                  by simp [feedChar, boundary, closer, space, started, sentencesOf]⟩)
                simp only [feedChar, boundary, closer, space, started, if_true, if_false]
                exact (inside false).mpr fun no => (by cases no)
            | true =>
                cases real : isRealBoundary st.buf with
                | true =>
                    have whole : strip st.buf = st.buf := by
                      rw [buf] at ends ⊢
                      exact strip_of_ends ink ends
                    exact .inr (.inl ⟨rfl, ends,
                      by simp [feedChar, boundary, closer, space, real, whole]⟩)
                | false =>
                    refine .inr (.inr ⟨by simp [feedChar, boundary, closer, space, real], ?_,
                      by simp [feedChar, boundary, closer, space, real, sentencesOf]⟩)
                    simp only [feedChar, boundary, closer, space, real, started, if_true, if_false]
                    exact (inside false).mpr fun no => (by cases no)

/-- From any state, the text read so far and the text to come are cut into the units to come. -/
theorem feed_segmented (text : PyStr) {st : SentenceSplitter} (holds : Holds st) :
    Segmented (st.buf ++ text) (sentencesOf ((st.feed text).2 ++ (st.feed text).1.close)) := by
  induction text generalizing st with
  | nil =>
      rw [feed, List.nil_append, List.append_nil]
      cases started : st.started with
      | false =>
          obtain rfl := holds.idle started
          exact .empty .nil
      | true =>
          obtain ⟨c, rest, buf, ink⟩ := holds.inside started
          obtain ⟨trail, split, spaces, nonempty⟩ := @strip_of_head c rest ink
          rw [close, buf, if_neg nonempty]
          have seg := @Segmented.last [] (strip (c :: rest)) trail .nil spaces
          rwa [List.nil_append, ← split] at seg
  | cons ch text ih =>
      rw [feed, List.append_assoc, sentencesOf_append]
      rcases feedChar_cases holds ch with ⟨space, buf, same⟩ | ⟨space, ends, done⟩ | ⟨buf, next, none⟩
      · rw [same]
        have seg := ih holds
        rw [buf, List.nil_append] at seg ⊢
        exact seg.space space
      · rw [done]
        exact @Segmented.cut [] st.buf ch text _ .nil ends space (ih Holds.init)
      · rw [none, List.nil_append]
        have seg := ih next
        rwa [buf, List.append_assoc] at seg

end SentenceSplitter

/-- The units of a text. -/
theorem splitSentences_segmented [PyRuntime] (text : PyStr) :
    Segmented text (splitSentences text) :=
  SentenceSplitter.feed_segmented text .init

end GhostPour.N400

namespace GhostPour.N400

/-- A text without white space around it, and not empty. -/
structure Trimmed (s : PyStr) : Prop where
  nonempty : s ≠ []
  bare : strip s = s

/-- Nothing, or white space first. -/
def StartsWithSpace (s : PyStr) : Prop := ∀ c ∈ s.head?, isSpace c = true

/-- The sentences lie in the text one after the other, apart by white space, and everything around them
is white space. -/
inductive Covers : PyStr → List PyStr → Prop where
  | spaces {lead} (spaces : Spaces lead) : Covers lead []
  | sentence {lead s rest sentences} (spaces : Spaces lead) (trimmed : Trimmed s)
      (apart : StartsWithSpace rest) (later : Covers rest sentences) :
      Covers (lead ++ (s ++ rest)) (s :: sentences)

theorem Covers.space {c : Nat} {text : PyStr} {sentences : List PyStr} (space : isSpace c = true)
    (covers : Covers text sentences) : Covers (c :: text) sentences := by
  have more : ∀ {lead : PyStr}, Spaces lead → Spaces (c :: lead) := by
    intro lead spaces d member
    rcases List.mem_cons.mp member with rfl | member
    · exact space
    · exact spaces d member
  cases covers with
  | spaces spaces => exact .spaces (more spaces)
  | sentence spaces trimmed apart later => exact .sentence (more spaces) trimmed apart later

/-- A sentence at the very start. -/
theorem Covers.first {s rest : PyStr} {sentences : List PyStr} (trimmed : Trimmed s)
    (apart : StartsWithSpace rest) (later : Covers rest sentences) :
    Covers (s ++ rest) (s :: sentences) :=
  @Covers.sentence [] s rest sentences .nil trimmed apart later

theorem startsWithSpace_of_spaces {s : PyStr} (spaces : Spaces s) : StartsWithSpace s :=
  fun c first => spaces c (List.mem_of_mem_head? first)

/-- What is left of a text that starts with ink is trimmed. -/
theorem trimmed_strip {c : Nat} {rest : PyStr} (ink : isSpace c = false) :
    Trimmed (strip (c :: rest)) := by
  obtain ⟨trail, whole, spaces, nonempty⟩ := @strip_of_head c rest ink
  refine ⟨nonempty, ?_⟩
  obtain ⟨d, tail, first⟩ := List.exists_cons_of_ne_nil nonempty
  have same : d = c := by
    rw [first, List.cons_append] at whole
    exact (List.cons.inj whole).1.symm
  have front : (d :: tail).dropWhile isSpace = d :: tail := by
    rw [List.dropWhile_cons_of_neg (by simp [same, ink])]
  have back : strip (c :: rest) = ((c :: rest).dropWhile isSpace).rdropWhile isSpace := rfl
  rw [strip, stripBy, first, front, ← first, back, List.rdropWhile_idempotent]

/-- Each sentence after its start. -/
def announced (sentences : List PyStr) : List SplitEvent :=
  sentences.flatMap fun s => [.started, .sentence s]

namespace SentenceSplitter

variable [PyRuntime]

/-! ### Chunks -/

/-- `feed` on each chunk of a text. -/
def feedChunks : SentenceSplitter → List PyStr → SentenceSplitter × List SplitEvent
  | st, [] => (st, [])
  | st, chunk :: chunks =>
      ((feedChunks (st.feed chunk).1 chunks).1,
        (st.feed chunk).2 ++ (feedChunks (st.feed chunk).1 chunks).2)

/-- How a text is cut does not matter. -/
theorem feedChunks_eq_feed (st : SentenceSplitter) (chunks : List PyStr) :
    st.feedChunks chunks = st.feed chunks.flatten := by
  induction chunks generalizing st with
  | nil => rfl
  | cons chunk chunks ih => rw [feedChunks, List.flatten_cons, feed_append, ih]

/-! ### Starts -/

/-- A character that joins the sentence starts it when it is the first. -/
theorem feedChar_joins {st : SentenceSplitter} (holds : Holds st) {ch : Nat}
    (joins : (st.feedChar ch).1.buf = st.buf ++ [ch]) :
    (st.feedChar ch).1.started = true ∧
      (st.feedChar ch).2 = if st.started then [] else [.started] := by
  cases started : st.started with
  | false =>
      obtain rfl := holds.idle started
      cases space : isSpace ch with
      | true => simp [feedChar, SentenceSplitter.init, space] at joins
      | false => simp [feedChar, SentenceSplitter.init, space]
  | true =>
      unfold feedChar at joins ⊢
      split
      · split
        · exact ⟨started, rfl⟩
        · split
          · split
            · next boundary closer space real =>
              rw [if_pos boundary, if_neg closer, if_pos space, if_pos real] at joins
              exact absurd joins.symm (by simp [SentenceSplitter.init])
            · exact ⟨started, rfl⟩
          · split
            · exact ⟨started, rfl⟩
            · next other => exact absurd rfl other
      · split
        · next quiet =>
          rw [started] at quiet
          cases quiet
        · exact ⟨rfl, rfl⟩

/-- What is still to be reported: the start of the sentence that is read is out already. -/
def toCome (st : SentenceSplitter) (sentences : List PyStr) : List SplitEvent :=
  if st.started then (announced sentences).tail else announced sentences

/-- From any state, what was read of the sentence and the text to come are covered by the sentences
to come, each after its start. -/
theorem feed_covers (text : PyStr) {st : SentenceSplitter} (holds : Holds st) :
    ∃ sentences, (st.feed text).2 ++ (st.feed text).1.close = st.toCome sentences ∧
      Covers (st.buf ++ text) sentences ∧ (st.started = true → sentences ≠ []) := by
  induction text generalizing st with
  | nil =>
      rw [feed, List.nil_append, List.append_nil]
      cases started : st.started with
      | false =>
          obtain rfl := holds.idle started
          exact ⟨[], rfl, .spaces .nil, fun reading => absurd reading Bool.false_ne_true⟩
      | true =>
          obtain ⟨c, rest, buf, ink⟩ := holds.inside started
          obtain ⟨trail, split, spaces, nonempty⟩ := @strip_of_head c rest ink
          refine ⟨[strip (c :: rest)], ?_, ?_, fun _ => List.cons_ne_nil _ _⟩
          · rw [close, buf, if_neg nonempty, toCome, started]
            rfl
          · have trimmed : Trimmed (strip (c :: rest)) := trimmed_strip ink
            have covers := Covers.first trimmed (startsWithSpace_of_spaces spaces) (.spaces spaces)
            rw [buf]
            rwa [← split] at covers
  | cons ch text ih =>
      rw [feed, List.append_assoc]
      rcases feedChar_cases holds ch with ⟨space, buf, same⟩ | ⟨space, ends, done⟩ | ⟨buf, next, _⟩
      · -- white space between two sentences
        rw [same]
        obtain ⟨sentences, events, covers, some_⟩ := ih holds
        rw [buf, List.nil_append] at covers
        refine ⟨sentences, events, ?_, some_⟩
        rw [buf, List.nil_append]
        exact covers.space space
      · -- the sentence ends
        rw [done]
        obtain ⟨sentences, events, covers, _⟩ := ih Holds.init
        have reading : st.started = true := by
          by_contra idle
          obtain rfl := holds.idle (Bool.not_eq_true _ ▸ idle)
          obtain ⟨front, t, cl, empty, _⟩ := ends
          exact absurd empty.symm (by simp [SentenceSplitter.init])
        obtain ⟨c, rest, whole, ink⟩ := holds.inside reading
        have trimmed : Trimmed st.buf := by
          rw [whole] at ends ⊢
          exact ⟨List.cons_ne_nil _ _, strip_of_ends ink ends⟩
        refine ⟨st.buf :: sentences, ?_, ?_, fun _ => List.cons_ne_nil _ _⟩
        · rw [events, toCome, toCome, reading]
          rfl
        · refine .first trimmed ?_ (covers.space space)
          intro d first
          rw [List.head?_cons, Option.mem_some_iff] at first
          exact first ▸ space
      · -- the character joins the sentence
        obtain ⟨starts, reported⟩ := feedChar_joins holds buf
        obtain ⟨sentences, events, covers, some_⟩ := ih next
        refine ⟨sentences, ?_, ?_, fun _ => some_ starts⟩
        · rw [events, reported, toCome, toCome, starts, if_pos rfl]
          cases st.started with
          | true => rfl
          | false =>
              obtain ⟨s, later, rfl⟩ := List.exists_cons_of_ne_nil (some_ starts)
              rfl
        · rwa [buf, List.append_assoc] at covers

/-- What the splitter reports on a text that comes in chunks, and on its end. -/
def splitterEvents (chunks : List PyStr) : List SplitEvent :=
  (SentenceSplitter.init.feedChunks chunks).2 ++ (SentenceSplitter.init.feedChunks chunks).1.close

/-- However a text is cut, the splitter reports each sentence after one start, and its sentences lie in the
text one after the other with white space around them and nothing else. -/
theorem splitterEvents_cover (chunks : List PyStr) :
    ∃ sentences, splitterEvents chunks = announced sentences ∧
      Covers chunks.flatten sentences := by
  obtain ⟨sentences, events, covers, _⟩ := feed_covers chunks.flatten Holds.init
  refine ⟨sentences, ?_, covers⟩
  rw [splitterEvents, feedChunks_eq_feed]
  exact events

end SentenceSplitter

end GhostPour.N400
