/-
Module: GhostPour.N400.Proofs.SpokenText
Layer: Proofs
Purpose: The text that the outer loop writes. The parts of a cut lie in the utterance one after the other,
  with gaps between them; what is written has the gaps and the tokens that stay as they are and the digits
  of the runs, and its tokens echo the parts.
Trusted boundary: none
Main exports: Spliced, Render, render_exists, Render.split, Render.spliced, writtenFrom_render, render_echo
-/
import GhostPour.N400.Proofs.SpokenScan

namespace GhostPour.N400.SpokenNumbers

open Regex

section
variable [PyRuntime]

/-! ### Where tokens lie -/

/-- The words of a text are the same wherever it starts. -/
theorem words_tokensFrom (i j : Nat) (s : PyStr) :
    (tokensFrom i s).map Token.word = (tokensFrom j s).map Token.word := by
  have spelt := spelt_tokensFrom i s
  generalize tokensFrom i s = toks at spelt ⊢
  induction spelt generalizing j with
  | done gaps => rw [tokensFrom_of_spelt (.done (i := j) gaps)]
  | next gaps shape later ih =>
      rw [tokensFrom_gaps gaps, tokensFrom_shape shape, List.map_cons, List.map_cons, ih]

/-- A token stands by itself as it stands in front of more. -/
theorem Shape.front {w s t : PyStr} (shape : Shape w (s ++ t)) : Shape w s := by
  have stop : ∀ {p : Nat → Bool}, (∀ c ∈ (s ++ t).head?, p c = false) → ∀ c ∈ s.head?, p c = false := by
    intro p stop c head
    cases s with
    | nil => cases head
    | cons x s => exact stop c head
  cases shape with
  | letters some_ each ends => exact .letters some_ each (stop ends)
  | digits some_ each ends => exact .digits some_ each (stop ends)
  | mark mark => exact .mark mark

/-- Some tokens of a text, from the first one to the last, and the text that is theirs. -/
theorem segment_exists {used : List Token} (some_ : used ≠ []) : ∀ {i : Nat} {rest : List Token} {s : PyStr},
    Spelt i (used ++ rest) s → ∃ gap r s', s = gap ++ (r ++ s') ∧ (∀ c ∈ gap, isGapChar c = true) ∧
      tokensFrom (i + gap.length) r = used ∧ used.head?.map Token.start = some (i + gap.length) ∧
      stopOf used = i + gap.length + r.length ∧ Spelt (i + gap.length + r.length) rest s' := by
  induction used with
  | nil => exact absurd rfl some_
  | cons t used ih =>
      intro i rest s spelt
      rw [List.cons_append] at spelt
      generalize parts : used ++ rest = toks at spelt
      cases spelt with
      | @next _ gap raw s toks gaps shape later =>
          subst parts
          cases used with
          | nil =>
              have alone : Shape raw ([] : PyStr) := Shape.front (t := s) shape
              have single := tokensFrom_shape alone (i + gap.length)
              rw [List.append_nil, tokensFrom_nil] at single
              exact ⟨gap, raw, s, rfl, gaps, single, rfl, rfl, later⟩
          | cons t' used =>
              obtain ⟨gap', r', s', rfl, gaps', toks', _, stops, later⟩ := ih (List.cons_ne_nil _ _) later
              have shape' : Shape raw (gap' ++ r') := by
                rw [← List.append_assoc] at shape
                exact shape.front
              have lengths : i + gap.length + raw.length + gap'.length + r'.length =
                  i + gap.length + (raw ++ (gap' ++ r')).length := by
                simp only [List.length_append]
                omega
              refine ⟨gap, raw ++ (gap' ++ r'), s', by simp, gaps, ?_, rfl, ?_, ?_⟩
              · rw [tokensFrom_shape shape', tokensFrom_gaps gaps', toks']
              · rw [← lengths, ← stops]
                exact stopOf_append (a := [_]) (List.cons_ne_nil _ _)
              · rwa [lengths] at later

/-! ### What is written for the parts -/

/-- One text with runs of number words written in digits in another. -/
inductive Spliced : PyStr → PyStr → Prop
  | same (s : PyStr) : Spliced s s
  | run {a r s ds o : PyStr} (said : Run false (tokens r) ds) (long : minDigits ≤ ds.length)
      (later : Spliced s o) : Spliced (a ++ (r ++ s)) (a ++ (ds ++ o))

theorem Spliced.append (a : PyStr) {s o : PyStr} (spliced : Spliced s o) : Spliced (a ++ s) (a ++ o) := by
  cases spliced with
  | same => exact .same _
  | @run b r s ds o said long later =>
      rw [← List.append_assoc a b, ← List.append_assoc a b]
      exact .run said long later

/-- The parts of a text from a position on, and what is written for them. -/
inductive Render : Nat → List Part → PyStr → PyStr → Prop
  | done {i : Nat} {s : PyStr} (gaps : ∀ c ∈ s, isGapChar c = true) : Render i [] s s
  | left {i : Nat} {gap raw s o : PyStr} {ps : List Part} (gaps : ∀ c ∈ gap, isGapChar c = true)
      (shape : Shape raw s) (later : Render (i + gap.length + raw.length) ps s o) :
      Render i (.left ⟨i + gap.length, raw, fold raw⟩ :: ps) (gap ++ (raw ++ s)) (gap ++ (raw ++ o))
  | said {i : Nat} {gap r s ds o : PyStr} {used : List Token} {ps : List Part}
      (gaps : ∀ c ∈ gap, isGapChar c = true) (run : Run false used ds) (long : minDigits ≤ ds.length)
      (toks : tokensFrom (i + gap.length) r = used)
      (starts : used.head?.map Token.start = some (i + gap.length))
      (stops : stopOf used = i + gap.length + r.length)
      (later : Render (i + gap.length + r.length) ps s o) :
      Render i (.said used ds :: ps) (gap ++ (r ++ s)) (gap ++ (ds ++ o))

theorem render_lefts {used rest : List Token} {ps : List Part}
    (later : ∀ {j : Nat} {s : PyStr}, Spelt j rest s → ∃ o, Render j ps s o) :
    ∀ {i : Nat} {s : PyStr}, Spelt i (used ++ rest) s → ∃ o, Render i (used.map .left ++ ps) s o := by
  induction used with
  | nil => exact later
  | cons t used ih =>
      intro i s spelt
      rw [List.cons_append] at spelt
      generalize parts : used ++ rest = toks at spelt
      cases spelt with
      | next gaps shape spelt =>
          subst parts
          obtain ⟨o, render⟩ := ih spelt
          exact ⟨_, .left gaps shape render⟩

/-- Every cut of the tokens of a text is one of the text. -/
theorem render_exists {tr : Trace} {toks : List Token} {ps : List Part} (scan : Scan tr toks ps) :
    ∀ {i : Nat} {s : PyStr}, Spelt i toks s → ∃ o, Render i ps s o := by
  induction scan with
  | nil =>
      intro i s spelt
      cases spelt with
      | done gaps => exact ⟨s, .done gaps⟩
  | pass other later ih => exact fun spelt => @render_lefts _ [_] _ _ ih _ _ spelt
  | spare legible run closed kept later ih => exact fun spelt => render_lefts ih spelt
  | rewrite legible free run closed long later ih =>
      intro i s spelt
      obtain ⟨m, tail, rfl, _⟩ := run.first
      obtain ⟨gap, r, s', rfl, gaps, toks, starts, stops, spelt⟩ :=
        segment_exists (List.cons_ne_nil m tail) spelt
      obtain ⟨o, render⟩ := ih spelt
      exact ⟨_, .said gaps run long toks starts stops render⟩

/-- Parts one after the other lie one after the other. -/
theorem Render.split {ps qs : List Part} : ∀ {i : Nat} {s o : PyStr}, Render i (ps ++ qs) s o →
    ∃ a b s' o', s = a ++ s' ∧ o = b ++ o' ∧ Spliced a b ∧ Render (i + a.length) qs s' o' := by
  induction ps with
  | nil => exact fun render => ⟨[], [], _, _, rfl, rfl, .same [], render⟩
  | cons p ps ih =>
      intro i s o render
      rw [List.cons_append] at render
      generalize parts : ps ++ qs = rs at render
      cases render with
      | @left _ gap raw s o rs gaps shape later =>
          subst parts
          obtain ⟨a, b, s', o', rfl, rfl, spliced, render⟩ := ih later
          have lengths : i + gap.length + raw.length + a.length = i + (gap ++ (raw ++ a)).length := by
            simp only [List.length_append]
            omega
          rw [lengths] at render
          exact ⟨gap ++ (raw ++ a), gap ++ (raw ++ b), s', o', by simp, by simp,
            (spliced.append raw).append gap, render⟩
      | @said _ gap r s ds o used rs gaps run long toks starts stops later =>
          subst parts
          obtain ⟨a, b, s', o', rfl, rfl, spliced, render⟩ := ih later
          have lengths : i + gap.length + r.length + a.length = i + (gap ++ (r ++ a)).length := by
            simp only [List.length_append]
            omega
          have said : Run false (tokens r) ds := by
            rw [← toks] at run
            exact run.same (words_tokensFrom 0 _ r)
          rw [lengths] at render
          exact ⟨gap ++ (r ++ a), gap ++ (ds ++ b), s', o', by simp, by simp, .run said long spliced, render⟩

/-- Outside the runs that are rewritten, the text stays. -/
theorem Render.spliced {i : Nat} {ps : List Part} {s o : PyStr} (render : Render i ps s o) :
    Spliced s o := by
  induction render with
  | done => exact .same _
  | left gaps shape later ih => exact (ih.append _).append _
  | @said i gap r s ds o used ps gaps run long toks starts stops later ih =>
      rw [← toks] at run
      exact .run (run.same (words_tokensFrom 0 _ r)) long ih

/-- Tokens that stay are written as they are. -/
theorem Render.lefts {used : List Token} {ps : List Part} : ∀ {i : Nat} {s o : PyStr},
    Render i (used.map .left ++ ps) s o →
      ∃ a s' o', s = a ++ s' ∧ o = a ++ o' ∧ Render (i + a.length) ps s' o' := by
  induction used with
  | nil => exact fun render => ⟨[], _, _, rfl, rfl, render⟩
  | cons t used ih =>
      intro i s o render
      rw [List.map_cons, List.cons_append] at render
      generalize parts : used.map Part.left ++ ps = qs at render
      cases render with
      | @left _ gap raw s o qs gaps shape later =>
          subst parts
          obtain ⟨a, s', o', rfl, rfl, render⟩ := ih later
          have lengths : i + gap.length + raw.length + a.length = i + (gap ++ (raw ++ a)).length := by
            simp only [List.length_append]
            omega
          rw [lengths] at render
          exact ⟨gap ++ (raw ++ a), s', o', by simp, by simp, render⟩

/-! ### The loop on text -/

omit [PyRuntime] in
theorem drop_front {x y : PyStr} {cursor : Nat} (short : cursor ≤ x.length) :
    (x ++ y).drop cursor = x.drop cursor ++ y :=
  List.drop_append_of_le_length short

/-- What the outer loop writes, from the cursor on. -/
theorem writtenFrom_render {tr : Trace} {toks : List Token} {ps : List Part} (scan : Scan tr toks ps) :
    ∀ {before : List Token}, tr = Trace.start.steps before → ∀ {s o x : PyStr},
      Render x.length ps s o → ∀ {cursor n : Nat}, cursor ≤ x.length → toks.length ≤ n →
        writtenFrom (x ++ s) n cursor before toks = some (x.drop cursor ++ o) := by
  induction scan with
  | nil =>
      intro before same s o x render cursor n short enough
      cases render with
      | done gaps =>
          rw [← drop_front short]
          cases n <;> rfl
  | @pass tr t toks ps other later ih =>
      intro before same s o x render cursor n short enough
      cases render with
      | @left _ gap raw s o ps gaps shape render =>
          obtain ⟨n, rfl⟩ := Nat.exists_eq_add_one_of_ne_zero (Nat.ne_zero_of_lt enough)
          have lengths : x.length + gap.length + raw.length = (x ++ (gap ++ raw)).length := by
            simp only [List.length_append]
            omega
          rw [lengths] at render
          rw [same] at ih
          have passed : (Trace.start.steps before).step ⟨x.length + gap.length, raw, fold raw⟩ =
              Trace.start.steps (before ++ [⟨x.length + gap.length, raw, fold raw⟩]) :=
            (Trace.steps_append _ _ [_]).symm
          have next := @ih _ passed _ _ _ render cursor n (by rw [← lengths]; omega)
            (Nat.le_of_succ_le_succ enough)
          rw [writtenFrom_pass other]
          rw [drop_front short] at next
          simpa using next
  | @spare tr used rest ds ps legible run closed kept later ih =>
      intro before same s o x render cursor n short enough
      obtain ⟨a, s', o', rfl, rfl, render'⟩ := render.lefts
      rw [same] at legible run closed kept ih
      obtain ⟨m, tail, shape, _⟩ := run.first
      rw [List.length_append, shape, List.length_cons] at enough
      obtain ⟨n, rfl⟩ := Nat.exists_eq_add_one_of_ne_zero (by omega : n ≠ 0)
      rw [writtenFrom_run legible run closed]
      have stays : ¬(decide (minDigits ≤ ds.length) && !(Trace.start.steps before).guarded) = true := by
        rw [Bool.and_eq_true, decide_eq_true_eq, Bool.not_eq_true']
        rintro ⟨long, free⟩
        rcases kept with few | guarded
        · omega
        · rw [free] at guarded
          cases guarded
      rw [if_neg stays]
      rw [← List.length_append] at render'
      have next := @ih _ (Trace.steps_append _ _ _).symm _ _ _ render' cursor n
        (by rw [List.length_append]; omega) (by omega)
      rw [drop_front short] at next
      simpa using next
  | @rewrite tr used rest ds ps legible free run closed long later ih =>
      intro before same s o x render cursor n short enough
      cases render with
      | @said _ gap r s ds o used ps gaps _ _ toks starts stops render =>
          rw [same] at legible free ih
          rw [← free] at run closed
          obtain ⟨m, tail, shape, _⟩ := run.first
          rw [List.length_append, shape, List.length_cons] at enough
          obtain ⟨n, rfl⟩ := Nat.exists_eq_add_one_of_ne_zero (by omega : n ≠ 0)
          have lengths : x.length + gap.length + r.length = (x ++ (gap ++ r)).length := by
            simp only [List.length_append]
            omega
          rw [lengths] at render stops
          have goes : (decide (minDigits ≤ ds.length) && !(Trace.start.steps before).guarded) = true := by
            rw [free, Bool.not_false, Bool.and_true, decide_eq_true_eq]
            exact long
          have next := @ih _ (Trace.steps_append _ _ _).symm _ _ _ render (stopOf used) n
            (by omega) (by omega)
          have skipped : (x ++ (gap ++ (r ++ s))).drop cursor = x.drop cursor ++ gap ++ (r ++ s) := by
            rw [drop_front short, List.append_assoc]
          have taken : (x.drop cursor ++ gap).length = x.length + gap.length - cursor := by
            rw [List.length_append, List.length_drop]
            omega
          rw [List.append_assoc, List.append_assoc, stops, List.drop_length, List.nil_append] at next
          rw [writtenFrom_run legible run closed, if_pos goes, starts, stops, next, skipped,
            Option.getD_some, List.take_left' taken]
          simp

/-! ### The tokens of what is written -/

theorem decimal_of_ascii {c : Nat} (digit : isAsciiDigit c = true) : isDecimal c = true := by
  have ascii : c < 128 := by
    simp only [isAsciiDigit, Bool.and_eq_true, decide_eq_true_eq] at digit
    omega
  rw [isDecimal, PyRuntime.decimal_ascii c ascii, if_pos digit]
  rfl

theorem gap_not_decimal {c : Nat} (gap : isGapChar c = true) : isDecimal c = false := (gap_cases gap).2.1

/-- What is written begins as the text does, or with a digit. -/
theorem Render.head {i : Nat} {ps : List Part} {s o : PyStr} (render : Render i ps s o) :
    ∀ c ∈ o.head?, c ∈ s.head? ∨ isDecimal c = true := by
  intro c head
  cases render with
  | done => exact .inl head
  | @left _ gap raw s o ps gaps shape later =>
      obtain ⟨x, raw, rfl⟩ := List.exists_cons_of_ne_nil shape.ne_nil
      cases gap <;> exact .inl head
  | @said _ gap r s ds o used ps gaps run long =>
      cases gap with
      | cons x gap => exact .inl head
      | nil =>
          cases ds with
          | nil => cases long
          | cons d ds =>
              have same : d = c := Option.some.inj head
              rw [← same]
              exact .inr (decimal_of_ascii (run.digits d List.mem_cons_self))

/-- What is written for some parts, and what is left of it when its first digits are taken by digits
before it. -/
structure Echoes (ps : List Part) (o : PyStr) : Prop where
  whole : ∀ j, Echo ps (tokensFrom j o)
  rest : ∀ j, ∃ ms qs, ps = ms ++ qs ∧ (∀ m ∈ ms, Digital m) ∧
    Echo qs (tokensFrom j (o.dropWhile isDecimal))

/-- Nothing is taken of a text that does not begin with a digit. -/
theorem Echoes.of_whole {ps : List Part} {o : PyStr} (other : ∀ c ∈ o.head?, isDecimal c = false)
    (whole : ∀ j, Echo ps (tokensFrom j o)) : Echoes ps o where
  whole := whole
  rest j := by
    refine ⟨[], ps, rfl, fun m member => absurd member List.not_mem_nil, ?_⟩
    cases o with
    | nil => exact whole j
    | cons c o =>
        rw [List.dropWhile_cons_of_neg (by rw [other c rfl]; exact Bool.false_ne_true)]
        exact whole j

/-- Digits and what is written after them. -/
theorem Echoes.digits {p : Part} (digital : Digital p) {w : PyStr} (some_ : w ≠ [])
    (decimals : ∀ c ∈ w, isDecimal c = true) {ps : List Part} {o : PyStr} (later : Echoes ps o) {gap : PyStr}
    (gaps : ∀ c ∈ gap, isGapChar c = true) : Echoes (p :: ps) (gap ++ (w ++ o)) := by
  have merged : ∀ j, Echo (p :: ps) (tokensFrom j (gap ++ (w ++ o))) := by
    intro j
    have split : w ++ o = (w ++ o.takeWhile isDecimal) ++ o.dropWhile isDecimal := by
      rw [List.append_assoc, List.takeWhile_append_dropWhile]
    have each : ∀ c ∈ w ++ o.takeWhile isDecimal, isDecimal c = true := by
      intro c member
      rcases List.mem_append.mp member with member | member
      · exact decimals c member
      · exact List.mem_takeWhile_imp member
    have stop : ∀ c ∈ (o.dropWhile isDecimal).head?, isDecimal c = false := by
      intro c head
      have other := List.head?_dropWhile_not isDecimal o
      rw [Option.mem_def.mp head] at other
      simpa using other
    have nonempty : w ++ o.takeWhile isDecimal ≠ [] := List.append_ne_nil_of_left_ne_nil some_ _
    rw [tokensFrom_gaps gaps, split, tokensFrom_digits nonempty each stop]
    obtain ⟨ms, qs, rfl, more, echo⟩ := later.rest (j + gap.length + (w ++ o.takeWhile isDecimal).length)
    refine .merge digital more ?_ echo
    rw [IsDigits, fold_decimals each]
    exact ⟨nonempty, each⟩
  cases gap with
  | cons c gap =>
      refine Echoes.of_whole ?_ merged
      rintro x head
      cases head
      exact gap_not_decimal (gaps c List.mem_cons_self)
  | nil =>
      refine ⟨merged, fun j => ?_⟩
      obtain ⟨ms, qs, rfl, more, echo⟩ := later.rest j
      refine ⟨p :: ms, qs, rfl, ?_, ?_⟩
      · rw [List.forall_mem_cons]
        exact ⟨digital, more⟩
      · rw [List.nil_append, List.dropWhile_append_of_pos decimals]
        exact echo

/-- The tokens of what is written echo the parts. -/
theorem Render.echoes {i : Nat} {ps : List Part} {s o : PyStr} (render : Render i ps s o) :
    Echoes ps o := by
  induction render with
  | @done i s gaps =>
      have none_ : ∀ j, tokensFrom j s = [] := fun j => tokensFrom_of_spelt (.done gaps)
      refine Echoes.of_whole ?_ fun j => by rw [none_ j]; exact .nil
      exact fun c head => gap_not_decimal (gaps c (List.mem_of_mem_head? head))
  | @said i gap r s ds o used ps gaps run long toks starts stops later ih =>
      have some_ : ds ≠ [] := by
        rintro rfl
        cases long
      exact Echoes.digits (p := .said used ds) trivial some_ (fun c member => decimal_of_ascii (run.digits c member)) ih gaps
  | @left i gap raw s o ps gaps shape later ih =>
      have alone : (∀ c ∈ raw.head?, isDecimal c = false) → Shape raw o → Echoes
          (.left ⟨i + gap.length, raw, fold raw⟩ :: ps) (gap ++ (raw ++ o)) := by
        intro other shape'
        refine Echoes.of_whole ?_ fun j => ?_
        · intro c head
          cases gap with
          | cons x gap =>
              cases head
              exact gap_not_decimal (gaps c List.mem_cons_self)
          | nil =>
              obtain ⟨x, raw, rfl⟩ := List.exists_cons_of_ne_nil shape.ne_nil
              exact other c head
        · rw [tokensFrom_gaps gaps, tokensFrom_shape shape']
          exact .keep rfl rfl (ih.whole _)
      have heads := later.head
      cases shape with
      | digits some_ each stop =>
          have digital : Digital (.left ⟨i + gap.length, raw, fold raw⟩) := by
            rw [Digital, IsDigits, fold_decimals each]
            exact ⟨some_, each⟩
          exact Echoes.digits digital some_ each ih gaps
      | letters some_ each stop =>
          refine alone (fun c head => letter_not_decimal (each c (List.mem_of_mem_head? head)))
            (.letters some_ each fun c head => ?_)
          rcases heads c head with same | decimal
          · exact stop c same
          · exact decimal_not_letter decimal
      | mark mark =>
          refine alone (fun c head => ?_) (.mark mark)
          cases head
          exact mark_not_decimal mark

end

end GhostPour.N400.SpokenNumbers
