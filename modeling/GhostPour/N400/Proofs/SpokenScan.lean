/-
Module: GhostPour.N400.Proofs.SpokenScan
Layer: Proofs
Purpose: What the outer loop makes of the tokens. It carries three facts about the tokens passed, and cuts the
  tokens into those that stay and the runs that are rewritten; it ends with an error where a word of no
  characters is in front of a number word, and nowhere else. The tokens of what was written. Where a run was
  rewritten they have digits, which may take in the digits around them, and elsewhere the same words; so that
  the outer loop, which looks at words only, leaves all of them where they are.
Trusted boundary: none
Main exports: Trace, afterAMonth_of, Trace.steps_run, Part, Scan, Legible, scan_exists, writtenFrom_pass,
  writtenFrom_run, legible_of_written, Plain, Front, Closed.front, Run.same, Digital, Echo, Scan.echo
-/
import GhostPour.N400.Proofs.SpokenRuns

namespace GhostPour.N400.SpokenNumbers

section
variable [PyRuntime]

/-! ### The tokens passed -/

/-- What the month guard knows of the tokens passed: a word of no characters, a month as the last word,
and a month right before a last word that may stand between a month and a day. -/
structure Trace where
  blank : Bool
  month : Bool
  linked : Bool

/-- A token that may stand between a month and a day. -/
def isLink (t : Token) : Bool := ordinals.contains t.word || connectors.contains t.word

/-- A word or a number, not a mark. -/
def isWordToken (t : Token) : Bool := t.word.head?.any isAlnum

def Trace.step (tr : Trace) (t : Token) : Trace where
  blank := tr.blank || t.word.isEmpty
  month := if isWordToken t then isMonth t else tr.month
  linked := if isWordToken t then isLink t && tr.month else tr.linked

def Trace.steps (tr : Trace) (toks : List Token) : Trace := toks.foldl Trace.step tr

/-- Nothing passed. -/
def Trace.start : Trace := ⟨false, false, false⟩

/-- Whether the run that comes next is guarded. -/
def Trace.guarded (tr : Trace) : Bool := tr.month || tr.linked

theorem Trace.steps_append (tr : Trace) (a b : List Token) : tr.steps (a ++ b) = (tr.steps a).steps b :=
  List.foldl_append

theorem Trace.steps_cons (tr : Trace) (t : Token) (a : List Token) :
    tr.steps (t :: a) = (tr.step t).steps a := rfl

theorem Trace.steps_blank (tr : Trace) (toks : List Token) :
    (tr.steps toks).blank = (tr.blank || toks.any fun t => t.word.isEmpty) := by
  induction toks generalizing tr with
  | nil => rw [List.any_nil, Bool.or_false]; rfl
  | cons t toks ih =>
      rw [Trace.steps_cons, ih, List.any_cons, ← Bool.or_assoc]
      rfl

/-- The last words of some tokens are what the trace knows. -/
theorem Trace.steps_words (before : List Token) :
    (Trace.start.steps before).month =
        ((before.filter isWordToken).reverse.head?.any isMonth) ∧
      (Trace.start.steps before).linked =
        match (before.filter isWordToken).reverse with
        | [] => false
        | last :: earlier => isLink last && earlier.head?.any isMonth := by
  induction before using List.reverseRecOn with
  | nil => exact ⟨rfl, rfl⟩
  | append_singleton before t ih =>
      rw [Trace.steps_append, List.filter_append]
      change (Trace.step _ t).month = _ ∧ (Trace.step _ t).linked = _
      rw [Trace.step]
      by_cases word : isWordToken t = true
      · rw [List.filter_cons_of_pos word, List.filter_nil, List.reverse_append, ih.1]
        simp [word]
      · rw [List.filter_cons_of_neg word, List.filter_nil, List.append_nil, if_neg word, if_neg word]
        exact ih

/-- The guard is read off the trace. -/
theorem afterAMonth_of (before : List Token) : afterAMonth before =
    if (Trace.start.steps before).blank then none else some (Trace.start.steps before).guarded := by
  rw [afterAMonth, Trace.steps_blank, Trace.start, Bool.false_or]
  split
  · rfl
  · obtain ⟨month, linked⟩ := Trace.steps_words before
    rw [Trace.guarded, ← Trace.start, month, linked]
    change (match (before.filter isWordToken).reverse with | [] => _ | _ :: _ => _) = _
    cases (before.filter isWordToken).reverse <;> rfl

/-! ### Number words and digits in the trace -/

omit [PyRuntime] in
theorem number_trace {w : PyStr} (number : isNumberWord w = true) :
    months.contains w = false ∧ ordinals.contains w = false ∧ connectors.contains w = false ∧
      w ≠ py "may" ∧ w ≠ py "marco" ∧ ∃ c ∈ w.head?, c < 128 ∧ isAsciiAlpha c = true := by
  have each : ∀ w ∈ numberWords, months.contains w = false ∧ ordinals.contains w = false ∧
      connectors.contains w = false ∧ w ≠ py "may" ∧ w ≠ py "marco" ∧
        ∃ c ∈ w.head?, c < 128 ∧ isAsciiAlpha c = true := by decide +kernel
  exact each w (mem_numberWords number)

/-- After a number word no month is near. -/
theorem Trace.step_number (tr : Trace) {t : Token} (number : IsNumber t) :
    tr.step t = ⟨tr.blank, false, false⟩ := by
  obtain ⟨month, ordinal, connector, may, marco, c, head, ascii, alpha⟩ := number_trace number
  have word : isWordToken t = true := by
    rw [isWordToken, Option.mem_def.mp head, Option.any_some, PyRuntime.isAlnum_ascii c ascii, alpha,
      Bool.true_or]
  have some_ : t.word.isEmpty = false := by
    rw [List.isEmpty_eq_false_iff]
    exact number_ne_nil number
  rw [Trace.step, some_, if_pos word, if_pos word, isMonth, if_neg may, if_neg marco, month, isLink,
    ordinal, connector, Bool.or_false, Bool.or_false, Bool.false_and]

/-- Nor after a run. -/
theorem Trace.steps_run (tr : Trace) {guarded : Bool} {r : List Token} {ds : PyStr}
    (run : Run guarded r ds) : tr.steps r = ⟨tr.blank, false, false⟩ := by
  obtain ⟨n, last, number⟩ := run.last_number
  obtain ⟨init, rfl⟩ := List.getLast?_eq_some_iff.mp last
  have spoken : (init.any fun t => t.word.isEmpty) = false := by
    rw [List.any_eq_false]
    intro t member empty
    exact run.spoken t (List.mem_append_left _ member) (List.isEmpty_iff.mp empty)
  rw [Trace.steps_append, Trace.steps_cons, Trace.step_number _ number, Trace.steps_blank, spoken,
    Bool.or_false]
  rfl

/-! ### The cut -/

/-- What the loop makes of a token, or of a run. -/
inductive Part
  | left (t : Token)
  | said (run : List Token) (digits : PyStr)

/-- The tokens of a part. -/
def Part.source : Part → List Token
  | .left t => [t]
  | .said run _ => run

/-- The outer loop on tokens: a run stays where it is guarded or short. -/
inductive Scan : Trace → List Token → List Part → Prop
  | nil {tr : Trace} : Scan tr [] []
  | pass {tr : Trace} {t : Token} {toks : List Token} {ps : List Part} (other : ¬IsNumber t)
      (later : Scan (tr.step t) toks ps) : Scan tr (t :: toks) (.left t :: ps)
  | spare {tr : Trace} {used rest : List Token} {ds : PyStr} {ps : List Part}
      (legible : tr.blank = false) (run : Run tr.guarded used ds) (closed : Closed tr.guarded used rest)
      (kept : ds.length < minDigits ∨ tr.guarded = true) (later : Scan (tr.steps used) rest ps) :
      Scan tr (used ++ rest) (used.map .left ++ ps)
  | rewrite {tr : Trace} {used rest : List Token} {ds : PyStr} {ps : List Part}
      (legible : tr.blank = false) (free : tr.guarded = false) (run : Run false used ds)
      (closed : Closed false used rest) (long : minDigits ≤ ds.length)
      (later : Scan (tr.steps used) rest ps) : Scan tr (used ++ rest) (.said used ds :: ps)

/-- The parts are of the tokens. -/
theorem Scan.source {tr : Trace} {toks : List Token} {ps : List Part} (scan : Scan tr toks ps) :
    ps.flatMap Part.source = toks := by
  have lefts : ∀ used : List Token, (used.map Part.left).flatMap Part.source = used := by
    intro used
    induction used with
    | nil => rfl
    | cons t used ih => rw [List.map_cons, List.flatMap_cons, ih]; rfl
  induction scan with
  | nil => rfl
  | pass other later ih => rw [List.flatMap_cons, ih]; rfl
  | spare legible run closed kept later ih => rw [List.flatMap_append, lefts, ih]
  | rewrite legible free run closed long later ih => rw [List.flatMap_cons, ih]; rfl

/-- No word of no characters is in front of a number word. -/
def Legible (blank : Bool) (toks : List Token) : Prop :=
  ∀ a n b, toks = a ++ n :: b → IsNumber n → blank = false ∧ ∀ t ∈ a, t.word ≠ []

omit [PyRuntime] in
theorem Legible.tail {blank : Bool} {used rest : List Token} (legible : Legible blank (used ++ rest)) :
    Legible (blank || used.any fun t => t.word.isEmpty) rest := by
  rintro a n b rfl number
  obtain ⟨none_, each⟩ := legible (used ++ a) n b (List.append_assoc _ _ _).symm number
  refine ⟨?_, fun t member => each t (List.mem_append_right _ member)⟩
  rw [none_, Bool.false_or, List.any_eq_false]
  intro t member empty
  exact each t (List.mem_append_left _ member) (List.isEmpty_iff.mp empty)

/-- Where the words can be read, the tokens are cut. -/
theorem scan_exists (n : Nat) : ∀ (tr : Trace) (toks : List Token), toks.length ≤ n →
    Legible tr.blank toks → ∃ ps, Scan tr toks ps := by
  induction n with
  | zero =>
      intro tr toks short legible
      rw [List.length_eq_zero_iff.mp (Nat.le_zero.mp short)]
      exact ⟨[], .nil⟩
  | succ n ih =>
      intro tr toks short legible
      cases toks with
      | nil => exact ⟨[], .nil⟩
      | cons t toks =>
          by_cases number : IsNumber t
          · have blank := (legible [] t toks rfl number).1
            obtain ⟨used, rest, ds, split, run, closed⟩ :=
              run_exists tr.guarded _ (t :: toks) (le_refl _) ⟨t, rfl, number⟩
            rw [split] at legible short ⊢
            have fewer : rest.length ≤ n := by
              obtain ⟨m, tail, rfl, _⟩ := run.first
              rw [List.length_append, List.length_cons] at short
              omega
            have later : Legible (tr.steps used).blank rest := by
              rw [Trace.steps_blank]
              exact legible.tail
            obtain ⟨ps, scan⟩ := ih (tr.steps used) rest fewer later
            by_cases kept : ds.length < minDigits ∨ tr.guarded = true
            · exact ⟨_, .spare blank run closed kept scan⟩
            · rw [not_or, Nat.not_lt, Bool.not_eq_true] at kept
              rw [kept.2] at run closed
              exact ⟨_, .rewrite blank kept.2 run closed kept.1 scan⟩
          · have later : Legible (tr.step t).blank toks := by
              have tail := @Legible.tail _ [t] _ legible
              rwa [List.any_cons, List.any_nil, Bool.or_false] at tail
            obtain ⟨ps, scan⟩ := ih (tr.step t) toks (Nat.le_of_succ_le_succ short) later
            exact ⟨_, .pass number scan⟩

/-! ### The loop -/

theorem writtenFrom_pass {t : Token} (other : ¬IsNumber t) (text : PyStr) (n cursor : Nat)
    (before rest : List Token) : writtenFrom text (n + 1) cursor before (t :: rest) =
      writtenFrom text n cursor (before ++ [t]) rest := by
  rw [writtenFrom, if_neg other]

/-- At a word that cannot be read, the loop ends with an error. -/
theorem writtenFrom_blank {before : List Token} (blank : (Trace.start.steps before).blank = true)
    {t : Token} (number : IsNumber t) (text : PyStr) (n cursor : Nat) (rest : List Token) :
    writtenFrom text (n + 1) cursor before (t :: rest) = none := by
  rw [writtenFrom, if_pos number, afterAMonth_of, if_pos blank]

/-- At a run, the loop goes on behind it. -/
theorem writtenFrom_run {before used rest : List Token} {ds : PyStr}
    (legible : (Trace.start.steps before).blank = false)
    (run : Run (Trace.start.steps before).guarded used ds)
    (closed : Closed (Trace.start.steps before).guarded used rest) (text : PyStr) (n cursor : Nat) :
    writtenFrom text (n + 1) cursor before (used ++ rest) =
      if minDigits ≤ ds.length && !(Trace.start.steps before).guarded then
        (writtenFrom text n (stopOf used) (before ++ used) rest).map fun out =>
          (text.drop cursor).take ((used.head?.map Token.start).getD 0 - cursor) ++ (ds ++ out)
      else writtenFrom text n cursor (before ++ used) rest := by
  obtain ⟨m, tail, shape, number⟩ := run.first
  have enough : used.length ≤ (used ++ rest).length := by
    rw [List.length_append]
    omega
  have read := readRun_of_run run closed _ [] m.stop enough
  have taken : (used ++ rest).take ((used ++ rest).length - rest.length) = used := by
    rw [List.length_append, Nat.add_sub_cancel, List.take_left]
  rw [shape] at read taken ⊢
  rw [List.cons_append] at read taken ⊢
  rw [writtenFrom, if_pos number, afterAMonth_of, legible]
  simp only [Bool.false_eq_true, if_false, read, taken, List.nil_append, List.head?_cons, Option.map_some,
    Option.getD_some]

/-- What is written could be read. -/
theorem legible_of_written (text : PyStr) (n : Nat) : ∀ cursor before toks out, toks.length ≤ n →
    writtenFrom text n cursor before toks = some out →
      Legible (Trace.start.steps before).blank toks := by
  induction n with
  | zero =>
      intro cursor before toks out short _ a m b split
      rw [List.length_eq_zero_iff.mp (Nat.le_zero.mp short)] at split
      simp at split
  | succ n ih =>
      intro cursor before toks out short reads
      cases toks with
      | nil =>
          intro a m b split
          simp at split
      | cons t toks =>
          by_cases number : IsNumber t
          · cases blank : (Trace.start.steps before).blank with
            | true =>
                rw [writtenFrom_blank blank number] at reads
                cases reads
            | false =>
                obtain ⟨used, rest, ds, split, run, closed⟩ := run_exists
                  (Trace.start.steps before).guarded _ (t :: toks) (le_refl _) ⟨t, rfl, number⟩
                rw [split] at short reads ⊢
                rw [writtenFrom_run blank run closed] at reads
                have fewer : rest.length ≤ n := by
                  obtain ⟨m, tail, rfl, _⟩ := run.first
                  rw [List.length_append, List.length_cons] at short
                  omega
                have later : Legible (Trace.start.steps (before ++ used)).blank rest := by
                  split at reads
                  · obtain ⟨out', reads, _⟩ := Option.map_eq_some_iff.mp reads
                    exact ih _ _ _ _ fewer reads
                  · exact ih _ _ _ _ fewer reads
                intro a m b shape numberM
                refine ⟨rfl, ?_⟩
                rcases List.append_eq_append_iff.mp shape with ⟨a', rfl, rest_⟩ | ⟨u, rfl, _⟩
                · obtain ⟨_, each⟩ := later a' m b rest_ numberM
                  intro t member
                  rcases List.mem_append.mp member with member | member
                  · exact run.spoken t member
                  · exact each t member
                · exact fun t member => run.spoken t (List.mem_append_left _ member)
          · rw [writtenFrom_pass number] at reads
            have later := ih _ _ _ _ (Nat.le_of_succ_le_succ short) reads
            rw [Trace.steps_append] at later
            intro a m b split numberM
            cases a with
            | nil =>
                cases split
                exact absurd numberM number
            | cons t' a =>
                obtain ⟨rfl, rfl⟩ := List.cons.inj split
                obtain ⟨none_, each⟩ := later a m b rfl numberM
                have both : ((Trace.start.steps before).blank || t.word.isEmpty) = false := none_
                rw [Bool.or_eq_false_iff, List.isEmpty_eq_false_iff] at both
                refine ⟨both.1, ?_⟩
                rw [List.forall_mem_cons]
                exact ⟨both.2, each⟩

end

end GhostPour.N400.SpokenNumbers

namespace GhostPour.N400.SpokenNumbers

/-! ### The front of the tokens -/

/-- A word that plays no part in a run. -/
structure Plain (w : PyStr) : Prop where
  number : isNumberWord w = false
  joiner : joiners.contains w = false
  separator : separators.contains w = false

/-- The same words up to a plain one. -/
inductive Front : List Token → List Token → Prop
  | nil : Front [] []
  | keep {t t' : Token} {toks toks' : List Token} (same : t'.word = t.word) (later : Front toks toks') :
      Front (t :: toks) (t' :: toks')
  | plain {d : Token} {toks toks' : List Token} (plain : Plain d.word) : Front toks (d :: toks')

theorem Front.skipOne {kind : List PyStr} (other : ∀ {w}, Plain w → kind.contains w = false)
    {toks toks' : List Token} (front : Front toks toks') :
    Front (skipOne kind toks) (skipOne kind toks') := by
  cases front with
  | nil => exact .nil
  | @keep t t' toks toks' same later =>
      rw [SpokenNumbers.skipOne, SpokenNumbers.skipOne, same]
      split
      · exact later
      · exact .keep same later
  | @plain d toks toks' plain =>
      rw [skipOne_other (other plain)]
      exact .plain plain

/-- No unit is found ahead that was not there. -/
theorem Front.unitAhead {toks toks' : List Token} (front : Front toks toks')
    (none_ : unitAhead toks = none) : unitAhead toks' = none := by
  have hyphen : ∀ {w}, Plain w → [py "-"].contains w = false := by
    intro w plain
    rw [Bool.eq_false_iff]
    intro hyphen
    have := plain.separator
    rw [hyphen_separates hyphen] at this
    cases this
  have ahead := Front.skipOne (fun plain => Plain.joiner plain) (front.skipOne hyphen)
  rw [SpokenNumbers.unitAhead] at none_ ⊢
  generalize SpokenNumbers.skipOne joiners (SpokenNumbers.skipOne [py "-"] toks) = left at ahead none_
  generalize SpokenNumbers.skipOne joiners (SpokenNumbers.skipOne [py "-"] toks') = left' at ahead
  cases ahead with
  | nil => rfl
  | keep same later =>
      rw [Option.map_eq_none_iff] at none_ ⊢
      rw [same]
      exact none_
  | @plain d toks toks' plain =>
      rw [Option.map_eq_none_iff, Option.eq_none_iff_forall_ne_some]
      intro n unit
      have := plain.number
      rw [number_of_unit unit] at this
      cases this

theorem Front.dropSeparators {toks toks' : List Token} (front : Front toks toks') :
    Front (toks.dropWhile fun t => separators.contains t.word)
      (toks'.dropWhile fun t => separators.contains t.word) := by
  induction front with
  | nil => exact .nil
  | @keep t t' toks toks' same later ih =>
      rw [List.dropWhile_cons, List.dropWhile_cons, same]
      split
      · exact ih
      · exact .keep same later
  | @plain d toks toks' plain =>
      rw [List.dropWhile_cons_of_neg (by rw [plain.separator]; exact Bool.false_ne_true)]
      exact .plain plain

theorem Front.head {toks toks' : List Token} (front : Front toks toks')
    (other : ∀ t ∈ toks.head?, ¬IsNumber t) : ∀ t ∈ toks'.head?, ¬IsNumber t := by
  rintro t' head number
  cases front with
  | nil => cases head
  | keep same later =>
      cases head
      rw [IsNumber, same] at number
      exact other _ rfl number
  | plain plain =>
      cases head
      rw [IsNumber, plain.number] at number
      cases number

theorem front_of_same {toks toks' : List Token} (same : toks'.map Token.word = toks.map Token.word) :
    Front toks toks' := by
  induction toks generalizing toks' with
  | nil =>
      rw [List.map_nil, List.map_eq_nil_iff] at same
      rw [same]
      exact .nil
  | cons t toks ih =>
      obtain ⟨t', later, rfl, word, same⟩ := List.map_eq_cons_iff.mp same
      exact .keep word (ih same)

/-! ### Runs of the same words -/

theorem Skips.same {kind : List PyStr} {s s' : List Token} (skips : Skips kind s)
    (same : s'.map Token.word = s.map Token.word) : Skips kind s' := by
  cases skips with
  | none =>
      rw [List.map_nil, List.map_eq_nil_iff] at same
      rw [same]
      exact .none
  | one isKind =>
      obtain ⟨t', later, rfl, word, same⟩ := List.map_eq_cons_iff.mp same
      rw [List.map_nil, List.map_eq_nil_iff] at same
      rw [same]
      exact .one (by rw [word]; exact isKind)

theorem Group.same {g g' : List Token} {d : PyStr} (said : Group g d)
    (same : g'.map Token.word = g.map Token.word) : Group g' d := by
  have single : ∀ {t : Token} {toks : List Token}, toks.map Token.word = [t].map Token.word →
      ∃ t', toks = [t'] ∧ t'.word = t.word := by
    intro t toks same
    obtain ⟨t', later, rfl, word, same⟩ := List.map_eq_cons_iff.mp same
    rw [List.map_nil, List.map_eq_nil_iff] at same
    exact ⟨t', by rw [same], word⟩
  cases said with
  | single notTens value =>
      obtain ⟨t', rfl, word⟩ := single same
      exact .single (by rw [word]; exact notTens) (by rw [word]; exact value)
  | alone tens =>
      obtain ⟨t', rfl, word⟩ := single same
      exact .alone (by rw [word]; exact tens)
  | joined tens hyphen joiner value =>
      obtain ⟨t', later, rfl, word, same⟩ := List.map_eq_cons_iff.mp same
      rw [List.map_append, List.map_append] at same
      obtain ⟨h', later, rfl, hyphen', same⟩ := List.map_eq_append_iff.mp same
      obtain ⟨j', later, rfl, joiner', same⟩ := List.map_eq_append_iff.mp same
      obtain ⟨u', rfl, word'⟩ := single same
      exact .joined (by rw [word]; exact tens) (hyphen.same hyphen') (joiner.same joiner')
        (by rw [word']; exact value)

theorem EndsTens.same {g g' : List Token} (tens : EndsTens g')
    (same : g'.map Token.word = g.map Token.word) : EndsTens g := by
  obtain ⟨t', last, tens⟩ := tens
  have words : (g'.map Token.word).getLast? = (g.map Token.word).getLast? := by rw [same]
  rw [List.getLast?_map, List.getLast?_map, last] at words
  obtain ⟨t, last, word⟩ := Option.map_eq_some_iff.mp words.symm
  exact ⟨t, last, by rw [IsTens, word]; exact tens⟩

/-- A run of the same words is a run, of the same digits. -/
theorem Run.same {guarded : Bool} {r : List Token} {ds : PyStr} (run : Run guarded r ds) :
    ∀ {r' : List Token}, r'.map Token.word = r.map Token.word → Run guarded r' ds := by
  induction run with
  | last said => exact fun same => .last (said.same same)
  | @more g seps r d ds said between direct apart later ih =>
      intro r' same
      rw [List.map_append, List.map_append] at same
      obtain ⟨g', tail, rfl, sameG, same⟩ := List.map_eq_append_iff.mp same
      obtain ⟨seps', r', rfl, sameS, sameR⟩ := List.map_eq_append_iff.mp same
      refine .more (said.same sameG) ?_ ?_ ?_ (ih sameR)
      · intro s member
        have word : s.word ∈ seps.map Token.word := by
          rw [← sameS]
          exact List.mem_map_of_mem member
        obtain ⟨t, member, word⟩ := List.mem_map.mp word
        rw [IsSeparator, ← word]
        exact between t member
      · intro guarded
        rw [direct guarded, List.map_nil, List.map_eq_nil_iff] at sameS
        exact sameS
      · intro tens
        have same' : (seps' ++ r').map Token.word = (seps ++ r).map Token.word := by
          rw [List.map_append, List.map_append, sameS, sameR]
        exact (front_of_same same').unitAhead (apart (tens.same sameG))

/-- A run that did not go on does not go on. -/
theorem Closed.front {guarded : Bool} {used used' toks toks' : List Token}
    (closed : Closed guarded used toks) (front : Front toks toks')
    (same : used'.map Token.word = used.map Token.word) : Closed guarded used' toks' where
  next := by
    have next := closed.next
    cases guarded with
    | true => exact front.head next
    | false => exact front.dropSeparators.head next
  unit tens := front.unitAhead (closed.unit (tens.same same))

section
variable [PyRuntime]

/-! ### Digits among the tokens -/

/-- A token of decimal digits. -/
def IsDigits (t : Token) : Prop := t.word ≠ [] ∧ ∀ c ∈ t.word, isDecimal c = true

/-- A part that is written in digits. -/
def Digital : Part → Prop
  | .left t => IsDigits t
  | .said _ _ => True

theorem IsDigits.head {d : Token} (digits : IsDigits d) : ∃ c ∈ d.word.head?, isDecimal c = true := by
  obtain ⟨c, tail, shape⟩ := List.exists_cons_of_ne_nil digits.1
  exact ⟨c, by rw [shape]; rfl, digits.2 c (by rw [shape]; exact List.mem_cons_self)⟩

/-- No word that the loop knows begins with a digit. -/
theorem not_known {words : List PyStr} {w : PyStr} (decimal : ∃ c ∈ w.head?, isDecimal c = true)
    (known : ∀ w ∈ words, ∀ c ∈ w.head?, c < 128 ∧ isAsciiDigit c = false) : w ∉ words := by
  intro member
  obtain ⟨c, head, decimal⟩ := decimal
  obtain ⟨ascii, other⟩ := known w member c head
  rw [isDecimal, PyRuntime.decimal_ascii c ascii, if_neg (by rw [other]; exact Bool.false_ne_true)] at decimal
  cases decimal

theorem not_contained {words : List PyStr} {w : PyStr} (decimal : ∃ c ∈ w.head?, isDecimal c = true)
    (known : ∀ w ∈ words, ∀ c ∈ w.head?, c < 128 ∧ isAsciiDigit c = false) : words.contains w = false := by
  rw [Bool.eq_false_iff]
  exact fun member => not_known decimal known (List.contains_iff_mem.mp member)

theorem IsDigits.plain {d : Token} (digits : IsDigits d) : Plain d.word where
  number := by
    rw [Bool.eq_false_iff]
    exact fun number => not_known digits.head (by decide +kernel) (mem_numberWords number)
  joiner := not_contained digits.head (by decide)
  separator := not_contained digits.head (by decide)

/-- After digits no month is near. -/
theorem Trace.step_digits (tr : Trace) {d : Token} (digits : IsDigits d) :
    tr.step d = ⟨tr.blank, false, false⟩ := by
  obtain ⟨c, head, decimal⟩ := digits.head
  have word : isWordToken d = true := by
    rw [isWordToken, Option.mem_def.mp head, Option.any_some, PyRuntime.isAlnum_decimal c decimal]
  have month : isMonth d = false := by
    have other : d.word ∉ [py "may", py "marco"] := not_known digits.head (by decide)
    rw [List.mem_cons, List.mem_singleton, not_or] at other
    rw [isMonth, if_neg other.1, if_neg other.2]
    exact not_contained digits.head (by decide +kernel)
  have link : isLink d = false := by
    rw [isLink, Bool.or_eq_false_iff]
    exact ⟨not_contained digits.head (by decide +kernel), not_contained digits.head (by decide)⟩
  have some_ : d.word.isEmpty = false := List.isEmpty_eq_false_iff.mpr digits.1
  rw [Trace.step, some_, if_pos word, if_pos word, month, link, Bool.or_false, Bool.false_and]

/-! ### Echoes -/

/-- The tokens of what is written for some parts: parts in digits come together in one token. -/
inductive Echo : List Part → List Token → Prop
  | nil : Echo [] []
  | keep {t t' : Token} {ps : List Part} {toks : List Token} (raw : t'.raw = t.raw)
      (word : t'.word = t.word) (later : Echo ps toks) : Echo (.left t :: ps) (t' :: toks)
  | merge {p : Part} {ms ps : List Part} {d : Token} {toks : List Token} (first : Digital p)
      (more : ∀ m ∈ ms, Digital m) (digits : IsDigits d) (later : Echo ps toks) :
      Echo (p :: (ms ++ ps)) (d :: toks)

theorem Echo.front {ps : List Part} {toks : List Token} (echo : Echo ps toks) :
    Front (ps.flatMap Part.source) toks := by
  induction echo with
  | nil => exact .nil
  | keep raw word later ih => exact .keep word ih
  | merge first more digits later ih => exact .plain digits.plain

/-- Tokens that are not digits are echoed one by one. -/
theorem Echo.lefts {used : List Token} (other : ∀ t ∈ used, ¬IsDigits t) {ps : List Part} :
    ∀ {toks : List Token}, Echo (used.map .left ++ ps) toks → ∃ used' rest,
      toks = used' ++ rest ∧ used'.map Token.word = used.map Token.word ∧ Echo ps rest := by
  induction used with
  | nil => exact fun echo => ⟨[], _, rfl, rfl, echo⟩
  | cons t used ih =>
      rw [List.forall_mem_cons] at other
      intro toks echo
      rw [List.map_cons, List.cons_append] at echo
      generalize parts : used.map Part.left ++ ps = qs at echo
      cases echo with
      | @keep _ t' _ toks raw word later =>
          subst parts
          obtain ⟨used', rest, rfl, words, echo⟩ := ih other.2 later
          exact ⟨t' :: used', rest, rfl, by rw [List.map_cons, List.map_cons, word, words], echo⟩
      | merge first more digits later => exact absurd first other.1

/-- The words of a run are no digits. -/
theorem Run.not_digits {guarded : Bool} {r : List Token} {ds : PyStr} (run : Run guarded r ds) :
    ∀ t ∈ r, ¬IsDigits t := by
  have plain : ∀ {t : Token}, IsDigits t → ¬IsNumber t ∧ joiners.contains t.word = false ∧
      separators.contains t.word = false := by
    intro t digits
    have plain := digits.plain
    exact ⟨by rw [IsNumber, plain.number]; exact Bool.false_ne_true, plain.joiner, plain.separator⟩
  have group : ∀ {g : List Token} {d : PyStr}, Group g d → ∀ t ∈ g, ¬IsDigits t := by
    intro g d said t member digits
    obtain ⟨number, joiner, separator⟩ := plain digits
    obtain ⟨n, tail, shape, first⟩ := said.first
    cases said with
    | single notTens value =>
        rw [List.mem_singleton.mp member] at number
        cases shape
        exact number first
    | alone tens =>
        rw [List.mem_singleton.mp member] at number
        cases shape
        exact number first
    | joined tens hyphen joiner' value =>
        cases shape
        rw [List.mem_cons, List.mem_append, List.mem_append, List.mem_singleton] at member
        rcases member with rfl | member | member | rfl
        · exact number first
        · rw [hyphen_separates (List.contains_iff_mem.mpr (hyphen.mem member))] at separator
          cases separator
        · rw [List.contains_iff_mem.mpr (joiner'.mem member)] at joiner
          cases joiner
        · exact number (number_of_unit value)
  induction run with
  | last said => exact group said
  | more said between direct apart later ih =>
      intro t member
      rw [List.mem_append, List.mem_append] at member
      rcases member with member | member | member
      · exact group said t member
      · intro digits
        have separator := between t member
        rw [IsSeparator, (plain digits).2.2] at separator
        cases separator
      · exact ih t member

/-- What is left when a part in digits is passed. -/
theorem Scan.pass_digital {p : Part} (digital : Digital p) {ps : List Part} {tr : Trace}
    {toks : List Token} (scan : Scan tr toks (p :: ps)) :
    ∃ rest, Scan ⟨tr.blank, false, false⟩ rest ps := by
  generalize parts : p :: ps = qs at scan
  cases scan with
  | nil => cases parts
  | @pass _ t toks qs other later =>
      obtain ⟨rfl, rfl⟩ := List.cons.inj parts
      rw [Trace.step_digits tr digital] at later
      exact ⟨_, later⟩
  | @spare _ used rest ds qs legible run closed kept later =>
      obtain ⟨n, tail, rfl, number⟩ := run.first
      obtain ⟨rfl, _⟩ := List.cons.inj parts
      exact absurd digital (run.not_digits n List.mem_cons_self)
  | @rewrite _ used rest ds qs legible free run closed long later =>
      obtain ⟨rfl, rfl⟩ := List.cons.inj parts
      rw [Trace.steps_run tr run] at later
      exact ⟨_, later⟩

/-- What is left when a part in digits is passed, and more of them. -/
theorem Scan.pass_digits {ms : List Part} (more : ∀ m ∈ ms, Digital m) {ps : List Part} :
    ∀ {p : Part}, Digital p → ∀ {tr : Trace} {toks : List Token}, Scan tr toks (p :: (ms ++ ps)) →
      ∃ rest, Scan ⟨tr.blank, false, false⟩ rest ps := by
  induction ms with
  | nil => exact fun first _ _ scan => scan.pass_digital first
  | cons m ms ih =>
      intro p first tr toks scan
      rw [List.forall_mem_cons] at more
      obtain ⟨rest, scan⟩ := scan.pass_digital first
      have left := ih more.2 more.1 scan
      exact left

theorem Trace.step_same (tr : Trace) {t t' : Token} (raw : t'.raw = t.raw) (word : t'.word = t.word) :
    tr.step t' = tr.step t := by
  rw [Trace.step, Trace.step, isWordToken, isMonth, isLink, raw, word]
  rfl

/-- The loop leaves every token of what was written. -/
theorem Scan.echo (n : Nat) : ∀ {tr : Trace} {toks : List Token} {ps : List Part} {toks' : List Token},
    toks'.length ≤ n → Scan tr toks ps → Echo ps toks' → Scan tr toks' (toks'.map .left) := by
  induction n with
  | zero =>
      intro tr toks ps toks' short scan echo
      rw [List.length_eq_zero_iff.mp (Nat.le_zero.mp short)]
      exact .nil
  | succ n ih =>
      intro tr toks ps toks' short scan echo
      cases echo with
      | nil => exact .nil
      | @merge p ms ps d toks' first more digits later =>
          obtain ⟨rest, scan⟩ := scan.pass_digits more first
          rw [← Trace.step_digits tr digits] at scan
          have other : ¬IsNumber d := by
            rw [IsNumber, digits.plain.number]
            exact Bool.false_ne_true
          exact .pass other (ih (Nat.le_of_succ_le_succ short) scan later)
      | @keep t t' ps toks' raw word later =>
          generalize parts : Part.left t :: ps = qs at scan
          cases scan with
          | nil => cases parts
          | @pass _ t₁ toks qs other scan =>
              obtain ⟨same, rfl⟩ := List.cons.inj parts
              cases same
              rw [← Trace.step_same tr raw word] at scan
              refine .pass ?_ (ih (Nat.le_of_succ_le_succ short) scan later)
              rw [IsNumber, word]
              exact other
          | @rewrite _ used rest ds qs legible free run closed long scan => cases parts
          | @spare _ used rest ds qs legible run closed kept scan =>
              have echo : Echo (used.map Part.left ++ qs) (t' :: toks') := by
                rw [← parts]
                exact .keep raw word later
              obtain ⟨used', rest', split, words, echo⟩ := echo.lefts run.not_digits
              have front := echo.front
              rw [scan.source] at front
              have run' := run.same words
              have fewer : rest'.length ≤ n := by
                have lengths := congrArg List.length split
                obtain ⟨m, tail, rfl, _⟩ := run'.first
                rw [List.length_append, List.length_cons] at lengths
                rw [List.length_cons] at short lengths
                omega
              rw [Trace.steps_run tr run, ← Trace.steps_run tr run'] at scan
              rw [split, List.map_append]
              exact .spare legible run' (closed.front front words) kept (ih fewer scan echo)

end

end GhostPour.N400.SpokenNumbers
