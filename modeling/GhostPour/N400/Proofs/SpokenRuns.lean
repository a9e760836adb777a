/-
Module: GhostPour.N400.Proofs.SpokenRuns
Layer: Proofs
Purpose: What the inner loop takes for a run of number words. A run is groups with separators between
  them, and what follows it only matters as far as it would go on: `readRun` reads it in front of
  anything that does not.
Trusted boundary: none
Main exports: numberWords, Group, readGroup_of_group, group_of_readGroup, Run, Closed, readRun_of_run,
  run_exists, Run.first, Run.last_number, Run.spoken, Run.digits
-/
import GhostPour.Library.JsonCanonical
import GhostPour.N400.Proofs.SpokenTokens

namespace GhostPour.N400.SpokenNumbers

/-! ### Vocabulary -/

/-- All number words. -/
def numberWords : List PyStr := (unitWords ++ (teenWords ++ tenWords)).map Prod.fst

/-- A token of a number word. -/
abbrev IsNumber (t : Token) : Prop := isNumberWord t.word = true

/-- A token of a separator. -/
abbrev IsSeparator (t : Token) : Prop := separators.contains t.word = true

/-- A token of a tens word. -/
abbrev IsTens (t : Token) : Prop := (tenWords.get t.word).isSome = true

theorem mem_keys_of_get {d : Assoc Nat} {w : PyStr} {n : Nat} (found : d.get w = some n) :
    w ∈ d.map Prod.fst :=
  List.mem_map_of_mem (Assoc.mem_of_get found)

theorem mem_numberWords {w : PyStr} (number : isNumberWord w = true) : w ∈ numberWords := by
  rw [isNumberWord, Bool.or_eq_true, Bool.or_eq_true] at number
  rw [numberWords, List.map_append, List.map_append, List.mem_append, List.mem_append]
  rcases number with (unit | teen) | tens
  · obtain ⟨n, found⟩ := Option.isSome_iff_exists.mp unit
    exact .inl (mem_keys_of_get found)
  · obtain ⟨n, found⟩ := Option.isSome_iff_exists.mp teen
    exact .inr (.inl (mem_keys_of_get found))
  · obtain ⟨n, found⟩ := Option.isSome_iff_exists.mp tens
    exact .inr (.inr (mem_keys_of_get found))

theorem number_of_unit {w : PyStr} {n : Nat} (unit : unitWords.get w = some n) : isNumberWord w = true := by
  rw [isNumberWord, unit]
  rfl

theorem number_of_tens {w : PyStr} (tens : (tenWords.get w).isSome = true) : isNumberWord w = true := by
  rw [isNumberWord, tens, Bool.or_true]

/-- A number word joins and separates nothing. -/
theorem number_plain {w : PyStr} (number : isNumberWord w = true) :
    joiners.contains w = false ∧ separators.contains w = false := by
  have each : ∀ w ∈ numberWords, joiners.contains w = false ∧ separators.contains w = false := by
    decide +kernel
  exact each w (mem_numberWords number)

theorem not_joiner_of_separator {w : PyStr} (separator : separators.contains w = true) :
    joiners.contains w = false := by
  have each : ∀ w ∈ separators, joiners.contains w = false := by decide
  exact each w (List.contains_iff_mem.mp separator)

theorem unit_not_tens {w : PyStr} {n : Nat} (unit : unitWords.get w = some n) : tenWords.get w = none := by
  have each : ∀ w ∈ unitWords.map Prod.fst, tenWords.get w = none := by decide +kernel
  exact each w (mem_keys_of_get unit)

theorem hyphen_separates {w : PyStr} (hyphen : [py "-"].contains w = true) :
    separators.contains w = true := by
  have each : ∀ w ∈ [py "-"], separators.contains w = true := by decide
  exact each w (List.contains_iff_mem.mp hyphen)

/-! ### The unit after a tens word -/

/-- No token, or one of a kind. -/
inductive Skips (kind : List PyStr) : List Token → Prop
  | none : Skips kind []
  | one {t : Token} (isKind : kind.contains t.word = true) : Skips kind [t]

theorem skipOne_skips (kind : List PyStr) (rest : List Token) :
    ∃ skipped, Skips kind skipped ∧ rest = skipped ++ skipOne kind rest := by
  cases rest with
  | nil => exact ⟨[], .none, rfl⟩
  | cons t rest =>
      rw [skipOne]
      by_cases isKind : kind.contains t.word = true
      · exact ⟨[t], .one isKind, by rw [if_pos isKind]; rfl⟩
      · exact ⟨[], .none, by rw [if_neg isKind]; rfl⟩

theorem skipOne_append {kind : List PyStr} {skipped : List Token} (skips : Skips kind skipped) {t : Token}
    (other : kind.contains t.word = false) (rest : List Token) :
    skipOne kind (skipped ++ t :: rest) = t :: rest := by
  cases skips with
  | none => rw [List.nil_append, skipOne, if_neg (by rw [other]; exact Bool.false_ne_true)]
  | one isKind => rw [List.singleton_append, skipOne, if_pos isKind]

/-- The unit that is found stands behind a hyphen and a joiner, or neither. -/
theorem unitAhead_some {rest : List Token} {unit stop : Nat} {later : List Token}
    (ahead : unitAhead rest = some (unit, stop, later)) : ∃ h j u,
      Skips [py "-"] h ∧ Skips joiners j ∧ unitWords.get u.word = some unit ∧ stop = u.stop ∧
        rest = h ++ (j ++ u :: later) := by
  obtain ⟨h, hyphen, split⟩ := skipOne_skips [py "-"] rest
  obtain ⟨j, joiner, split'⟩ := skipOne_skips joiners (skipOne [py "-"] rest)
  rw [unitAhead] at ahead
  cases left : skipOne joiners (skipOne [py "-"] rest) with
  | nil =>
      rw [left] at ahead
      cases ahead
  | cons u tail =>
      rw [left] at ahead split'
      obtain ⟨n, found, same⟩ := Option.map_eq_some_iff.mp ahead
      cases same
      exact ⟨h, j, u, hyphen, joiner, found, rfl, by rw [split, split']⟩

/-- A unit behind a hyphen and a joiner, or neither, is found. -/
theorem unitAhead_complete {h j : List Token} {u : Token} {unit : Nat} (hyphen : Skips [py "-"] h)
    (joiner : Skips joiners j) (value : unitWords.get u.word = some unit) (later : List Token) :
    unitAhead (h ++ (j ++ u :: later)) = some (unit, u.stop, later) := by
  have plain := number_plain (number_of_unit value)
  have notHyphen : ∀ {w : PyStr}, separators.contains w = false → [py "-"].contains w = false := by
    intro w other
    rw [Bool.eq_false_iff]
    intro hyphen
    rw [hyphen_separates hyphen] at other
    cases other
  have first : skipOne [py "-"] (h ++ (j ++ u :: later)) = j ++ u :: later := by
    cases joiner with
    | none => exact skipOne_append hyphen (notHyphen plain.2) later
    | @one t isJoiner =>
        have other : separators.contains t.word = false := by
          rw [Bool.eq_false_iff]
          intro separator
          rw [not_joiner_of_separator separator] at isJoiner
          cases isJoiner
        exact skipOne_append hyphen (notHyphen other) (u :: later)
  rw [unitAhead, first, skipOne_append joiner plain.1]
  simp only [value, Option.map_some]

theorem skipOne_other {kind : List PyStr} {t : Token} (other : kind.contains t.word = false)
    (rest : List Token) : skipOne kind (t :: rest) = t :: rest :=
  skipOne_append .none other rest

/-- Behind separators, the unit is looked for at a separator or at the number word. -/
theorem skip_separators {seps : List Token} (between : ∀ s ∈ seps, IsSeparator s) {n : Token}
    (number : IsNumber n) : ∃ (t : Token) (tail : List Token → List Token), ∀ x,
      skipOne joiners (skipOne [py "-"] (seps ++ n :: x)) = t :: tail x := by
  have plain := number_plain number
  have notHyphen : [py "-"].contains n.word = false := by
    rw [Bool.eq_false_iff]
    intro hyphen
    rw [hyphen_separates hyphen] at plain
    cases plain.2
  cases seps with
  | nil =>
      refine ⟨n, id, fun x => ?_⟩
      rw [List.nil_append, skipOne_other notHyphen, skipOne_other plain.1]
      rfl
  | cons s seps =>
      rw [List.forall_mem_cons] at between
      by_cases hyphen : [py "-"].contains s.word = true
      · cases seps with
        | nil =>
            refine ⟨n, id, fun x => ?_⟩
            rw [List.singleton_append, skipOne, if_pos hyphen, skipOne_other plain.1]
            rfl
        | cons s' seps =>
            refine ⟨s', fun x => seps ++ n :: x, fun x => ?_⟩
            rw [List.cons_append, skipOne, if_pos hyphen, List.cons_append,
              skipOne_other (not_joiner_of_separator (between.2 s' List.mem_cons_self))]
      · refine ⟨s, fun x => seps ++ n :: x, fun x => ?_⟩
        rw [List.cons_append, skipOne, if_neg hyphen,
          skipOne_other (not_joiner_of_separator between.1)]

/-- What comes after the next number word does not matter to the unit ahead. -/
theorem unitAhead_none {seps : List Token} (between : ∀ s ∈ seps, IsSeparator s) {n : Token}
    (number : IsNumber n) {x : List Token} (none_ : unitAhead (seps ++ n :: x) = none) (y : List Token) :
    unitAhead (seps ++ n :: y) = none := by
  obtain ⟨t, tail, shape⟩ := skip_separators between number
  rw [unitAhead, shape] at none_ ⊢
  rw [Option.map_eq_none_iff] at none_ ⊢
  exact none_

/-! ### Groups -/

/-- Some tokens end with a tens word, which a unit could follow. -/
def EndsTens (toks : List Token) : Prop := ∃ t, toks.getLast? = some t ∧ IsTens t

/-- Where some tokens end. -/
def stopOf (toks : List Token) : Nat := (toks.getLast?.map Token.stop).getD 0

/-- A group and its digits: a number word, or a tens word and a unit. -/
inductive Group : List Token → PyStr → Prop
  | single {t : Token} {n : Nat} (notTens : tenWords.get t.word = none)
      (value : (teenWords.get t.word).or (unitWords.get t.word) = some n) : Group [t] (strOfNat n)
  | alone {t : Token} {ten : Nat} (tens : tenWords.get t.word = some ten) : Group [t] (strOfNat ten)
  | joined {t u : Token} {h j : List Token} {ten unit : Nat} (tens : tenWords.get t.word = some ten)
      (hyphen : Skips [py "-"] h) (joiner : Skips joiners j) (value : unitWords.get u.word = some unit) :
      Group (t :: (h ++ (j ++ [u]))) (strOfNat (ten + unit))

theorem getLast?_joined (t u : Token) (h j : List Token) :
    (t :: (h ++ (j ++ [u]))).getLast? = some u := by
  have shape : t :: (h ++ (j ++ [u])) = (t :: (h ++ j)) ++ [u] := by simp
  rw [shape, List.getLast?_append]
  rfl

/-- A group is read in front of anything that does not join it. -/
theorem readGroup_of_group {g : List Token} {d : PyStr} (said : Group g d) {rest : List Token}
    (closed : EndsTens g → unitAhead rest = none) :
    readGroup (g ++ rest) = some (d, stopOf g, rest) := by
  cases said with
  | single notTens value =>
      rw [List.singleton_append, readGroup, notTens]
      simp only [value, Option.map_some]
      rfl
  | @alone t ten tens =>
      have apart := closed ⟨t, rfl, by rw [IsTens, tens]; rfl⟩
      rw [List.singleton_append, readGroup, tens]
      simp only [apart]
      rfl
  | @joined t u h j ten unit tens hyphen joiner value =>
      have ahead := unitAhead_complete hyphen joiner value rest
      have shape : t :: (h ++ (j ++ [u])) ++ rest = t :: (h ++ (j ++ u :: rest)) := by simp
      rw [shape, readGroup, tens]
      simp only [ahead]
      rw [stopOf, getLast?_joined]
      rfl

/-- What is read for a group is one. -/
theorem group_of_readGroup {toks rest : List Token} {d : PyStr} {stop : Nat}
    (read : readGroup toks = some (d, stop, rest)) :
    ∃ g, toks = g ++ rest ∧ Group g d ∧ (EndsTens g → unitAhead rest = none) := by
  cases toks with
  | nil => cases read
  | cons t tail =>
      rw [readGroup] at read
      cases tens : tenWords.get t.word with
      | none =>
          rw [tens] at read
          obtain ⟨n, value, same⟩ := Option.map_eq_some_iff.mp read
          cases same
          refine ⟨[t], rfl, .single tens value, ?_⟩
          rintro ⟨t', last, isTens⟩
          have same : t = t' := Option.some.inj last
          subst same
          rw [IsTens, tens] at isTens
          cases isTens
      | some ten =>
          rw [tens] at read
          simp only at read
          cases ahead : unitAhead tail with
          | none =>
              rw [ahead] at read
              cases read
              exact ⟨[t], rfl, .alone tens, fun _ => ahead⟩
          | some found =>
              obtain ⟨unit, stop', later⟩ := found
              rw [ahead] at read
              cases read
              obtain ⟨h, j, u, hyphen, joiner, value, _, split⟩ := unitAhead_some ahead
              refine ⟨t :: (h ++ (j ++ [u])), by rw [split]; simp, .joined tens hyphen joiner value, ?_⟩
              rintro ⟨t', last, isTens⟩
              rw [getLast?_joined] at last
              cases last
              rw [IsTens, unit_not_tens value] at isTens
              cases isTens

theorem readGroup_isSome_iff (t : Token) (rest : List Token) :
    (readGroup (t :: rest)).isSome = true ↔ IsNumber t := by
  rw [readGroup, IsNumber, isNumberWord]
  cases tenWords.get t.word with
  | some ten =>
      simp only [Option.isSome_some, Bool.or_true, iff_true]
      split <;> rfl
  | none =>
      simp only [Option.isSome_map, Option.isSome_or, Option.isSome_none, Bool.or_false]
      rw [Bool.or_comm]

/-! ### Runs -/

/-- A run and its digits: groups with separators between them, or none in a guarded one. -/
inductive Run (guarded : Bool) : List Token → PyStr → Prop
  | last {g : List Token} {d : PyStr} (said : Group g d) : Run guarded g d
  | more {g seps r : List Token} {d ds : PyStr} (said : Group g d)
      (between : ∀ s ∈ seps, IsSeparator s) (direct : guarded = true → seps = [])
      (apart : EndsTens g → unitAhead (seps ++ r) = none) (later : Run guarded r ds) :
      Run guarded (g ++ (seps ++ r)) (d ++ ds)

/-- A run does not go on with what follows it. -/
structure Closed (guarded : Bool) (used rest : List Token) : Prop where
  next : ∀ t ∈ (if guarded then rest else rest.dropWhile fun t => separators.contains t.word).head?,
    ¬IsNumber t
  unit : EndsTens used → unitAhead rest = none

theorem Group.first {g : List Token} {d : PyStr} (said : Group g d) : ∃ n tail, g = n :: tail ∧ IsNumber n := by
  cases said with
  | @single t n notTens value =>
      refine ⟨t, [], rfl, ?_⟩
      have either : (((teenWords.get t.word).or (unitWords.get t.word))).isSome = true := by rw [value]; rfl
      rw [Option.isSome_or] at either
      rw [IsNumber, isNumberWord, Bool.or_comm (unitWords.get t.word).isSome, either]
      rfl
  | @alone t ten tens => exact ⟨t, [], rfl, number_of_tens (by rw [tens]; rfl)⟩
  | @joined t u h j ten unit tens => exact ⟨t, _, rfl, number_of_tens (by rw [tens]; rfl)⟩

theorem Run.first {guarded : Bool} {r : List Token} {ds : PyStr} (run : Run guarded r ds) :
    ∃ n tail, r = n :: tail ∧ IsNumber n := by
  cases run with
  | last said => exact said.first
  | more said =>
      obtain ⟨n, tail, rfl, number⟩ := said.first
      exact ⟨n, _, rfl, number⟩

theorem stopOf_append {a b : List Token} (some_ : b ≠ []) : stopOf (a ++ b) = stopOf b := by
  obtain ⟨t, last⟩ := Option.ne_none_iff_exists'.mp (mt List.getLast?_eq_none_iff.mp some_)
  rw [stopOf, stopOf, List.getLast?_append, last]
  rfl

theorem EndsTens.append {b : List Token} (a : List Token) (tens : EndsTens b) : EndsTens (a ++ b) := by
  obtain ⟨t, last, isTens⟩ := tens
  refine ⟨t, ?_, isTens⟩
  rw [List.getLast?_append, last]
  rfl

theorem dropWhile_separators {seps : List Token} (between : ∀ s ∈ seps, IsSeparator s) {n : Token}
    (number : IsNumber n) (x : List Token) :
    (seps ++ n :: x).dropWhile (fun t => separators.contains t.word) = n :: x := by
  rw [List.dropWhile_append_of_pos between,
    List.dropWhile_cons_of_neg (by rw [(number_plain number).2]; exact Bool.false_ne_true)]

/-- The loop reads a run, in front of anything that does not go on with it. -/
theorem readRun_of_run {guarded : Bool} {used : List Token} {ds : PyStr} (run : Run guarded used ds)
    {rest : List Token} (closed : Closed guarded used rest) : ∀ n digits stop, used.length ≤ n →
      readRun guarded n digits stop (used ++ rest) = (digits ++ ds, stopOf used, rest) := by
  induction run with
  | @last g d said =>
      intro n digits stop enough
      obtain ⟨t, tail, rfl, number⟩ := said.first
      cases n with
      | zero => cases enough
      | succ n =>
          rw [readRun, readGroup_of_group said closed.unit]
          have next := closed.next
          cases guarded with
          | true =>
              simp only [if_true] at next ⊢
              have none_ : readGroup rest = none := by
                cases rest with
                | nil => rfl
                | cons t rest =>
                    rw [← Option.not_isSome_iff_eq_none, readGroup_isSome_iff]
                    exact next t rfl
              cases n with
              | zero => rfl
              | succ n => rw [readRun, none_]
          | false =>
              simp only [Bool.false_eq_true, if_false] at next ⊢
              rw [if_neg]
              rw [Option.any_eq_true]
              rintro ⟨t, head, number⟩
              exact next t head number
  | @more g seps r d ds said between direct apart later ih =>
      intro n digits stop enough
      obtain ⟨m, tail, rfl, number⟩ := later.first
      have some_ : seps ++ m :: tail ≠ [] := by simp
      have closed' : Closed guarded (m :: tail) rest := by
        refine ⟨closed.next, fun tens => closed.unit ?_⟩
        rw [← List.append_assoc]
        exact tens.append _
      have apart' : EndsTens g → unitAhead (seps ++ m :: tail ++ rest) = none := by
        intro tens
        rw [List.append_assoc]
        exact unitAhead_none between number (apart tens) (tail ++ rest)
      have longer : 1 ≤ g.length := by
        obtain ⟨t, tail, rfl, _⟩ := said.first
        simp
      cases n with
      | zero => simp only [List.length_append] at enough; omega
      | succ n =>
          have enough' : (m :: tail).length ≤ n := by
            simp only [List.length_append] at enough
            omega
          have read := ih closed' n (digits ++ d) (stopOf g) enough'
          rw [List.append_assoc, readRun, readGroup_of_group said apart']
          rw [stopOf_append some_, stopOf_append (List.cons_ne_nil m tail), ← List.append_assoc digits]
          cases guarded with
          | true =>
              rw [direct rfl]
              exact read
          | false =>
              have ahead := dropWhile_separators between number (tail ++ rest)
              simp only [Bool.false_eq_true, if_false]
              rw [List.append_assoc, List.cons_append, ahead, if_pos (by simpa using number)]
              exact read

/-- At a number word there is a run. -/
theorem run_exists (guarded : Bool) (n : Nat) : ∀ toks : List Token, toks.length ≤ n →
    (∃ t ∈ toks.head?, IsNumber t) →
      ∃ used rest ds, toks = used ++ rest ∧ Run guarded used ds ∧ Closed guarded used rest := by
  induction n with
  | zero =>
      rintro toks short ⟨t, head, _⟩
      rw [List.length_eq_zero_iff.mp (Nat.le_zero.mp short)] at head
      cases head
  | succ n ih =>
      rintro toks short ⟨t, head, number⟩
      obtain ⟨tail, rfl⟩ := List.head?_eq_some_iff.mp head
      obtain ⟨⟨d, stop, rest⟩, read⟩ := Option.isSome_iff_exists.mp ((readGroup_isSome_iff t tail).mpr number)
      obtain ⟨g, split, said, apart⟩ := group_of_readGroup read
      have fewer : rest.length ≤ n := by
        obtain ⟨t', tail', rfl, _⟩ := said.first
        have lengths := congrArg List.length split
        simp only [List.length_cons, List.length_append] at lengths short
        omega
      rw [split]
      -- the separators that a run may pass
      have passes : ∃ seps ahead, rest = seps ++ ahead ∧ (∀ s ∈ seps, IsSeparator s) ∧
          (guarded = true → seps = []) ∧
          (if guarded then rest else rest.dropWhile fun t => separators.contains t.word) = ahead := by
        cases guarded with
        | true => exact ⟨[], rest, rfl, by simp, fun _ => rfl, rfl⟩
        | false =>
            refine ⟨rest.takeWhile fun t => separators.contains t.word, _,
              List.takeWhile_append_dropWhile.symm, fun s member =>
                List.mem_takeWhile_imp (p := fun t : Token => separators.contains t.word) member,
              fun no => (Bool.false_ne_true no).elim, rfl⟩
      obtain ⟨seps, ahead, parts, between, direct, same⟩ := passes
      by_cases goesOn : ∃ t ∈ ahead.head?, IsNumber t
      · have shorter : ahead.length ≤ n := by
          rw [parts, List.length_append] at fewer
          omega
        obtain ⟨used, left, ds, rfl, run, closed⟩ := ih ahead shorter goesOn
        have some_ : seps ++ used ≠ [] := by
          obtain ⟨m, tail, rfl, _⟩ := run.first
          simp
        refine ⟨g ++ (seps ++ used), left, d ++ ds, by rw [parts]; simp, .more said between direct ?_ run,
          ⟨closed.next, fun tens => closed.unit ?_⟩⟩
        · intro tens
          obtain ⟨m, tail, rfl, number⟩ := run.first
          have none_ := apart tens
          rw [parts, List.cons_append] at none_
          exact unitAhead_none between number none_ tail
        · obtain ⟨t, last, isTens⟩ := tens
          refine ⟨t, ?_, isTens⟩
          obtain ⟨m, tail, rfl, _⟩ := run.first
          rwa [List.getLast?_append, List.getLast?_append, List.getLast?_cons,
            Option.some_or, Option.some_or, ← List.getLast?_cons] at last
      · refine ⟨g, rest, d, rfl, .last said, ⟨?_, apart⟩⟩
        rw [same]
        intro t head number
        exact goesOn ⟨t, head, number⟩

/-! ### What a run has -/

theorem Group.last {g : List Token} {d : PyStr} (said : Group g d) :
    ∃ n, g.getLast? = some n ∧ IsNumber n := by
  cases said with
  | single notTens value =>
      obtain ⟨n, tail, shape, number⟩ := (Group.single notTens value).first
      cases shape
      exact ⟨_, rfl, number⟩
  | @alone t ten tens => exact ⟨t, rfl, number_of_tens (by rw [tens]; rfl)⟩
  | joined tens hyphen joiner value => exact ⟨_, getLast?_joined _ _ _ _, number_of_unit value⟩

/-- A run ends with a number word. -/
theorem Run.last_number {guarded : Bool} {r : List Token} {ds : PyStr} (run : Run guarded r ds) :
    ∃ n, r.getLast? = some n ∧ IsNumber n := by
  induction run with
  | last said => exact said.last
  | @more g seps r d ds said between direct apart later ih =>
      obtain ⟨n, last, number⟩ := ih
      refine ⟨n, ?_, number⟩
      rw [List.getLast?_append, List.getLast?_append, last]
      rfl

theorem number_ne_nil {w : PyStr} (number : isNumberWord w = true) : w ≠ [] := by
  have each : ∀ w ∈ numberWords, w ≠ [] := by decide +kernel
  exact each w (mem_numberWords number)

theorem Skips.mem {kind : List PyStr} {skipped : List Token} (skips : Skips kind skipped) {t : Token}
    (member : t ∈ skipped) : t.word ∈ kind := by
  cases skips with
  | none => cases member
  | one isKind =>
      rw [List.mem_singleton] at member
      rw [member]
      exact List.contains_iff_mem.mp isKind

theorem Group.spoken {g : List Token} {d : PyStr} (said : Group g d) : ∀ t ∈ g, t.word ≠ [] := by
  have hyphens : ∀ w ∈ [py "-"], w ≠ [] := by decide
  have joins : ∀ w ∈ joiners, w ≠ [] := by decide
  obtain ⟨n, tail, shape, number⟩ := said.first
  cases said with
  | single notTens value =>
      cases shape
      simpa using number_ne_nil number
  | alone tens =>
      cases shape
      simpa using number_ne_nil number
  | joined tens hyphen joiner value =>
      cases shape
      intro t member
      rw [List.mem_cons, List.mem_append, List.mem_append, List.mem_singleton] at member
      rcases member with rfl | member | member | rfl
      · exact number_ne_nil number
      · exact hyphens _ (hyphen.mem member)
      · exact joins _ (joiner.mem member)
      · exact number_ne_nil (number_of_unit value)

/-- No word of a run is empty. -/
theorem Run.spoken {guarded : Bool} {r : List Token} {ds : PyStr} (run : Run guarded r ds) :
    ∀ t ∈ r, t.word ≠ [] := by
  have marks : ∀ w ∈ separators, w ≠ [] := by decide
  induction run with
  | last said => exact said.spoken
  | more said between direct apart later ih =>
      intro t member
      rw [List.mem_append, List.mem_append] at member
      rcases member with member | member | member
      · exact said.spoken t member
      · exact marks _ (List.contains_iff_mem.mp (between t member))
      · exact ih t member

/-- A run is written in digits. -/
theorem Run.digits {guarded : Bool} {r : List Token} {ds : PyStr} (run : Run guarded r ds) :
    ∀ c ∈ ds, isAsciiDigit c = true := by
  have said_digits : ∀ {g : List Token} {d : PyStr}, Group g d → ∀ c ∈ d, isAsciiDigit c = true := by
    intro g d said
    cases said with
    | single => exact digitsOfNat_isDigit _ _
    | alone => exact digitsOfNat_isDigit _ _
    | joined => exact digitsOfNat_isDigit _ _
  induction run with
  | last said => exact said_digits said
  | more said between direct apart later ih =>
      intro c member
      rw [List.mem_append] at member
      rcases member with member | member
      · exact said_digits said c member
      · exact ih c member

end GhostPour.N400.SpokenNumbers
