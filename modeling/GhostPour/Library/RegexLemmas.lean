/-
Module: GhostPour.Library.RegexLemmas
Layer: Library
Purpose: What a match depends on. A pattern without assertions does not see the text before it; a
  match that stays inside a prefix of the text is a match of the prefix; a pattern whose matches
  start and end with characters of known sets is not disturbed by other characters around it.
Trusted boundary: none
Main exports: Regex.run_reaches, Regex.StartsIn, Regex.EndsIn, Regex.run_extend,
  Regex.run_extend_outside, Regex.run_behind, Regex.Local.of_plain, Regex.Blind.of_plain,
  Regex.chars_of_fullmatch
-/
import GhostPour.Library.Regex

namespace GhostPour

/-! ### Moving forward -/

/-- A cursor further along the text; the character before it is the last one passed. -/
def Cursor.Reaches (c d : Cursor) : Prop :=
  ∃ passed, c.after = passed ++ d.after ∧ d.prev = passed.getLast?.or c.prev

theorem getLast?_cons_or (x : Nat) (s : PyStr) (prev : Option Nat) :
    (x :: s).getLast?.or prev = s.getLast?.or (some x) := by
  rw [List.getLast?_cons]
  cases s.getLast? <;> rfl

theorem Cursor.Reaches.refl (c : Cursor) : c.Reaches c := ⟨[], rfl, rfl⟩

theorem Cursor.Reaches.trans {c d e : Cursor} (one : c.Reaches d) (two : d.Reaches e) :
    c.Reaches e := by
  obtain ⟨front, split, prev⟩ := one
  obtain ⟨back, split', prev'⟩ := two
  refine ⟨front ++ back, by rw [split, split', List.append_assoc], ?_⟩
  rw [prev', prev, List.getLast?_append, Option.or_assoc]

theorem Cursor.Reaches.length_le {c d : Cursor} (reaches : c.Reaches d) :
    d.after.length ≤ c.after.length := by
  obtain ⟨passed, split, _⟩ := reaches
  rw [split, List.length_append]
  omega

section
variable {R : Cursor → Cursor → Prop} {step : Cursor → List Cursor}

/-- What every round keeps, any number of rounds keeps. -/
theorem manyRun_rel (refl : ∀ c, R c c) (trans : ∀ {c d e}, R c d → R d e → R c e)
    (moves : ∀ c, ∀ d ∈ step c, R c d) (fuel : Nat) (c : Cursor) : ∀ d ∈ manyRun step fuel c, R c d := by
  induction fuel generalizing c with
  | zero =>
      intro d member
      rw [manyRun, List.mem_singleton] at member
      exact member ▸ refl c
  | succ fuel ih =>
      intro d member
      rw [manyRun] at member
      rcases List.mem_append.mp member with more | done
      · obtain ⟨e, first, rest⟩ := List.mem_flatMap.mp more
        exact trans (moves c e (List.mem_filter.mp first).1) (ih e d rest)
      · rw [List.mem_singleton] at done
        exact done ▸ refl c

theorem manyLazyRun_rel (refl : ∀ c, R c c) (trans : ∀ {c d e}, R c d → R d e → R c e)
    (moves : ∀ c, ∀ d ∈ step c, R c d) (fuel : Nat) (c : Cursor) :
    ∀ d ∈ manyLazyRun step fuel c, R c d := by
  induction fuel generalizing c with
  | zero =>
      intro d member
      rw [manyLazyRun, List.mem_singleton] at member
      exact member ▸ refl c
  | succ fuel ih =>
      intro d member
      rw [manyLazyRun] at member
      rcases List.mem_cons.mp member with done | more
      · exact done ▸ refl c
      · obtain ⟨e, first, rest⟩ := List.mem_flatMap.mp more
        exact trans (moves c e (List.mem_filter.mp first).1) (ih e d rest)

end

theorem manyRun_reaches {step : Cursor → List Cursor} (moves : ∀ c, ∀ d ∈ step c, c.Reaches d)
    (fuel : Nat) (c : Cursor) : ∀ d ∈ manyRun step fuel c, c.Reaches d :=
  manyRun_rel .refl .trans moves fuel c

theorem manyLazyRun_reaches {step : Cursor → List Cursor} (moves : ∀ c, ∀ d ∈ step c, c.Reaches d)
    (fuel : Nat) (c : Cursor) : ∀ d ∈ manyLazyRun step fuel c, c.Reaches d :=
  manyLazyRun_rel .refl .trans moves fuel c

namespace Regex

/-- A pattern only moves forward. -/
theorem run_reaches (r : Regex) : ∀ c, ∀ d ∈ run r c, c.Reaches d := by
  induction r with
  | eps =>
      intro c d member
      rw [run, List.mem_singleton] at member
      exact member ▸ .refl c
  | set p =>
      rintro ⟨prev, after, groups⟩ d member
      cases after with
      | nil => simp [run] at member
      | cons x rest =>
          simp only [run] at member
          split at member
          · rw [List.mem_singleton] at member
            exact ⟨[x], by rw [member]; rfl, by rw [member]; rfl⟩
          · cases member
  | test p =>
      intro c d member
      simp only [run] at member
      split at member
      · rw [List.mem_singleton] at member
        exact member ▸ .refl c
      · cases member
  | seq a b ihA ihB =>
      intro c d member
      rw [run] at member
      obtain ⟨e, first, second⟩ := List.mem_flatMap.mp member
      exact (ihA c e first).trans (ihB e d second)
  | alt a b ihA ihB =>
      intro c d member
      rw [run] at member
      rcases List.mem_append.mp member with left | right
      · exact ihA c d left
      · exact ihB c d right
  | many r ih =>
      intro c
      rw [run]
      exact manyRun_reaches ih _ c
  | manyLazy r ih =>
      intro c
      rw [run]
      exact manyLazyRun_reaches ih _ c
  | group n r ih =>
      intro c d member
      rw [run] at member
      obtain ⟨e, inner, rfl⟩ := List.mem_map.mp member
      exact ih c e inner

/-! ### First and last characters -/

/-- Every match consumes something and starts with a character of a set. -/
def StartsIn (r : Regex) (p : Nat → Bool) : Prop :=
  ∀ prev s groups, (∀ x ∈ s.head?, p x = false) → run r ⟨prev, s, groups⟩ = []

theorem StartsIn.set {p q : Nat → Bool} (sub : ∀ x, p x = true → q x = true) :
    (Regex.set p).StartsIn q := by
  intro prev s groups other
  cases s with
  | nil => rfl
  | cons x s =>
      have notQ := other x rfl
      have notP : p x = false := by
        by_contra isP
        simp [sub x (by simpa using isP)] at notQ
      simp [run, notP]

theorem StartsIn.seq {a : Regex} {q : Nat → Bool} (front : a.StartsIn q) (b : Regex) :
    (Regex.seq a b).StartsIn q := by
  intro prev s groups other
  rw [run, front prev s groups other]
  rfl

theorem StartsIn.alt {a b : Regex} {q : Nat → Bool} (left : a.StartsIn q) (right : b.StartsIn q) :
    (Regex.alt a b).StartsIn q := by
  intro prev s groups other
  rw [run, left prev s groups other, right prev s groups other]
  rfl

/-- Every match consumes something and ends with a character of a set. -/
def EndsIn (r : Regex) (p : Nat → Bool) : Prop :=
  ∀ c, ∀ d ∈ run r c, d.after.length < c.after.length ∧ ∃ x, d.prev = some x ∧ p x = true

theorem EndsIn.set {p q : Nat → Bool} (sub : ∀ x, p x = true → q x = true) :
    (Regex.set p).EndsIn q := by
  rintro ⟨prev, after, groups⟩ d member
  cases after with
  | nil => simp [run] at member
  | cons x rest =>
      simp only [run] at member
      split at member
      · next isP =>
        rw [List.mem_singleton] at member
        rw [member]
        exact ⟨by simp, x, rfl, sub x isP⟩
      · cases member

theorem EndsIn.seq (a : Regex) {b : Regex} {q : Nat → Bool} (back : b.EndsIn q) :
    (Regex.seq a b).EndsIn q := by
  intro c d member
  rw [run] at member
  obtain ⟨e, first, second⟩ := List.mem_flatMap.mp member
  have last := back e d second
  have before := (run_reaches a c e first).length_le
  exact ⟨by omega, last.2⟩

theorem EndsIn.alt {a b : Regex} {q : Nat → Bool} (left : a.EndsIn q) (right : b.EndsIn q) :
    (Regex.alt a b).EndsIn q := by
  intro c d member
  rw [run] at member
  rcases List.mem_append.mp member with inA | inB
  · exact left c d inA
  · exact right c d inB

theorem manyRun_prev {step : Cursor → List Cursor} {q : Nat → Bool}
    (ends : ∀ c, ∀ d ∈ step c, ∃ x, d.prev = some x ∧ q x = true) (fuel : Nat) (c : Cursor) :
    ∀ d ∈ manyRun step fuel c, d = c ∨ ∃ x, d.prev = some x ∧ q x = true := by
  induction fuel generalizing c with
  | zero =>
      intro d member
      rw [manyRun, List.mem_singleton] at member
      exact .inl member
  | succ fuel ih =>
      intro d member
      rw [manyRun] at member
      rcases List.mem_append.mp member with more | done
      · obtain ⟨e, first, rest⟩ := List.mem_flatMap.mp more
        rcases ih e d rest with rfl | last
        · exact .inr (ends c _ (List.mem_filter.mp first).1)
        · exact .inr last
      · rw [List.mem_singleton] at done
        exact .inl done

/-- Rounds of a set after a pattern keep its last character in the set. -/
theorem EndsIn.seq_many {a b : Regex} {q : Nat → Bool} (front : a.EndsIn q) (back : b.EndsIn q) :
    (Regex.seq a (.many b)).EndsIn q := by
  intro c d member
  rw [run] at member
  obtain ⟨e, first, second⟩ := List.mem_flatMap.mp member
  obtain ⟨consumed, last⟩ := front c e first
  have reaches := (run_reaches (.many b) e d second).length_le
  rw [run] at second
  rcases manyRun_prev (fun c d member => (back c d member).2) _ e d second with rfl | last'
  · exact ⟨consumed, last⟩
  · exact ⟨by omega, last'⟩

/-! ### The text after -/

/-- Put a text after the end. -/
def extend (post : PyStr) (c : Cursor) : Cursor := { c with after := c.after ++ post }

/-- Stopping before the text put after the end. -/
abbrev stays (post : PyStr) (d : Cursor) : Bool := post.length ≤ d.after.length

/-- No lazy rounds, and no assertion that sees a text put after the end. -/
inductive Local (post : PyStr) : Regex → Prop where
  | eps : Local post .eps
  | set (p) : Local post (.set p)
  | test {p} (blind : ∀ prev s, p prev (s ++ post) = p prev s) : Local post (.test p)
  | seq {a b} (left : Local post a) (right : Local post b) : Local post (.seq a b)
  | alt {a b} (left : Local post a) (right : Local post b) : Local post (.alt a b)
  | many {r} (inner : Local post r) : Local post (.many r)
  | group (n) {r} (inner : Local post r) : Local post (.group n r)

theorem filter_stays_flatMap {post : PyStr} {f : Cursor → List Cursor}
    (moves : ∀ c, ∀ d ∈ f c, c.Reaches d) (l : List Cursor) :
    (l.flatMap f).filter (stays post) =
      (l.filter (stays post)).flatMap fun c => (f c).filter (stays post) := by
  induction l with
  | nil => rfl
  | cons c l ih =>
      rw [List.flatMap_cons, List.filter_append, ih]
      by_cases inside : stays post c = true
      · rw [List.filter_cons_of_pos inside, List.flatMap_cons]
      · -- nothing comes back from beyond the end
        have gone : (f c).filter (stays post) = [] := by
          rw [List.filter_eq_nil_iff]
          intro d member back
          have := (moves c d member).length_le
          simp only [stays, decide_eq_true_eq] at inside back
          omega
        rw [List.filter_cons_of_neg inside, gone]
        rfl

theorem manyRun_extend {post : PyStr} {step : Cursor → List Cursor}
    (moves : ∀ c, ∀ d ∈ step c, c.Reaches d)
    (same : ∀ c, (step (extend post c)).filter (stays post) = (step c).map (extend post)) (n m : Nat)
    (c : Cursor) (enough : c.after.length ≤ n) (enough' : (c.after ++ post).length ≤ m) :
    (manyRun step m (extend post c)).filter (stays post) = (manyRun step n c).map (extend post) := by
  have here : ([extend post c] : List Cursor).filter (stays post) = [extend post c] := by
    simp [stays, extend]
  have progress : ∀ l : List Cursor, (l.map (extend post)).filter
      (fun d => d.after.length < (extend post c).after.length) =
      (l.filter fun d => d.after.length < c.after.length).map (extend post) := by
    intro l
    rw [List.filter_map]
    congr 2
    funext d
    simp [extend]
  induction n generalizing m c with
  | zero =>
      have empty : c.after = [] := List.length_eq_zero_iff.mp (by omega)
      rw [manyRun]
      cases m with
      | zero => simpa [manyRun] using here
      | succ m =>
          -- a round that consumes something of the text after the end is gone
          have gone : (((step (extend post c)).filter
              (fun d => d.after.length < (extend post c).after.length)).flatMap
                (manyRun step m)).filter (stays post) = [] := by
            rw [List.filter_eq_nil_iff]
            intro d member back
            obtain ⟨e, first, rest⟩ := List.mem_flatMap.mp member
            have shorter := (List.mem_filter.mp first).2
            have := (manyRun_reaches moves m e d rest).length_le
            simp only [stays, decide_eq_true_eq, extend, empty, List.nil_append] at shorter back
            omega
          rw [manyRun, List.filter_append, gone, here]
          rfl
  | succ n ih =>
      cases m with
      | zero =>
          have empty : c.after = [] ∧ post = [] := by
            rw [List.length_append] at enough'
            exact ⟨List.length_eq_zero_iff.mp (by omega), List.length_eq_zero_iff.mp (by omega)⟩
          have none : (step c).filter (fun d => d.after.length < c.after.length) = [] := by
            simp [empty.1]
          rw [manyRun, manyRun, none]
          simpa using here
      | succ m =>
          have swap : ((step (extend post c)).filter
              (fun d => d.after.length < (extend post c).after.length)).filter (stays post) =
              ((step c).filter fun d => d.after.length < c.after.length).map (extend post) := by
            rw [List.filter_comm, same, progress]
          rw [manyRun, manyRun, List.filter_append, here,
            filter_stays_flatMap (manyRun_reaches moves m), swap, List.map_append,
            List.flatMap_map, List.map_flatMap]
          congr 1
          refine List.flatMap_congr fun d member => ?_
          have shorter := (List.mem_filter.mp member).2
          simp only [decide_eq_true_eq] at shorter
          rw [List.length_append] at enough'
          have next : ([extend post d] : List Cursor).filter (stays post) = [extend post d] := by
            simp [stays, extend]
          refine ih m d (by omega) (by rw [List.length_append]; omega) next fun l => ?_
          rw [List.filter_map]
          congr 2
          funext e
          simp [extend]

/-- With a text put after the end, the matches that stop before it are the matches without it. -/
theorem run_extend {post : PyStr} {r : Regex} (local_ : Local post r) : ∀ c,
    (run r (extend post c)).filter (stays post) = (run r c).map (extend post) := by
  induction local_ with
  | eps =>
      intro c
      simp [run, stays, extend]
  | set p =>
      rintro ⟨prev, after, groups⟩
      cases after with
      | nil =>
          cases post with
          | nil => simp [run, extend]
          | cons x post =>
              simp only [run, extend, List.nil_append, List.map_nil]
              split <;> simp [stays]
      | cons x rest =>
          simp only [run, extend, List.cons_append]
          split <;> simp [stays, extend]
  | test blind =>
      intro c
      simp only [run, extend, blind]
      split <;> simp [stays, extend]
  | @seq a b _ _ ihA ihB =>
      intro c
      rw [run, run, filter_stays_flatMap (run_reaches b), ihA, List.flatMap_map, List.map_flatMap]
      exact List.flatMap_congr fun d _ => ihB d
  | alt _ _ ihA ihB =>
      intro c
      rw [run, run, List.filter_append, ihA, ihB, List.map_append]
  | @many r _ ih =>
      intro c
      rw [run, run]
      exact manyRun_extend (run_reaches r) ih _ _ c le_rfl le_rfl
  | @group n r _ ih =>
      intro c
      have inside : stays post ∘ (extend post c).capture n = stays post := rfl
      rw [run, run, List.filter_map, inside, ih, List.map_map, List.map_map]
      refine List.map_congr_left fun d member => ?_
      have shorter := (run_reaches r c d member).length_le
      simp only [Function.comp_apply, Cursor.capture, extend, List.length_append,
        Nat.add_sub_add_right]
      rw [List.take_append_of_le_length (by omega)]

/-- Only characters outside a set. -/
abbrev Outside (q : Nat → Bool) (s : PyStr) : Prop := ∀ x ∈ s, q x = false

theorem run_outside {r : Regex} {q : Nat → Bool} (starts : r.StartsIn q) (prev : Option Nat)
    {x : Nat} (out : q x = false) (rest : PyStr) (groups : List (Nat × PyStr)) :
    run r ⟨prev, x :: rest, groups⟩ = [] := by
  apply starts
  intro y head
  rw [List.head?_cons, Option.mem_some_iff] at head
  exact head ▸ out

/-- A pattern that ends in a set does not reach into a text outside of it. -/
theorem run_stays {r : Regex} {q : Nat → Bool} (ends : r.EndsIn q) {post : PyStr}
    (out : Outside q post) (c : Cursor) : ∀ d ∈ run r (extend post c), stays post d = true := by
  intro d member
  obtain ⟨_, x, last, inSet⟩ := ends _ d member
  obtain ⟨passed, split, prev⟩ := run_reaches r _ d member
  simp only [stays, decide_eq_true_eq]
  by_contra beyond
  -- the last character passed is one of the text after the end
  rcases List.append_eq_append_iff.mp split with ⟨more, front, back⟩ | ⟨less, front, back⟩
  · have nonempty : more ≠ [] := by
      rintro rfl
      rw [List.nil_append] at back
      exact beyond (by rw [back])
    have lastPassed : passed.getLast? = more.getLast? := by
      rw [front, List.getLast?_append, List.getLast?_eq_getLast_of_ne_nil nonempty, Option.some_or]
    rw [lastPassed, List.getLast?_eq_getLast_of_ne_nil nonempty, Option.some_or, last,
      Option.some.injEq] at prev
    have inPost : x ∈ post := by
      rw [back, prev]
      exact List.mem_append_left _ (List.getLast_mem nonempty)
    rw [out x inPost] at inSet
    cases inSet
  · rw [back, List.length_append] at beyond
    omega

/-- A text outside the set a pattern ends in changes none of its matches. -/
theorem run_extend_outside {r : Regex} {q : Nat → Bool} (ends : r.EndsIn q) {post : PyStr}
    (out : Outside q post) (local_ : Local post r) (c : Cursor) :
    run r (extend post c) = (run r c).map (extend post) := by
  rw [← run_extend local_, List.filter_eq_self.mpr (run_stays ends out c)]

/-! ### The character before -/

/-- Put a character before the start of the text. -/
def behind (x : Nat) (c : Cursor) : Cursor := { c with prev := c.prev.or (some x) }

/-- No assertion tells a character before the text from the start of the text. -/
inductive Blind (x : Nat) : Regex → Prop where
  | eps : Blind x .eps
  | set (p) : Blind x (.set p)
  | test {p} (same : ∀ prev s, p (Option.or prev (some x)) s = p prev s) : Blind x (.test p)
  | seq {a b} (left : Blind x a) (right : Blind x b) : Blind x (.seq a b)
  | alt {a b} (left : Blind x a) (right : Blind x b) : Blind x (.alt a b)
  | many {r} (inner : Blind x r) : Blind x (.many r)
  | manyLazy {r} (inner : Blind x r) : Blind x (.manyLazy r)
  | group (n) {r} (inner : Blind x r) : Blind x (.group n r)

theorem filter_map_behind (x n : Nat) (l : List Cursor) :
    (l.map (behind x)).filter (fun d => d.after.length < n) =
      (l.filter fun d => d.after.length < n).map (behind x) := by
  rw [List.filter_map]
  rfl

theorem manyRun_behind {x : Nat} {step : Cursor → List Cursor}
    (same : ∀ c, step (behind x c) = (step c).map (behind x)) (fuel : Nat) (c : Cursor) :
    manyRun step fuel (behind x c) = (manyRun step fuel c).map (behind x) := by
  induction fuel generalizing c with
  | zero => rfl
  | succ fuel ih =>
      rw [manyRun, manyRun, same, filter_map_behind, List.flatMap_map, List.map_append,
        List.map_flatMap]
      congr 1
      exact List.flatMap_congr fun d _ => ih d

theorem manyLazyRun_behind {x : Nat} {step : Cursor → List Cursor}
    (same : ∀ c, step (behind x c) = (step c).map (behind x)) (fuel : Nat) (c : Cursor) :
    manyLazyRun step fuel (behind x c) = (manyLazyRun step fuel c).map (behind x) := by
  induction fuel generalizing c with
  | zero => rfl
  | succ fuel ih =>
      rw [manyLazyRun, manyLazyRun, same, filter_map_behind, List.flatMap_map, List.map_cons,
        List.map_flatMap]
      congr 1
      exact List.flatMap_congr fun d _ => ih d

/-- The matches at the start of a text are its matches after a character. -/
theorem run_behind {x : Nat} {r : Regex} (blind : Blind x r) : ∀ c,
    run r (behind x c) = (run r c).map (behind x) := by
  induction blind with
  | eps => exact fun c => rfl
  | set p =>
      rintro ⟨prev, after, groups⟩
      cases after with
      | nil => rfl
      | cons y rest =>
          simp only [run, behind]
          split <;> simp [behind]
  | test same =>
      intro c
      simp only [run, behind, same]
      split <;> rfl
  | @seq a b _ _ ihA ihB =>
      intro c
      rw [run, run, ihA, List.flatMap_map, List.map_flatMap]
      exact List.flatMap_congr fun d _ => ihB d
  | alt _ _ ihA ihB =>
      intro c
      rw [run, run, ihA, ihB, List.map_append]
  | many _ ih =>
      intro c
      rw [run, run]
      exact manyRun_behind ih _ c
  | manyLazy _ ih =>
      intro c
      rw [run, run]
      exact manyLazyRun_behind ih _ c
  | group n _ ih =>
      intro c
      rw [run, run, ih, List.map_map, List.map_map]
      rfl

/-! ### Patterns by their usual names -/

/-- No assertions and no lazy rounds. -/
def plain : Regex → Bool
  | .eps | .set _ => true
  | .test _ | .manyLazy _ => false
  | .seq a b | .alt a b => a.plain && b.plain
  | .many r | .group _ r => r.plain

theorem Local.of_plain (post : PyStr) {r : Regex} (ok : r.plain = true) : Local post r := by
  induction r with
  | eps => exact .eps
  | set p => exact .set p
  | test p => cases ok
  | seq a b ihA ihB =>
      have both := Bool.and_eq_true_iff.mp ok
      exact .seq (ihA both.1) (ihB both.2)
  | alt a b ihA ihB =>
      have both := Bool.and_eq_true_iff.mp ok
      exact .alt (ihA both.1) (ihB both.2)
  | many r ih => exact .many (ih ok)
  | manyLazy r ih => cases ok
  | group n r ih => exact .group n (ih ok)

theorem Blind.of_plain (x : Nat) {r : Regex} (ok : r.plain = true) : Blind x r := by
  induction r with
  | eps => exact .eps
  | set p => exact .set p
  | test p => cases ok
  | seq a b ihA ihB =>
      have both := Bool.and_eq_true_iff.mp ok
      exact .seq (ihA both.1) (ihB both.2)
  | alt a b ihA ihB =>
      have both := Bool.and_eq_true_iff.mp ok
      exact .alt (ihA both.1) (ihB both.2)
  | many r ih => exact .many (ih ok)
  | manyLazy r ih => cases ok
  | group n r ih => exact .group n (ih ok)

/-- A word boundary does not see a character that is not of a word. -/
theorem Blind.bound [PyRuntime] {x : Nat} (out : isWord x = false) : Blind x Regex.bound := by
  refine .test fun prev s => ?_
  cases prev <;> simp [out]

theorem StartsIn.assert (p : Option Nat → PyStr → Bool) {b : Regex} {q : Nat → Bool}
    (back : b.StartsIn q) : (Regex.seq (.test p) b).StartsIn q := by
  intro prev s groups other
  simp only [run]
  split
  · simpa using back prev s groups other
  · rfl

theorem StartsIn.alts {rs : List Regex} {q : Nat → Bool} (each : ∀ r ∈ rs, r.StartsIn q) :
    (Regex.alts rs).StartsIn q := by
  induction rs with
  | nil => exact .set (fun x none => by cases none)
  | cons r rs ih =>
      cases rs with
      | nil => exact each r (List.mem_cons_self ..)
      | cons r' rs =>
          exact .alt (each r (List.mem_cons_self ..))
            (ih fun r member => each r (List.mem_cons_of_mem _ member))

theorem EndsIn.alts {rs : List Regex} {q : Nat → Bool} (each : ∀ r ∈ rs, r.EndsIn q) :
    (Regex.alts rs).EndsIn q := by
  induction rs with
  | nil => exact .set (fun x none => by cases none)
  | cons r rs ih =>
      cases rs with
      | nil => exact each r (List.mem_cons_self ..)
      | cons r' rs =>
          exact .alt (each r (List.mem_cons_self ..))
            (ih fun r member => each r (List.mem_cons_of_mem _ member))

theorem StartsIn.litI {c : Char} (cs : List Char) {q : Nat → Bool}
    (sub : ∀ x, sameLetter c.toNat x = true → q x = true) : (Regex.litI (c :: cs)).StartsIn q := by
  cases cs with
  | nil => exact .set sub
  | cons d cs => exact .seq (.set sub) _

theorem EndsIn.litI {cs : List Char} {c : Char} {q : Nat → Bool} (last : cs.getLast? = some c)
    (sub : ∀ x, sameLetter c.toNat x = true → q x = true) : (Regex.litI cs).EndsIn q := by
  induction cs with
  | nil => cases last
  | cons d cs ih =>
      cases cs with
      | nil =>
          obtain rfl : d = c := by simpa using last
          exact .set sub
      | cons e cs => exact .seq _ (ih (by simpa using last))

theorem EndsIn.plus {p q : Nat → Bool} (sub : ∀ x, p x = true → q x = true) :
    (Regex.plus (.set p)).EndsIn q :=
  .seq_many (.set sub) (.set sub)

/-! ### A greedy run of a set -/

theorem manyRun_set_head (p : Nat → Bool) (fuel : Nat) (c : Cursor) (enough : c.after.length ≤ fuel) :
    ∃ d, (manyRun (run (.set p)) fuel c).head? = some d ∧ d.after = c.after.dropWhile p ∧
      d.groups = c.groups := by
  induction fuel generalizing c with
  | zero =>
      have empty : c.after = [] := List.length_eq_zero_iff.mp (by omega)
      exact ⟨c, rfl, by rw [empty]; rfl, rfl⟩
  | succ fuel ih =>
      obtain ⟨prev, after, groups⟩ := c
      cases after with
      | nil => exact ⟨_, rfl, rfl, rfl⟩
      | cons x rest =>
          cases inSet : p x with
          | false => exact ⟨⟨prev, x :: rest, groups⟩, by simp [manyRun, run, inSet],
              by simp [inSet], rfl⟩
          | true =>
              obtain ⟨d, head, after, same⟩ := ih ⟨some x, rest, groups⟩ (by simpa using enough)
              have one : run (.set p) ⟨prev, x :: rest, groups⟩ = [⟨some x, rest, groups⟩] := by
                simp [run, inSet]
              refine ⟨d, ?_, by simp [after, inSet], same⟩
              rw [manyRun, one]
              simp [List.head?_append, head]

theorem run_many_set_head (p : Nat → Bool) (c : Cursor) :
    ∃ d, (run (.many (.set p)) c).head? = some d ∧ d.after = c.after.dropWhile p ∧
      d.groups = c.groups := by
  rw [run]
  exact manyRun_set_head p _ c le_rfl

/-! ### The characters of a match -/

/-- Every set of a pattern is part of a set of characters. -/
def SetsIn (q : Nat → Bool) : Regex → Prop
  | .eps => True
  | .set p => ∀ x, p x = true → q x = true
  | .test _ => True
  | .seq a b => a.SetsIn q ∧ b.SetsIn q
  | .alt a b => a.SetsIn q ∧ b.SetsIn q
  | .many r => r.SetsIn q
  | .manyLazy r => r.SetsIn q
  | .group _ r => r.SetsIn q

/-- A cursor further along, past characters of a set. -/
def Passes (q : Nat → Bool) (c d : Cursor) : Prop :=
  ∃ passed, c.after = passed ++ d.after ∧ ∀ x ∈ passed, q x = true

theorem Passes.refl (q : Nat → Bool) (c : Cursor) : Passes q c c := ⟨[], rfl, by simp⟩

theorem Passes.trans {q : Nat → Bool} {c d e : Cursor} (one : Passes q c d) (two : Passes q d e) :
    Passes q c e := by
  obtain ⟨front, split, each⟩ := one
  obtain ⟨back, split', each'⟩ := two
  refine ⟨front ++ back, by rw [split, split', List.append_assoc], fun x member => ?_⟩
  exact (List.mem_append.mp member).elim (each x) (each' x)

/-- A match passes no other characters than those of the pattern's sets. -/
theorem run_passes {q : Nat → Bool} {r : Regex} (sets : r.SetsIn q) :
    ∀ c, ∀ d ∈ run r c, Passes q c d := by
  induction r with
  | eps =>
      intro c d member
      rw [run, List.mem_singleton] at member
      exact member ▸ .refl q c
  | set p =>
      intro c d member
      rw [run] at member
      split at member
      · next x rest after =>
        split at member
        · next holds =>
          rw [List.mem_singleton] at member
          subst member
          refine ⟨[x], after, fun y here => ?_⟩
          rw [List.mem_singleton.mp here]
          exact sets x holds
        · cases member
      · cases member
  | test p =>
      intro c d member
      rw [run] at member
      split at member
      · rw [List.mem_singleton] at member
        exact member ▸ .refl q c
      · cases member
  | seq a b ihA ihB =>
      intro c d member
      obtain ⟨e, first, second⟩ := List.mem_flatMap.mp member
      exact (ihA sets.1 c e first).trans (ihB sets.2 e d second)
  | alt a b ihA ihB =>
      intro c d member
      rcases List.mem_append.mp member with left | right
      · exact ihA sets.1 c d left
      · exact ihB sets.2 c d right
  | many r ih =>
      intro c
      exact manyRun_rel (.refl q) .trans (ih sets) _ c
  | manyLazy r ih =>
      intro c
      exact manyLazyRun_rel (.refl q) .trans (ih sets) _ c
  | group n r ih =>
      intro c d member
      obtain ⟨e, inner, rfl⟩ := List.mem_map.mp member
      exact ih sets c e inner

/-- A text that a pattern matches whole has no other characters than those of the pattern's sets. -/
theorem chars_of_fullmatch {q : Nat → Bool} {r : Regex} (sets : r.SetsIn q) {s : PyStr}
    (whole : (fullmatch r s).isSome = true) : ∀ x ∈ s, q x = true := by
  unfold fullmatch at whole
  rw [Option.isSome_map, Option.isSome_iff_exists] at whole
  obtain ⟨d, found⟩ := whole
  obtain ⟨passed, split, each⟩ := run_passes sets _ d (List.mem_of_find?_eq_some found)
  have ended : d.after = [] := by simpa using List.find?_some found
  rw [ended, List.append_nil] at split
  exact fun x member => each x (split ▸ member)

end Regex

end GhostPour
