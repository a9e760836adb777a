/-
Module: GhostPour.Library.RegexSearch
Layer: Library
Purpose: What a search and the successive matches of a pattern depend on. What stands around a text
  outside the sets a pattern starts and ends in does not change whether it is found, and only moves
  its matches.
Trusted boundary: none
Main exports: Regex.found_iff, Regex.found_append_left, Regex.found_append_right,
  Regex.finditer_surrounded, Regex.start_lt_of_mem_finditer, Regex.subWith_skip, Regex.subWith_match,
  Regex.search_between
-/
import GhostPour.Library.RegexLemmas

namespace GhostPour

namespace Regex

/-! ### Searching in a surrounded text -/

/-- A pattern is found where it can run at some split of the text. -/
theorem searchFrom_isSome_iff (r : Regex) (i : Nat) (prev : Option Nat) (s : PyStr) :
    (searchFrom r i prev s).isSome = true ↔
      ∃ a b, s = a ++ b ∧ run r ⟨a.getLast?.or prev, b, []⟩ ≠ [] := by
  induction s generalizing i prev with
  | nil =>
      rw [searchFrom, Option.isSome_map, List.isSome_head?]
      constructor
      · intro here
        exact ⟨[], [], rfl, by simpa using here⟩
      · rintro ⟨a, b, empty, here⟩
        obtain ⟨rfl, rfl⟩ := List.append_eq_nil_iff.mp empty.symm
        simpa using here
  | cons x rest ih =>
      rw [searchFrom]
      cases first : (run r ⟨prev, x :: rest, []⟩).head? with
      | some d =>
          refine ⟨fun _ => ⟨[], x :: rest, rfl, ?_⟩, fun _ => rfl⟩
          rintro none
          rw [List.getLast?_nil, Option.none_or] at none
          rw [none] at first
          cases first
      | none =>
          rw [List.head?_eq_none_iff] at first
          rw [ih]
          constructor
          · rintro ⟨a, b, rfl, here⟩
            exact ⟨x :: a, b, rfl, by rwa [getLast?_cons_or]⟩
          · rintro ⟨a, b, split, here⟩
            cases a with
            | nil =>
                rw [List.nil_append] at split
                rw [← split] at here
                exact absurd first (by simpa using here)
            | cons y a =>
                rw [List.cons_append, List.cons.injEq] at split
                exact ⟨a, b, split.2, by rwa [split.1, ← getLast?_cons_or y a prev]⟩

theorem found_iff (r : Regex) (s : PyStr) :
    found r s = true ↔ ∃ a b, s = a ++ b ∧ run r ⟨a.getLast?, b, []⟩ ≠ [] := by
  rw [found, search, searchFrom_isSome_iff]
  simp only [Option.or_none]

/-- A prefix outside the set a pattern starts in does not matter to a search. -/
theorem found_append_left {r : Regex} {q : Nat → Bool} (starts : r.StartsIn q) {pre : PyStr}
    (out : Outside q pre) (blind : ∀ x, q x = false → Blind x r) (s : PyStr) :
    found r (pre ++ s) = found r s := by
  have same : ∀ b : PyStr, run r ⟨pre.getLast?, b, []⟩ ≠ [] ↔ run r ⟨none, b, []⟩ ≠ [] := by
    intro b
    cases last : pre.getLast? with
    | none => exact Iff.rfl
    | some x =>
        have moved := run_behind (blind x (out x (List.mem_of_getLast? last))) ⟨none, b, []⟩
        rw [show behind x ⟨none, b, []⟩ = ⟨some x, b, []⟩ from rfl] at moved
        rw [moved, Ne, List.map_eq_nil_iff]
  rw [Bool.eq_iff_iff, found_iff, found_iff]
  constructor
  · rintro ⟨a, b, split, here⟩
    rcases List.append_eq_append_iff.mp split with ⟨a', rfl, rfl⟩ | ⟨b', rfl, rfl⟩
    · refine ⟨a', b, rfl, ?_⟩
      cases a' with
      | nil => exact (same b).mp (by simpa using here)
      | cons y a' => simpa [List.getLast?_append, List.getLast?_cons] using here
    · cases b' with
      | nil => exact ⟨[], s, rfl, (same s).mp (by simpa using here)⟩
      | cons y b' =>
          -- nothing starts inside the prefix
          refine absurd ?_ here
          exact run_outside starts _ (out y (by simp)) _ _
  · rintro ⟨a, b, rfl, here⟩
    refine ⟨pre ++ a, b, by rw [List.append_assoc], ?_⟩
    cases a with
    | nil => simpa using (same b).mpr here
    | cons y a => simpa [List.getLast?_append, List.getLast?_cons] using here

/-- A suffix outside the sets a pattern starts and ends in does not matter to a search. -/
theorem found_append_right {r : Regex} {q : Nat → Bool} (starts : r.StartsIn q) (ends : r.EndsIn q)
    {post : PyStr} (out : Outside q post) (local_ : Local post r) (s : PyStr) :
    found r (s ++ post) = found r s := by
  rw [Bool.eq_iff_iff, found_iff, found_iff]
  constructor
  · rintro ⟨a, b, split, here⟩
    rcases List.append_eq_append_iff.mp split with ⟨a', rfl, rfl⟩ | ⟨b', rfl, rfl⟩
    · refine absurd ?_ here
      apply starts
      intro x head
      exact out x (List.mem_append_right _ (List.mem_of_head? head))
    · refine ⟨a, b', rfl, ?_⟩
      have moved := run_extend_outside ends out local_ ⟨a.getLast?, b', []⟩
      rw [extend] at moved
      rwa [moved, Ne, List.map_eq_nil_iff] at here
  · rintro ⟨a, b, rfl, here⟩
    refine ⟨a, b ++ post, by rw [List.append_assoc], ?_⟩
    have moved := run_extend_outside ends out local_ ⟨a.getLast?, b, []⟩
    rw [extend] at moved
    rwa [moved, Ne, List.map_eq_nil_iff]

/-! ### The matches of a surrounded text -/

/-- The matches from a position on. -/
def matchesFrom (r : Regex) (i : Nat) (prev : Option Nat) (inside : Nat) (s : PyStr) : List Match :=
  (piecesFrom r i prev inside s).1.map Prod.snd

/-- A match of a text that stands further right. -/
def Match.shift (k : Nat) (m : Match) : Match := { m with start := m.start + k }

theorem addGap_matches (x : Nat) (p : List (PyStr × Match) × PyStr) :
    (addGap x p).1.map Prod.snd = p.1.map Prod.snd := by
  obtain ⟨_ | ⟨piece, later⟩, tail⟩ := p <;> rfl

theorem matchesFrom_nil (r : Regex) (i : Nat) (prev : Option Nat) (inside : Nat) :
    matchesFrom r i prev inside [] = [] := by
  rw [matchesFrom, piecesFrom]
  rfl

theorem matchesFrom_inside (r : Regex) (i : Nat) (prev : Option Nat) (inside x : Nat)
    (rest : PyStr) :
    matchesFrom r i prev (inside + 1) (x :: rest) = matchesFrom r (i + 1) (some x) inside rest := by
  rw [matchesFrom, piecesFrom]
  rfl

theorem matchesFrom_some {r : Regex} {prev : Option Nat} {x : Nat} {rest : PyStr} {d : Cursor}
    (i : Nat) (first : step r prev (x :: rest) = some d) :
    matchesFrom r i prev 0 (x :: rest) = matchBetween i ⟨prev, x :: rest, []⟩ d ::
      matchesFrom r (i + 1) (some x) (rest.length - d.after.length) rest := by
  rw [matchesFrom, piecesFrom, first]
  rfl

theorem matchesFrom_none {r : Regex} {prev : Option Nat} {x : Nat} {rest : PyStr} (i : Nat)
    (first : step r prev (x :: rest) = none) :
    matchesFrom r i prev 0 (x :: rest) = matchesFrom r (i + 1) (some x) 0 rest := by
  rw [matchesFrom, piecesFrom, first, addGap_matches]
  rfl

theorem finditer_eq (r : Regex) (s : PyStr) : finditer r s = matchesFrom r 0 none 0 s := rfl

theorem matchesFrom_shift (r : Regex) (k i : Nat) (prev : Option Nat) (inside : Nat) (s : PyStr) :
    matchesFrom r (i + k) prev inside s = (matchesFrom r i prev inside s).map (Match.shift k) := by
  induction s generalizing i prev inside with
  | nil => simp only [matchesFrom_nil, List.map_nil]
  | cons x rest ih =>
      have next : i + k + 1 = i + 1 + k := by omega
      cases inside with
      | succ inside => rw [matchesFrom_inside, matchesFrom_inside, next, ih]
      | zero =>
          cases first : step r prev (x :: rest) with
          | none => rw [matchesFrom_none _ first, matchesFrom_none _ first, next, ih]
          | some d =>
              rw [matchesFrom_some _ first, matchesFrom_some _ first, next, ih, List.map_cons]
              rfl

theorem step_outside {r : Regex} {q : Nat → Bool} (starts : r.StartsIn q) (prev : Option Nat)
    {x : Nat} (out : q x = false) (rest : PyStr) : step r prev (x :: rest) = none := by
  rw [step, run_outside starts prev out]
  rfl

theorem matchesFrom_outside {r : Regex} {q : Nat → Bool} (starts : r.StartsIn q) {pre : PyStr}
    (out : Outside q pre) (i : Nat) (prev : Option Nat) (s : PyStr) :
    matchesFrom r i prev 0 (pre ++ s) =
      matchesFrom r (i + pre.length) (pre.getLast?.or prev) 0 s := by
  induction pre generalizing i prev with
  | nil => rfl
  | cons x pre ih =>
      have first := step_outside starts prev (out x (List.mem_cons_self ..)) (pre ++ s)
      have next : i + 1 + pre.length = i + (x :: pre).length := by
        rw [List.length_cons]
        omega
      rw [List.cons_append, matchesFrom_none _ first,
        ih (fun y member => out y (List.mem_cons_of_mem _ member)), getLast?_cons_or, next]

theorem step_behind {r : Regex} {y : Nat} (blind : Blind y r) (s : PyStr) :
    step r (some y) s = (step r none s).map (behind y) := by
  have moved := run_behind blind ⟨none, s, []⟩
  rw [show behind y ⟨none, s, []⟩ = ⟨some y, s, []⟩ from rfl] at moved
  rw [step, step, moved, List.head?_map]
  cases (run r ⟨none, s, []⟩).head? with
  | none => rfl
  | some d => simp only [Option.map_some, Option.filter_some, behind]; split <;> rfl

theorem matchesFrom_behind {r : Regex} {y : Nat} (blind : Blind y r) (i : Nat) (s : PyStr) :
    matchesFrom r i (some y) 0 s = matchesFrom r i none 0 s := by
  cases s with
  | nil => rw [matchesFrom_nil, matchesFrom_nil]
  | cons x rest =>
      have moved := step_behind blind (x :: rest)
      cases first : step r none (x :: rest) with
      | none =>
          rw [first, Option.map_none] at moved
          rw [matchesFrom_none _ first, matchesFrom_none _ moved]
      | some d =>
          rw [first, Option.map_some] at moved
          rw [matchesFrom_some _ first, matchesFrom_some _ moved]
          rfl

theorem step_extend {r : Regex} {q : Nat → Bool} (ends : r.EndsIn q) {post : PyStr}
    (out : Outside q post) (local_ : Local post r) (prev : Option Nat) (s : PyStr) :
    step r prev (s ++ post) = (step r prev s).map (extend post) := by
  have moved := run_extend_outside ends out local_ ⟨prev, s, []⟩
  rw [extend] at moved
  rw [step, step, moved, List.head?_map]
  cases (run r ⟨prev, s, []⟩).head? with
  | none => rfl
  | some d =>
      simp only [Option.map_some, Option.filter_some, extend, List.length_append]
      by_cases less : d.after.length < s.length
      · rw [if_pos (by simpa using less), if_pos (by simpa using less)]
        rfl
      · rw [if_neg (by simpa using less), if_neg (by simpa using less)]
        rfl

theorem matchesFrom_extend {r : Regex} {q : Nat → Bool} (starts : r.StartsIn q) (ends : r.EndsIn q)
    {post : PyStr} (out : Outside q post) (local_ : Local post r) (i : Nat) (prev : Option Nat)
    (inside : Nat) (s : PyStr) (within : inside ≤ s.length) :
    matchesFrom r i prev inside (s ++ post) = matchesFrom r i prev inside s := by
  induction s generalizing i prev inside with
  | nil =>
      obtain rfl : inside = 0 := by simpa using within
      have ended := matchesFrom_outside starts out i prev []
      rw [List.append_nil, matchesFrom_nil] at ended
      rw [List.nil_append, ended, matchesFrom_nil]
  | cons x rest ih =>
      cases inside with
      | succ inside =>
          rw [List.cons_append, matchesFrom_inside, matchesFrom_inside]
          exact ih _ _ _ (by simpa using within)
      | zero =>
          have moved := step_extend ends out local_ prev (x :: rest)
          rw [List.cons_append] at moved ⊢
          cases first : step r prev (x :: rest) with
          | none =>
              rw [first, Option.map_none] at moved
              rw [matchesFrom_none _ first, matchesFrom_none _ moved]
              exact ih _ _ _ (Nat.zero_le _)
          | some d =>
              rw [first, Option.map_some] at moved
              have same : (rest ++ post).length - (extend post d).after.length =
                  rest.length - d.after.length := by
                simp only [extend, List.length_append]
                omega
              rw [matchesFrom_some _ first, matchesFrom_some _ moved, same,
                ih _ _ _ (Nat.sub_le ..)]
              congr 1
              have shorter : d.after.length ≤ (x :: rest).length := by
                have := Option.eq_some_of_filter_eq_some first
                exact (run_reaches r _ d (List.mem_of_head? this)).length_le
              simp only [matchBetween, extend, Match.mk.injEq, true_and, and_true]
              rw [← List.cons_append, List.length_append, List.length_append,
                Nat.add_sub_add_right, List.take_append_of_le_length (Nat.sub_le ..)]

/-- What stands around a text outside the sets a pattern starts and ends in only moves its
matches. -/
theorem finditer_surrounded {r : Regex} {q : Nat → Bool} (starts : r.StartsIn q)
    (ends : r.EndsIn q) {pre post : PyStr} (before : Outside q pre) (after : Outside q post)
    (blind : ∀ x, q x = false → Blind x r) (local_ : Local post r) (s : PyStr) :
    finditer r (pre ++ (s ++ post)) = (finditer r s).map (Match.shift pre.length) := by
  rw [finditer_eq, finditer_eq, matchesFrom_outside starts before, matchesFrom_shift]
  congr 1
  rw [Option.or_none]
  cases last : pre.getLast? with
  | none => exact matchesFrom_extend starts ends after local_ _ _ _ _ (Nat.zero_le _)
  | some y =>
      rw [matchesFrom_behind (blind y (before y (List.mem_of_getLast? last)))]
      exact matchesFrom_extend starts ends after local_ _ _ _ _ (Nat.zero_le _)

theorem matchesFrom_start_lt (r : Regex) (i : Nat) (prev : Option Nat) (inside : Nat) (s : PyStr) :
    ∀ m ∈ matchesFrom r i prev inside s, m.start < i + s.length := by
  induction s generalizing i prev inside with
  | nil => simp [matchesFrom_nil]
  | cons x rest ih =>
      intro m member
      have later : ∀ inside, m ∈ matchesFrom r (i + 1) (some x) inside rest →
          m.start < i + (x :: rest).length := by
        intro inside member
        have := ih _ _ _ m member
        rw [List.length_cons]
        omega
      cases inside with
      | succ inside => exact later _ (matchesFrom_inside .. ▸ member)
      | zero =>
          cases first : step r prev (x :: rest) with
          | none => exact later _ (matchesFrom_none _ first ▸ member)
          | some d =>
              rw [matchesFrom_some _ first] at member
              rcases List.mem_cons.mp member with rfl | member
              · simp [matchBetween]
              · exact later _ member

/-- A match starts inside the text. -/
theorem start_lt_of_mem_finditer {r : Regex} {s : PyStr} {m : Match} (member : m ∈ finditer r s) :
    m.start < s.length := by
  have := matchesFrom_start_lt r 0 none 0 s m member
  omega

/-! ### The matches one after the other -/

theorem matchesFrom_skip (r : Regex) (i : Nat) (prev : Option Nat) (inside : Nat) (s : PyStr)
    (within : inside ≤ s.length) :
    matchesFrom r i prev inside s =
      matchesFrom r (i + inside) ((s.take inside).getLast?.or prev) 0 (s.drop inside) := by
  induction inside generalizing i prev s with
  | zero => rfl
  | succ inside ih =>
      cases s with
      | nil => cases within
      | cons x rest =>
          have next : i + 1 + inside = i + (inside + 1) := by omega
          rw [matchesFrom_inside, ih _ _ _ (by simpa using within), List.take_succ_cons,
            getLast?_cons_or, next, List.drop_succ_cons]

/-- A pattern without assertions does not look behind. -/
theorem matchesFrom_prev {r : Regex} (ok : r.plain = true) (i : Nat) (prev : Option Nat) (s : PyStr) :
    matchesFrom r i prev 0 s = matchesFrom r i none 0 s := by
  cases prev with
  | none => rfl
  | some y => exact matchesFrom_behind (.of_plain y ok) i s

theorem matchesFrom_plain {r : Regex} (ok : r.plain = true) (i : Nat) (prev : Option Nat)
    (s : PyStr) : (matchesFrom r i prev 0 s).map Match.text = findall r s := by
  have shift := matchesFrom_shift r i 0 none 0 s
  rw [Nat.zero_add] at shift
  rw [matchesFrom_prev ok, shift, findall, finditer_eq, List.map_map]
  rfl

/-- A pattern without assertions that matches here matches again from the end of the match on. -/
theorem matchesFrom_here {r : Regex} (ok : r.plain = true) {front back : PyStr} {d : Cursor}
    (nonempty : front ≠ []) (first : step r none (front ++ back) = some d) (rest : d.after = back)
    (i : Nat) : matchesFrom r i none 0 (front ++ back) =
      ⟨i, front, d.groups⟩ :: matchesFrom r (i + front.length) none 0 back := by
  obtain ⟨x, front, rfl⟩ := List.exists_cons_of_ne_nil nonempty
  have inside : (front ++ back).length - d.after.length = front.length := by
    rw [rest, List.length_append, Nat.add_sub_cancel]
  have here : matchBetween i ⟨none, x :: front ++ back, []⟩ d = ⟨i, x :: front, d.groups⟩ := by
    simp only [matchBetween, rest, List.length_append, Nat.add_sub_cancel, List.take_left]
  have next : i + 1 + front.length = i + (x :: front).length := by
    rw [List.length_cons]
    omega
  rw [List.cons_append] at first here ⊢
  rw [matchesFrom_some i first, here, inside, matchesFrom_skip _ _ _ _ _ (by simp), List.drop_left,
    matchesFrom_prev ok, next]

theorem findall_nil (r : Regex) : findall r [] = [] := rfl

/-- A pattern without assertions that does not match here is looked for further on. -/
theorem findall_skip {r : Regex} (ok : r.plain = true) {x : Nat} {rest : PyStr}
    (first : step r none (x :: rest) = none) : findall r (x :: rest) = findall r rest := by
  rw [findall, finditer_eq, matchesFrom_none _ first, matchesFrom_plain ok]

/-- A pattern without assertions that matches here is looked for again after the match. -/
theorem findall_match {r : Regex} (ok : r.plain = true) {front back : PyStr} {d : Cursor}
    (nonempty : front ≠ []) (first : step r none (front ++ back) = some d)
    (rest : d.after = back) : findall r (front ++ back) = front :: findall r back := by
  rw [findall, finditer_eq, matchesFrom_here ok nonempty first rest, List.map_cons, matchesFrom_plain ok]

/-! ### The text with its matches replaced -/

/-- The text from a position on, with its matches replaced. -/
def subFrom (r : Regex) (f : PyStr → PyStr) (i : Nat) (prev : Option Nat) (inside : Nat)
    (s : PyStr) : PyStr :=
  ((piecesFrom r i prev inside s).1.flatMap fun piece => piece.1 ++ f piece.2.text) ++
    (piecesFrom r i prev inside s).2

theorem subWith_eq (r : Regex) (f : PyStr → PyStr) (s : PyStr) :
    subWith r (fun m => f m.text) s = subFrom r f 0 none 0 s := rfl

theorem subFrom_nil (r : Regex) (f : PyStr → PyStr) (i : Nat) (prev : Option Nat) (inside : Nat) :
    subFrom r f i prev inside [] = [] := by
  rw [subFrom, piecesFrom]
  rfl

theorem subFrom_inside (r : Regex) (f : PyStr → PyStr) (i : Nat) (prev : Option Nat)
    (inside x : Nat) (rest : PyStr) :
    subFrom r f i prev (inside + 1) (x :: rest) = subFrom r f (i + 1) (some x) inside rest := by
  rw [subFrom, piecesFrom]
  rfl

theorem subFrom_none {r : Regex} (f : PyStr → PyStr) {prev : Option Nat} {x : Nat} {rest : PyStr}
    (i : Nat) (first : step r prev (x :: rest) = none) :
    subFrom r f i prev 0 (x :: rest) = x :: subFrom r f (i + 1) (some x) 0 rest := by
  rw [subFrom, piecesFrom, first, subFrom]
  obtain ⟨_ | ⟨piece, later⟩, tail⟩ := piecesFrom r (i + 1) (some x) 0 rest <;> rfl

theorem subFrom_some {r : Regex} (f : PyStr → PyStr) {prev : Option Nat} {x : Nat} {rest : PyStr}
    {d : Cursor} (i : Nat) (first : step r prev (x :: rest) = some d) :
    subFrom r f i prev 0 (x :: rest) = f (matchBetween i ⟨prev, x :: rest, []⟩ d).text ++
      subFrom r f (i + 1) (some x) (rest.length - d.after.length) rest := by
  rw [subFrom, piecesFrom, first, subFrom]
  exact List.append_assoc ..

/-- A pattern without assertions does not see where it starts. -/
theorem subFrom_plain {r : Regex} (ok : r.plain = true) (f : PyStr → PyStr) (i j : Nat)
    (prev prev' : Option Nat) (inside : Nat) (s : PyStr) :
    subFrom r f i prev inside s = subFrom r f j prev' inside s := by
  induction s generalizing i j prev prev' inside with
  | nil => rw [subFrom_nil, subFrom_nil]
  | cons x rest ih =>
      cases inside with
      | succ inside => rw [subFrom_inside, subFrom_inside, ih]
      | zero =>
          have same : ∀ p, (step r p (x :: rest)).map Cursor.after =
              (step r none (x :: rest)).map Cursor.after := by
            intro p
            cases p with
            | none => rfl
            | some y =>
                rw [step_behind (.of_plain y ok), Option.map_map]
                rfl
          have both := (same prev).trans (same prev').symm
          cases first : step r prev (x :: rest) with
          | none =>
              rw [first, Option.map_none, eq_comm, Option.map_eq_none_iff] at both
              rw [subFrom_none f i first, subFrom_none f j both, ih]
          | some d =>
              rw [first, Option.map_some, eq_comm, Option.map_eq_some_iff] at both
              obtain ⟨e, second, after⟩ := both
              rw [subFrom_some f i first, subFrom_some f j second, after,
                ih (i + 1) (j + 1) (some x) (some x)]
              simp only [matchBetween, after]

theorem subFrom_skip {r : Regex} (ok : r.plain = true) (f : PyStr → PyStr) (i : Nat)
    (prev : Option Nat) {front : PyStr} (back : PyStr) :
    subFrom r f i prev front.length (front ++ back) = subFrom r f 0 none 0 back := by
  induction front generalizing i prev with
  | nil => exact subFrom_plain ok f i 0 prev none 0 back
  | cons x front ih => rw [List.cons_append, List.length_cons, subFrom_inside, ih]

/-- A pattern without assertions that does not match here leaves the character. -/
theorem subWith_skip {r : Regex} (ok : r.plain = true) (f : PyStr → PyStr) {x : Nat} {rest : PyStr}
    (first : step r none (x :: rest) = none) :
    subWith r (fun m => f m.text) (x :: rest) = x :: subWith r (fun m => f m.text) rest := by
  rw [subWith_eq, subWith_eq, subFrom_none f 0 first, subFrom_plain ok f 1 0 (some x) none]

/-- A pattern without assertions that matches here replaces the match and goes on after it. -/
theorem subWith_match {r : Regex} (ok : r.plain = true) (f : PyStr → PyStr) {front back : PyStr}
    {d : Cursor} (nonempty : front ≠ []) (first : step r none (front ++ back) = some d)
    (rest : d.after = back) :
    subWith r (fun m => f m.text) (front ++ back) = f front ++ subWith r (fun m => f m.text) back := by
  obtain ⟨x, front, rfl⟩ := List.exists_cons_of_ne_nil nonempty
  have inside : (front ++ back).length - d.after.length = front.length := by
    rw [rest, List.length_append, Nat.add_sub_cancel]
  have text : (matchBetween 0 ⟨none, x :: front ++ back, []⟩ d).text = x :: front := by
    simp only [matchBetween, rest, List.length_append, Nat.add_sub_cancel, List.take_left]
  rw [List.cons_append] at first text ⊢
  rw [subWith_eq, subWith_eq, subFrom_some f 0 first, inside, text, subFrom_skip ok]

/-! ### From a character to the last of another -/

/-- `a.*b` for two characters, where the point matches a line break too. -/
def between (a b : Nat) : Regex := .seq (.set (· == a)) (.seq (.many (.set fun _ => true)) (.set (· == b)))

/-- The places after a `b` in a text, the last one first. -/
def afterMarks (b : Nat) (groups : List (Nat × PyStr)) : PyStr → List Cursor
  | [] => []
  | x :: rest => afterMarks b groups rest ++ if x == b then [⟨some x, rest, groups⟩] else []

theorem manyRun_any (b : Nat) (groups : List (Nat × PyStr)) (s : PyStr) : ∀ fuel prev, s.length ≤ fuel →
    (manyRun (run (.set fun _ => true)) fuel ⟨prev, s, groups⟩).flatMap (run (.set (· == b))) =
      afterMarks b groups s := by
  induction s with
  | nil =>
      intro fuel prev _
      cases fuel <;> simp [manyRun, run, afterMarks]
  | cons x rest ih =>
      intro fuel prev enough
      cases fuel with
      | zero => cases enough
      | succ fuel =>
          have round : (run (.set fun _ => true) ⟨prev, x :: rest, groups⟩).filter
              (fun d => d.after.length < (x :: rest).length) = [⟨some x, rest, groups⟩] := by
            simp [run]
          rw [manyRun, round, List.flatMap_singleton, List.flatMap_append,
            ih fuel (some x) (Nat.le_of_succ_le_succ enough), List.flatMap_singleton, afterMarks]
          simp [run]

theorem afterMarks_last (b : Nat) (groups : List (Nat × PyStr)) (mid : PyStr) {back : PyStr}
    (last : b ∉ back) : (afterMarks b groups (mid ++ b :: back)).head? = some ⟨some b, back, groups⟩ := by
  have none_ : ∀ {t : PyStr}, b ∉ t → afterMarks b groups t = [] := by
    intro t absent
    induction t with
    | nil => rfl
    | cons x t ih =>
        rw [List.mem_cons, not_or] at absent
        rw [afterMarks, ih absent.2, if_neg (by simpa using Ne.symm absent.1), List.append_nil]
  induction mid with
  | nil => rw [List.nil_append, afterMarks, none_ last, if_pos (beq_self_eq_true b)]; rfl
  | cons x mid ih => rw [List.cons_append, afterMarks, List.head?_append, ih]; rfl

/-- The search of `a.*b` goes from the first `a` of a text to its last `b`. -/
theorem search_between {a b : Nat} {front mid back : PyStr} (first : a ∉ front) (last : b ∉ back) :
    (search (between a b) (front ++ (a :: (mid ++ b :: back)))).map Match.text =
      some (a :: (mid ++ [b])) := by
  have from_ : ∀ i prev, (searchFrom (between a b) i prev (front ++ (a :: (mid ++ b :: back)))).map
      Match.text = some (a :: (mid ++ [b])) := by
    induction front with
    | nil =>
        intro i prev
        have here : (run (between a b) ⟨prev, a :: (mid ++ b :: back), []⟩).head? =
            some ⟨some b, back, []⟩ := by
          rw [between, run, run]
          simp only [beq_self_eq_true, if_true, List.flatMap_singleton]
          rw [run, run, manyRun_any b [] _ _ _ (le_refl _), afterMarks_last b [] mid last]
        rw [List.nil_append, searchFrom, here, Option.map_some, matchBetween]
        have inside : (a :: (mid ++ b :: back)).length - back.length = (a :: (mid ++ [b])).length := by
          simp
          omega
        have split : a :: (mid ++ b :: back) = (a :: (mid ++ [b])) ++ back := by simp
        rw [inside, split, List.take_left]
    | cons x front ih =>
        intro i prev
        rw [List.mem_cons, not_or] at first
        have other : run (between a b) ⟨prev, x :: (front ++ (a :: (mid ++ b :: back))), []⟩ = [] := by
          rw [between, run, run]
          simp only [beq_iff_eq, if_neg (Ne.symm first.1), List.flatMap_nil]
        rw [List.cons_append, searchFrom, other]
        exact ih first.2 (i + 1) (some x)
  exact from_ 0 none

end Regex

end GhostPour
