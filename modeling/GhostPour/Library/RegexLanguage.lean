/-
Module: GhostPour.Library.RegexLanguage
Layer: Library
Purpose: The language of a pattern without assertions and groups: what it can reach from a cursor is
  each cursor behind a text of the language. A text that can be read in one way only has, wherever a
  pattern with groups matches it, the same groups.
Trusted boundary: none
Main exports: Cursor.moved, Regex.Spells, Regex.spells_seq, Regex.spells_many_set, Regex.spells_manyLazy_set,
  Regex.mem_run_group
-/
import GhostPour.Library.RegexLemmas

namespace GhostPour

/-- The cursor behind a text, before another one. -/
def Cursor.moved (c : Cursor) (t after : PyStr) : Cursor := ⟨t.getLast?.or c.prev, after, c.groups⟩

@[simp] theorem Cursor.moved_after (c : Cursor) (t after : PyStr) : (c.moved t after).after = after := rfl

@[simp] theorem Cursor.moved_groups (c : Cursor) (t after : PyStr) :
    (c.moved t after).groups = c.groups := rfl

theorem Cursor.moved_nil (c : Cursor) : c.moved [] c.after = c := rfl

theorem Cursor.moved_moved (c : Cursor) (t u after after' : PyStr) :
    (c.moved t after).moved u after' = c.moved (t ++ u) after' := by
  unfold Cursor.moved
  rw [List.getLast?_append, Option.or_assoc]

namespace Regex

/-- What the pattern reaches are the cursors behind the texts of the language. -/
def Spells (r : Regex) (L : PyStr → Prop) : Prop :=
  ∀ c d, d ∈ run r c ↔ ∃ t, L t ∧ c.after = t ++ d.after ∧ d = c.moved t d.after

theorem Spells.congr {r : Regex} {L M : PyStr → Prop} (spells : Spells r L)
    (same : ∀ t, L t ↔ M t) : Spells r M := by
  intro c d
  rw [spells c d]
  exact exists_congr fun t => and_congr_left fun _ => same t

theorem eq_self_iff_moved (c d : Cursor) :
    d = c ↔ c.after = [] ++ d.after ∧ d = c.moved [] d.after := by
  constructor
  · rintro rfl
    exact ⟨rfl, rfl⟩
  · rintro ⟨split, moved⟩
    rw [moved, ← show c.after = d.after from split]
    rfl

theorem spells_eps : Spells .eps (· = []) := by
  intro c d
  rw [run, List.mem_singleton, eq_self_iff_moved]
  constructor
  · exact fun here => ⟨[], rfl, here⟩
  · rintro ⟨_, rfl, here⟩
    exact here

theorem spells_set (p : Nat → Bool) : Spells (.set p) fun t => ∃ x, p x = true ∧ t = [x] := by
  intro c d
  obtain ⟨prev, after, groups⟩ := c
  rw [run]
  cases after with
  | nil =>
      constructor
      · intro member
        cases member
      · rintro ⟨_, ⟨x, _, rfl⟩, split, _⟩
        cases split
  | cons x rest =>
      constructor
      · intro member
        dsimp only at member
        split at member
        · next holds =>
          rw [List.mem_singleton] at member
          exact ⟨[x], ⟨x, holds, rfl⟩, by rw [member]; rfl, by rw [member]; rfl⟩
        · cases member
      · rintro ⟨_, ⟨y, holds, rfl⟩, split, moved⟩
        obtain ⟨rfl, later⟩ := List.cons.inj split
        dsimp only
        rw [if_pos holds, List.mem_singleton, moved, later]
        rfl

theorem Spells.seq {a b : Regex} {L M : PyStr → Prop} (front : Spells a L) (back : Spells b M) :
    Spells (.seq a b) fun w => ∃ t u, L t ∧ M u ∧ w = t ++ u := by
  intro c d
  rw [run, List.mem_flatMap]
  constructor
  · rintro ⟨e, first, second⟩
    obtain ⟨t, inL, split, moved⟩ := (front c e).mp first
    obtain ⟨u, inM, split', moved'⟩ := (back e d).mp second
    refine ⟨t ++ u, ⟨t, u, inL, inM, rfl⟩, by rw [split, split', List.append_assoc], ?_⟩
    rw [moved', moved, Cursor.moved_moved]
    rfl
  · rintro ⟨_, ⟨t, u, inL, inM, rfl⟩, split, moved⟩
    rw [List.append_assoc] at split
    refine ⟨c.moved t (u ++ d.after), (front _ _).mpr ⟨t, inL, split, rfl⟩,
      (back _ _).mpr ⟨u, inM, rfl, ?_⟩⟩
    rw [Cursor.moved_moved]
    exact moved

theorem Spells.alt {a b : Regex} {L M : PyStr → Prop} (left : Spells a L) (right : Spells b M) :
    Spells (.alt a b) fun t => L t ∨ M t := by
  intro c d
  rw [run, List.mem_append, left c d, right c d]
  constructor
  · rintro (⟨t, inL, rest⟩ | ⟨t, inM, rest⟩)
    · exact ⟨t, .inl inL, rest⟩
    · exact ⟨t, .inr inM, rest⟩
  · rintro ⟨t, inL | inM, rest⟩
    · exact .inl ⟨t, inL, rest⟩
    · exact .inr ⟨t, inM, rest⟩

theorem manyRun_set (p : Nat → Bool) (fuel : Nat) (c d : Cursor) (enough : c.after.length ≤ fuel) :
    d ∈ manyRun (run (.set p)) fuel c ↔
      ∃ t, (∀ x ∈ t, p x = true) ∧ c.after = t ++ d.after ∧ d = c.moved t d.after := by
  induction fuel generalizing c with
  | zero =>
      have empty : c.after = [] := List.length_eq_zero_iff.mp (Nat.le_zero.mp enough)
      rw [manyRun, List.mem_singleton, eq_self_iff_moved]
      constructor
      · exact fun here => ⟨[], nofun, here⟩
      · rintro ⟨t, _, split, moved⟩
        have none_ : t = [] := by
          rw [empty, eq_comm, List.append_eq_nil_iff] at split
          exact split.1
        rw [none_] at split moved
        exact ⟨split, moved⟩
  | succ fuel ih =>
      rw [manyRun, List.mem_append, List.mem_flatMap, List.mem_singleton, eq_self_iff_moved]
      constructor
      · rintro (⟨e, first, later⟩ | here)
        · rw [List.mem_filter] at first
          obtain ⟨_, ⟨x, holds, rfl⟩, split, moved⟩ := (spells_set p c e).mp first.1
          have shorter : e.after.length ≤ fuel := by
            rw [split] at enough
            simpa using enough
          obtain ⟨t, inside, split', moved'⟩ := (ih e shorter).mp later
          refine ⟨x :: t, List.forall_mem_cons.mpr ⟨holds, inside⟩, ?_, ?_⟩
          · rw [split, split']
            rfl
          · rw [moved', moved, Cursor.moved_moved]
            rfl
        · exact ⟨[], nofun, here⟩
      · rintro ⟨t, inside, split, moved⟩
        cases t with
        | nil => exact .inr ⟨split, moved⟩
        | cons x t =>
            rw [List.forall_mem_cons] at inside
            left
            have shorter : (t ++ d.after).length ≤ fuel := by
              rw [split] at enough
              simpa using enough
            refine ⟨c.moved [x] (t ++ d.after), ?_, (ih _ shorter).mpr ⟨t, inside.2, rfl, ?_⟩⟩
            · rw [List.mem_filter]
              refine ⟨(spells_set p c _).mpr ⟨[x], ⟨x, inside.1, rfl⟩, split, rfl⟩, ?_⟩
              rw [Cursor.moved_after, split]
              simp
            · rw [Cursor.moved_moved]
              exact moved

theorem spells_many_set (p : Nat → Bool) : Spells (.many (.set p)) fun t => ∀ x ∈ t, p x = true := by
  intro c d
  rw [run]
  exact manyRun_set p _ c d (le_refl _)

/-- Lazy rounds reach what greedy ones do. -/
theorem mem_manyLazyRun {step : Cursor → List Cursor} (fuel : Nat) : ∀ {c d : Cursor},
    d ∈ manyLazyRun step fuel c ↔ d ∈ manyRun step fuel c := by
  induction fuel with
  | zero => exact Iff.rfl
  | succ fuel ih =>
      intro c d
      rw [manyLazyRun, manyRun, List.mem_cons, List.mem_append, List.mem_singleton, List.mem_flatMap,
        List.mem_flatMap, or_comm]
      exact or_congr_left (exists_congr fun e => and_congr_right fun _ => ih)

theorem spells_manyLazy_set (p : Nat → Bool) :
    Spells (.manyLazy (.set p)) fun t => ∀ x ∈ t, p x = true := by
  intro c d
  rw [run, mem_manyLazyRun]
  exact manyRun_set p _ c d (le_refl _)

theorem spells_plus_set (p : Nat → Bool) :
    Spells (plus (.set p)) fun t => t ≠ [] ∧ ∀ x ∈ t, p x = true := by
  refine ((spells_set p).seq (spells_many_set p)).congr fun t => ?_
  constructor
  · rintro ⟨_, u, ⟨x, holds, rfl⟩, inside, rfl⟩
    exact ⟨List.cons_ne_nil _ _, List.forall_mem_cons.mpr ⟨holds, inside⟩⟩
  · rintro ⟨nonempty, inside⟩
    obtain ⟨x, u, rfl⟩ := List.exists_cons_of_ne_nil nonempty
    rw [List.forall_mem_cons] at inside
    exact ⟨[x], u, ⟨x, inside.1, rfl⟩, inside.2, rfl⟩

theorem spells_char (c : Nat) : Spells (.set (· == c)) (· = [c]) := by
  refine (spells_set _).congr fun t => ?_
  constructor
  · rintro ⟨x, same, rfl⟩
    rw [beq_iff_eq.mp same]
  · intro same
    exact ⟨c, beq_self_eq_true c, same⟩

theorem spells_lit (cs : List Char) : Spells (lit cs) (· = cs.map Char.toNat) := by
  induction cs with
  | nil => exact spells_eps
  | cons ch cs ih =>
      cases cs with
      | nil => exact spells_char ch.toNat
      | cons ch' cs =>
          refine ((spells_char ch.toNat).seq ih).congr fun t => ?_
          constructor
          · rintro ⟨_, _, rfl, rfl, rfl⟩
            rfl
          · intro same
            exact ⟨_, _, rfl, rfl, same⟩

theorem spells_times_set (p : Nat → Bool) (n : Nat) :
    Spells (times n (.set p)) fun t => t.length = n ∧ ∀ x ∈ t, p x = true := by
  have one : Spells (.set p) fun t => t.length = 1 ∧ ∀ x ∈ t, p x = true := by
    refine (spells_set p).congr fun t => ?_
    constructor
    · rintro ⟨x, holds, rfl⟩
      exact ⟨rfl, by simpa using holds⟩
    · rintro ⟨length, inside⟩
      obtain ⟨x, rfl⟩ := List.length_eq_one_iff.mp length
      exact ⟨x, inside x (List.mem_singleton_self x), rfl⟩
  induction n with
  | zero =>
      refine spells_eps.congr fun t => ?_
      constructor
      · rintro rfl
        exact ⟨rfl, nofun⟩
      · exact fun length => List.length_eq_zero_iff.mp length.1
  | succ n ih =>
      cases n with
      | zero => exact one
      | succ n =>
          refine (one.seq ih).congr fun t => ?_
          constructor
          · rintro ⟨t, u, ⟨single, inside⟩, ⟨length, inside'⟩, rfl⟩
            refine ⟨by rw [List.length_append, single, length, Nat.add_comm], ?_⟩
            exact List.forall_mem_append.mpr ⟨inside, inside'⟩
          · rintro ⟨length, inside⟩
            cases t with
            | nil => cases length
            | cons x t =>
                rw [List.forall_mem_cons] at inside
                exact ⟨[x], t, ⟨rfl, by simpa using inside.1⟩, ⟨Nat.succ.inj length, inside.2⟩, rfl⟩

/-- What an optional repetition reaches is behind texts. -/
theorem Spells.upTo {r : Regex} {L : PyStr → Prop} (spells : Spells r L) (n : Nat) :
    ∃ M, Spells (upTo n r) M := by
  induction n with
  | zero => exact ⟨_, spells_eps⟩
  | succ n ih =>
      obtain ⟨M, more⟩ := ih
      exact ⟨_, (spells.seq more).alt spells_eps⟩

/-! ### Patterns with groups and assertions -/

theorem mem_run_seq {a b : Regex} {c d : Cursor} :
    d ∈ run (.seq a b) c ↔ ∃ e ∈ run a c, d ∈ run b e := by
  rw [run, List.mem_flatMap]

theorem mem_run_seqs {r s : Regex} {rs : List Regex} {c d : Cursor} :
    d ∈ run (seqs (r :: s :: rs)) c ↔ ∃ e ∈ run r c, d ∈ run (seqs (s :: rs)) e := by
  rw [seqs, mem_run_seq]
  exact List.cons_ne_nil s rs

theorem mem_run_test {p : Option Nat → PyStr → Bool} {c d : Cursor} :
    d ∈ run (.test p) c ↔ p c.prev c.after = true ∧ d = c := by
  rw [run]
  split
  · next holds => simp [holds]
  · next fails => simp [fails]

/-- What a group reaches, and remembers. -/
theorem mem_run_group {r : Regex} {L : PyStr → Prop} (spells : Spells r L) (n : Nat) {c d : Cursor} :
    d ∈ run (.group n r) c ↔ ∃ t, L t ∧ c.after = t ++ d.after ∧
      d = ⟨t.getLast?.or c.prev, d.after, (n, t) :: c.groups⟩ := by
  have captured : ∀ {t : PyStr} {e : Cursor}, c.after = t ++ e.after → e = c.moved t e.after →
      Cursor.capture n c e = ⟨t.getLast?.or c.prev, e.after, (n, t) :: c.groups⟩ := by
    intro t e split moved
    have text : c.after.take (c.after.length - e.after.length) = t := by
      rw [split, List.length_append, Nat.add_sub_cancel, List.take_left]
    rw [Cursor.capture, text, moved]
    rfl
  rw [run, List.mem_map]
  constructor
  · rintro ⟨e, reached, rfl⟩
    obtain ⟨t, inL, split, moved⟩ := (spells c e).mp reached
    exact ⟨t, inL, split, captured split moved⟩
  · rintro ⟨t, inL, split, moved⟩
    refine ⟨c.moved t d.after, (spells c _).mpr ⟨t, inL, split, rfl⟩, ?_⟩
    rw [moved]
    exact captured split rfl

end Regex

end GhostPour
