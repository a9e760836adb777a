/-
Module: GhostPour.Library.RegexRewrite
Layer: Library
Purpose: What `re.sub` makes of a text, as a relation on the text from a position on: a character where no match
  starts stays, and a match gives way to the text of the function. Properties of a rewritten text are
  proved by induction on it.
Trusted boundary: none
Main exports: Regex.search_eq_some, Regex.groupsIn_run, Regex.Rewrites, Regex.Replaces,
  Regex.subWith_rewrites, Regex.Rewrites.mem, Regex.Rewrites.same, Regex.Rewrites.sublist,
  Regex.Rewrites.carries, Regex.Rewrites.preserves, Regex.Replaces.chars, Regex.Needs,
  Regex.Replaces.has, Regex.mem_finditer, Regex.Spells.step_ne_none
-/
import GhostPour.Library.RegexLanguage
import GhostPour.Library.RegexSearch

namespace GhostPour

namespace Regex

/-- The text from a position on, and what it is rewritten to. -/
inductive Rewrites (r : Regex) (f : Match → PyStr) : Option Nat → PyStr → PyStr → Prop
  | nil (prev : Option Nat) : Rewrites r f prev [] []
  /-- No match starts here. -/
  | skip {prev : Option Nat} {x : Nat} {rest out : PyStr} (none_ : step r prev (x :: rest) = none)
      (later : Rewrites r f (some x) rest out) : Rewrites r f prev (x :: rest) (x :: out)
  /-- The first match at this position. -/
  | here {prev : Option Nat} {text out : PyStr} {d : Cursor} (i : Nat) (nonempty : text ≠ [])
      (reached : d ∈ run r ⟨prev, text ++ d.after, []⟩)
      (later : Rewrites r f d.prev d.after out) :
      Rewrites r f prev (text ++ d.after) (f ⟨i, text, d.groups⟩ ++ out)

/-! ### A match of the text -/

/-- What the first match is and where. -/
theorem searchFrom_eq_some {r : Regex} {m : Match} (s : PyStr) : ∀ i prev,
    searchFrom r i prev s = some m → ∃ a d, s = a ++ (m.text ++ d.after) ∧ m.start = i + a.length ∧
      d ∈ run r ⟨a.getLast?.or prev, m.text ++ d.after, []⟩ ∧ m.groups = d.groups := by
  have here : ∀ i prev s d, d ∈ run r ⟨prev, s, []⟩ →
      (matchBetween i ⟨prev, s, []⟩ d).text ++ d.after = s := by
    intro i prev s d reached
    obtain ⟨passed, split, _⟩ := run_reaches r _ d reached
    replace split : s = passed ++ d.after := split
    simp only [matchBetween, split, List.length_append, Nat.add_sub_cancel, List.take_left]
  induction s with
  | nil =>
      intro i prev found
      rw [searchFrom, Option.map_eq_some_iff] at found
      obtain ⟨d, first, rfl⟩ := found
      have reached := List.mem_of_head? first
      have whole := here i prev [] d reached
      exact ⟨[], d, whole.symm, rfl, by rw [whole]; exact reached, rfl⟩
  | cons x rest ih =>
      intro i prev found
      rw [searchFrom] at found
      split at found
      · next d first =>
        obtain rfl := Option.some.inj found
        have reached := List.mem_of_head? first
        have whole := here i prev (x :: rest) d reached
        exact ⟨[], d, whole.symm, rfl, by rw [whole]; exact reached, rfl⟩
      · obtain ⟨a, d, rfl, start, reached, groups⟩ := ih (i + 1) (some x) found
        refine ⟨x :: a, d, rfl, ?_, by rwa [getLast?_cons_or], groups⟩
        rw [start, List.length_cons, Nat.add_assoc, Nat.add_comm 1]

theorem search_eq_some {r : Regex} {m : Match} {s : PyStr} (found : search r s = some m) :
    ∃ a d, s = a ++ (m.text ++ d.after) ∧ m.start = a.length ∧
      d ∈ run r ⟨a.getLast?, m.text ++ d.after, []⟩ ∧ m.groups = d.groups := by
  obtain ⟨a, d, split, start, reached, groups⟩ := searchFrom_eq_some s 0 none found
  rw [Nat.zero_add] at start
  rw [Option.or_none] at reached
  exact ⟨a, d, split, start, reached, groups⟩

/-- All groups have only characters of a set. -/
def GroupsIn (q : Nat → Bool) (c : Cursor) : Prop := ∀ g ∈ c.groups, ∀ x ∈ g.2, q x = true

/-- What a pattern captures has no other characters than those of its sets. -/
theorem groupsIn_run {q : Nat → Bool} {r : Regex} (sets : r.SetsIn q) :
    ∀ c, GroupsIn q c → ∀ d ∈ run r c, GroupsIn q d := by
  have rounds : ∀ {step : Cursor → List Cursor}, (∀ c, ∀ d ∈ step c, GroupsIn q c → GroupsIn q d) →
      ∀ fuel c, (∀ d ∈ manyRun step fuel c, GroupsIn q c → GroupsIn q d) ∧
        ∀ d ∈ manyLazyRun step fuel c, GroupsIn q c → GroupsIn q d := by
    intro step keeps fuel c
    have refl : ∀ c : Cursor, GroupsIn q c → GroupsIn q c := fun _ => id
    have trans : ∀ {c d e : Cursor}, (GroupsIn q c → GroupsIn q d) → (GroupsIn q d → GroupsIn q e) →
        GroupsIn q c → GroupsIn q e := fun one two inside => two (one inside)
    exact ⟨@manyRun_rel (fun c d => GroupsIn q c → GroupsIn q d) step refl trans keeps fuel c,
      @manyLazyRun_rel (fun c d => GroupsIn q c → GroupsIn q d) step refl trans keeps fuel c⟩
  induction r with
  | eps =>
      intro c inside d member
      rw [run, List.mem_singleton] at member
      exact member ▸ inside
  | set p =>
      intro c inside d member
      rw [run] at member
      split at member
      · split at member
        · rw [List.mem_singleton] at member
          rw [member]
          exact inside
        · cases member
      · cases member
  | test p =>
      intro c inside d member
      rw [run] at member
      split at member
      · rw [List.mem_singleton] at member
        exact member ▸ inside
      · cases member
  | seq a b ihA ihB =>
      intro c inside d member
      obtain ⟨e, first, second⟩ := List.mem_flatMap.mp member
      exact ihB sets.2 e (ihA sets.1 c inside e first) d second
  | alt a b ihA ihB =>
      intro c inside d member
      rcases List.mem_append.mp member with left | right
      · exact ihA sets.1 c inside d left
      · exact ihB sets.2 c inside d right
  | many r ih =>
      intro c inside d member
      exact (rounds (fun c d member inside => ih sets c inside d member) _ c).1 d member inside
  | manyLazy r ih =>
      intro c inside d member
      exact (rounds (fun c d member inside => ih sets c inside d member) _ c).2 d member inside
  | group n r ih =>
      intro c inside d member
      obtain ⟨e, reached, rfl⟩ := List.mem_map.mp member
      have inner : r.SetsIn q := sets
      obtain ⟨passed, split, each⟩ := run_passes inner c e reached
      refine List.forall_mem_cons.mpr ⟨?_, ih sets c inside e reached⟩
      dsimp only
      rw [split, List.length_append, Nat.add_sub_cancel, List.take_left]
      exact each

/-- A text some match has, and what it gives way to. -/
def Replaces (r : Regex) (f : Match → PyStr) (text new : PyStr) : Prop :=
  ∃ prev d i, text ≠ [] ∧ d ∈ run r ⟨prev, text ++ d.after, []⟩ ∧ new = f ⟨i, text, d.groups⟩

/-- A match has no other characters than those of the pattern's sets. -/
theorem Replaces.chars {r : Regex} {f : Match → PyStr} {text new : PyStr} {q : Nat → Bool}
    (replaces : Replaces r f text new) (sets : r.SetsIn q) : ∀ c ∈ text, q c = true := by
  obtain ⟨prev, d, i, _, reached, _⟩ := replaces
  obtain ⟨passed, split, each⟩ := run_passes sets _ d reached
  rw [List.append_cancel_right (show text ++ d.after = passed ++ d.after from split)]
  exact each

/-- Every match of a pattern passes a character of a set. -/
def Needs (q : Nat → Bool) : Regex → Prop
  | .set p => ∀ x, p x = true → q x = true
  | .seq a b => a.Needs q ∨ b.Needs q
  | .alt a b => a.Needs q ∧ b.Needs q
  | .group _ r => r.Needs q
  | _ => False

theorem run_needs {q : Nat → Bool} {r : Regex} (needs : r.Needs q) :
    ∀ c, ∀ d ∈ run r c, ∃ passed, c.after = passed ++ d.after ∧ ∃ x ∈ passed, q x = true := by
  induction r with
  | eps | test p | many r ih | manyLazy r ih => exact absurd needs not_false
  | set p =>
      intro c d member
      obtain ⟨_, ⟨x, holds, rfl⟩, split, _⟩ := (spells_set p c d).mp member
      exact ⟨[x], split, x, List.mem_singleton_self x, needs x holds⟩
  | seq a b ihA ihB =>
      intro c d member
      obtain ⟨e, first, second⟩ := List.mem_flatMap.mp member
      obtain ⟨front, split, _⟩ := run_reaches a c e first
      obtain ⟨back, split', _⟩ := run_reaches b e d second
      rcases needs with inFront | inBack
      · obtain ⟨passed, whole, x, inside, holds⟩ := ihA inFront c e first
        exact ⟨passed ++ back, by rw [whole, split', List.append_assoc], x,
          List.mem_append_left _ inside, holds⟩
      · obtain ⟨passed, whole, x, inside, holds⟩ := ihB inBack e d second
        exact ⟨front ++ passed, by rw [split, whole, List.append_assoc], x,
          List.mem_append_right _ inside, holds⟩
  | alt a b ihA ihB =>
      intro c d member
      rcases List.mem_append.mp member with left | right
      · exact ihA needs.1 c d left
      · exact ihB needs.2 c d right
  | group n r ih =>
      intro c d member
      obtain ⟨e, inner, rfl⟩ := List.mem_map.mp member
      exact ih needs c e inner

/-- A match has a character that the pattern needs. -/
theorem Replaces.has {r : Regex} {f : Match → PyStr} {text new : PyStr} {q : Nat → Bool}
    (replaces : Replaces r f text new) (needs : r.Needs q) : ∃ x ∈ text, q x = true := by
  obtain ⟨prev, d, i, _, reached, _⟩ := replaces
  obtain ⟨passed, split, holds⟩ := run_needs needs _ d reached
  rw [List.append_cancel_right (show text ++ d.after = passed ++ d.after from split)]
  exact holds

/-- The text from a position on, rewritten. -/
def rewriteFrom (r : Regex) (f : Match → PyStr) (i : Nat) (prev : Option Nat) (inside : Nat)
    (s : PyStr) : PyStr :=
  ((piecesFrom r i prev inside s).1.flatMap fun piece => piece.1 ++ f piece.2) ++
    (piecesFrom r i prev inside s).2

variable {r : Regex} {f : Match → PyStr}

theorem rewriteFrom_nil (i : Nat) (prev : Option Nat) (inside : Nat) :
    rewriteFrom r f i prev inside [] = [] := by
  rw [rewriteFrom, piecesFrom]
  rfl

theorem rewriteFrom_inside (i : Nat) (prev : Option Nat) (inside x : Nat) (rest : PyStr) :
    rewriteFrom r f i prev (inside + 1) (x :: rest) =
      rewriteFrom r f (i + 1) (some x) inside rest := by
  rw [rewriteFrom, piecesFrom]
  rfl

theorem rewriteFrom_none {prev : Option Nat} {x : Nat} {rest : PyStr} (i : Nat)
    (first : step r prev (x :: rest) = none) :
    rewriteFrom r f i prev 0 (x :: rest) = x :: rewriteFrom r f (i + 1) (some x) 0 rest := by
  rw [rewriteFrom, piecesFrom, first, rewriteFrom]
  obtain ⟨_ | ⟨piece, later⟩, tail⟩ := piecesFrom r (i + 1) (some x) 0 rest <;> rfl

theorem rewriteFrom_some {prev : Option Nat} {x : Nat} {rest : PyStr} {d : Cursor} (i : Nat)
    (first : step r prev (x :: rest) = some d) :
    rewriteFrom r f i prev 0 (x :: rest) = f (matchBetween i ⟨prev, x :: rest, []⟩ d) ++
      rewriteFrom r f (i + 1) (some x) (rest.length - d.after.length) rest := by
  rw [rewriteFrom, piecesFrom, first, rewriteFrom]
  exact List.append_assoc ..

/-- A first match consumes something, and is a match. -/
theorem step_reaches {prev : Option Nat} {s : PyStr} {d : Cursor} (first : step r prev s = some d) :
    d ∈ run r ⟨prev, s, []⟩ ∧ ∃ text, text ≠ [] ∧ s = text ++ d.after ∧
      d.prev = text.getLast?.or prev := by
  obtain ⟨head, shorter⟩ := Option.filter_eq_some_iff.mp first
  have reached : d ∈ run r ⟨prev, s, []⟩ := List.mem_of_head? head
  obtain ⟨text, split, last⟩ := run_reaches r ⟨prev, s, []⟩ d reached
  refine ⟨reached, text, ?_, split, last⟩
  rintro rfl
  rw [show s = [] ++ d.after from split] at shorter
  simp at shorter

theorem rewriteFrom_rewrites (s : PyStr) : ∀ (i : Nat) (prev : Option Nat) (inside : Nat),
    inside ≤ s.length →
    Rewrites r f ((s.take inside).getLast?.or prev) (s.drop inside) (rewriteFrom r f i prev inside s) := by
  induction s with
  | nil =>
      intro i prev inside short
      rw [rewriteFrom_nil, List.drop_nil]
      exact .nil _
  | cons x rest ih =>
      intro i prev inside short
      cases inside with
      | succ inside =>
          rw [rewriteFrom_inside, List.take_succ_cons, List.drop_succ_cons, getLast?_cons_or]
          exact ih _ _ _ (Nat.le_of_succ_le_succ short)
      | zero =>
          change Rewrites r f prev (x :: rest) _
          cases first : step r prev (x :: rest) with
          | none =>
              rw [rewriteFrom_none i first]
              exact .skip first (ih (i + 1) (some x) 0 (Nat.zero_le _))
          | some d =>
              obtain ⟨reached, text, nonempty, split, last⟩ := step_reaches first
              obtain ⟨y, front, rfl⟩ := List.exists_cons_of_ne_nil nonempty
              obtain ⟨rfl, others⟩ := List.cons.inj split
              replace others : rest = front ++ d.after := others
              subst others
              have passed : (front ++ d.after).length - d.after.length = front.length := by
                rw [List.length_append, Nat.add_sub_cancel]
              have matched : matchBetween i ⟨prev, x :: (front ++ d.after), []⟩ d =
                  ⟨i, x :: front, d.groups⟩ := by
                simp only [matchBetween, ← List.cons_append, List.length_append, Nat.add_sub_cancel,
                  List.take_left]
              have later := ih (i + 1) (some x) front.length
                (by rw [List.length_append]; exact Nat.le_add_right _ _)
              rw [List.take_left, List.drop_left, ← getLast?_cons_or x front prev, ← last] at later
              rw [rewriteFrom_some i first, passed, matched]
              exact @Rewrites.here r f prev (x :: front) _ d i nonempty reached later

/-- `re.sub` rewrites the text. -/
theorem subWith_rewrites (r : Regex) (f : Match → PyStr) (s : PyStr) :
    Rewrites r f none s (subWith r f s) := by
  have whole := rewriteFrom_rewrites (r := r) (f := f) s 0 none 0 (Nat.zero_le _)
  exact whole

namespace Rewrites

variable {prev : Option Nat} {s out : PyStr}

/-- Every character was put in with a replacement, or is one of the text at which no match starts. -/
theorem mem (rewrites : Rewrites r f prev s out) : ∀ c ∈ out,
    (∃ text new, Replaces r f text new ∧ c ∈ new) ∨
      (c ∈ s ∧ ∃ prev rest, step r prev (c :: rest) = none) := by
  induction rewrites with
  | nil => exact fun c member => absurd member List.not_mem_nil
  | @skip prev x rest out none_ _ ih =>
      intro c member
      rcases List.mem_cons.mp member with rfl | later
      · exact .inr ⟨List.mem_cons_self .., prev, rest, none_⟩
      · rcases ih c later with replaced | ⟨inRest, missed⟩
        · exact .inl replaced
        · exact .inr ⟨List.mem_cons_of_mem _ inRest, missed⟩
  | @here prev text out d i nonempty reached _ ih =>
      intro c member
      rcases List.mem_append.mp member with replaced | later
      · exact .inl ⟨text, _, ⟨prev, d, i, nonempty, reached, rfl⟩, replaced⟩
      · rcases ih c later with replaced | ⟨inRest, missed⟩
        · exact .inl replaced
        · exact .inr ⟨List.mem_append_right _ inRest, missed⟩

/-- A reading of texts that sees no difference between a match and what it gives way to reads the
rewritten text as it read the text. -/
theorem same {α : Type} {g : PyStr → α}
    (swap : ∀ text new, Replaces r f text new → ∀ a b, g (a ++ (new ++ b)) = g (a ++ (text ++ b)))
    (rewrites : Rewrites r f prev s out) : ∀ a, g (a ++ out) = g (a ++ s) := by
  induction rewrites with
  | nil => exact fun a => rfl
  | @skip prev x rest out none_ _ ih =>
      intro a
      have later := ih (a ++ [x])
      rw [List.append_assoc, List.append_assoc] at later
      exact later
  | @here prev text out d i nonempty reached _ ih =>
      intro a
      have later := ih (a ++ f ⟨i, text, d.groups⟩)
      rw [List.append_assoc, List.append_assoc] at later
      rw [later]
      exact swap text _ ⟨prev, d, i, nonempty, reached, rfl⟩ a d.after

/-- What holds of the text written so far and the text left, and of each step, holds at the end. -/
theorem carries {P : PyStr → PyStr → Prop} (skip : ∀ a x s, P a (x :: s) → P (a ++ [x]) s)
    (swap : ∀ text new, Replaces r f text new → ∀ a b, P a (text ++ b) → P (a ++ new) b)
    (rewrites : Rewrites r f prev s out) : ∀ a, P a s → P (a ++ out) [] := by
  induction rewrites with
  | nil =>
      intro a holds
      rw [List.append_nil]
      exact holds
  | @skip prev x rest out none_ _ ih =>
      intro a holds
      have later := ih (a ++ [x]) (skip a x rest holds)
      rwa [List.append_assoc] at later
  | @here prev text out d i nonempty reached _ ih =>
      intro a holds
      have later := ih _ (swap text _ ⟨prev, d, i, nonempty, reached, rfl⟩ a d.after holds)
      rwa [List.append_assoc] at later

/-- What every replacement inside a text keeps, the rewritten text has. -/
theorem preserves {P : PyStr → Prop}
    (swap : ∀ text new, Replaces r f text new → ∀ a b, P (a ++ (text ++ b)) → P (a ++ (new ++ b)))
    (rewrites : Rewrites r f prev s out) (holds : P s) : P out := by
  have carried := rewrites.carries (P := fun a s => P (a ++ s))
    (fun a x s holds => by rwa [List.append_assoc]) (fun text new replaces a b holds => by
      rw [List.append_assoc]
      exact swap text new replaces a b holds) [] holds
  rwa [List.append_nil] at carried

/-- Characters that every match hands on to what it gives way to are all there, in order. -/
theorem sublist {keeps : Nat → Bool}
    (hands : ∀ text new, Replaces r f text new → (text.filter keeps).Sublist new)
    (rewrites : Rewrites r f prev s out) : (s.filter keeps).Sublist out := by
  induction rewrites with
  | nil => exact List.Sublist.refl []
  | @skip prev x rest out none_ _ ih =>
      rw [List.filter_cons]
      split
      · exact ih.cons_cons x
      · exact ih.cons x
  | @here prev text out d i nonempty reached _ ih =>
      rw [List.filter_append]
      exact (hands text _ ⟨prev, d, i, nonempty, reached, rfl⟩).append ih

end Rewrites

/-! ### The matches -/

/-- A match is a text of the text, and the pattern reaches its end there. -/
theorem mem_matchesFrom {m : Match} (s : PyStr) : ∀ (i : Nat) (prev : Option Nat) (inside : Nat),
    m ∈ matchesFrom r i prev inside s → ∃ a d before, s = a ++ (m.text ++ d.after) ∧
      m.start = i + a.length ∧ d ∈ run r ⟨before, m.text ++ d.after, []⟩ ∧ m.groups = d.groups := by
  induction s with
  | nil =>
      intro i prev inside member
      rw [matchesFrom_nil] at member
      cases member
  | cons x rest ih =>
      have later : ∀ {i : Nat} {prev : Option Nat} {inside : Nat}, m ∈ matchesFrom r (i + 1) prev inside rest →
          ∃ a d before, x :: rest = a ++ (m.text ++ d.after) ∧ m.start = i + a.length ∧
            d ∈ run r ⟨before, m.text ++ d.after, []⟩ ∧ m.groups = d.groups := by
        intro i prev inside member
        obtain ⟨a, d, before, rfl, start, reached⟩ := ih (i + 1) prev inside member
        refine ⟨x :: a, d, before, rfl, ?_, reached⟩
        rw [start, List.length_cons]
        omega
      intro i prev inside member
      cases inside with
      | succ inside =>
          rw [matchesFrom_inside] at member
          exact later member
      | zero =>
          cases first : step r prev (x :: rest) with
          | none =>
              rw [matchesFrom_none i first] at member
              exact later member
          | some d =>
              rw [matchesFrom_some i first] at member
              rcases List.mem_cons.mp member with rfl | member
              · obtain ⟨reached, text, _, split, _⟩ := step_reaches first
                have whole : (matchBetween i ⟨prev, x :: rest, []⟩ d).text = text := by
                  simp only [matchBetween, split, List.length_append, Nat.add_sub_cancel, List.take_left]
                refine ⟨[], d, prev, ?_, rfl, ?_, rfl⟩
                · rw [whole, split]
                  rfl
                · rw [whole, ← split]
                  exact reached
              · exact later member

theorem mem_finditer {m : Match} {s : PyStr} (member : m ∈ finditer r s) : ∃ a d before,
    s = a ++ (m.text ++ d.after) ∧ m.start = a.length ∧ d ∈ run r ⟨before, m.text ++ d.after, []⟩ ∧
      m.groups = d.groups := by
  have found := mem_matchesFrom s 0 none 0 member
  simpa only [Nat.zero_add] using found

/-- Where the text goes on with a text of the pattern's language, a match starts. -/
theorem Spells.step_ne_none {L : PyStr → Prop} (spells : Spells r L) (nonempty : ∀ t, L t → t ≠ [])
    {t : PyStr} (inL : L t) (prev : Option Nat) (rest : PyStr) : step r prev (t ++ rest) ≠ none := by
  have reached := (spells ⟨prev, t ++ rest, []⟩ (Cursor.moved ⟨prev, t ++ rest, []⟩ t rest)).mpr
    ⟨t, inL, rfl, rfl⟩
  obtain ⟨d, others, first⟩ := List.exists_cons_of_ne_nil (List.ne_nil_of_mem reached)
  have member : d ∈ run r ⟨prev, t ++ rest, []⟩ := first ▸ List.mem_cons_self ..
  obtain ⟨u, inL', split, _⟩ := (spells _ d).mp member
  have shorter : d.after.length < (t ++ rest).length := by
    rw [show t ++ rest = u ++ d.after from split, List.length_append]
    exact Nat.lt_add_of_pos_left (List.length_pos_iff.mpr (nonempty u inL'))
  rw [step, first, List.head?_cons, Option.filter_some, if_pos (by simpa using shorter)]
  exact Option.some_ne_none d

end Regex

end GhostPour
