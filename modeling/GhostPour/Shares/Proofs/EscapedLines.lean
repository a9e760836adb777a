/-
Module: GhostPour.Shares.Proofs.EscapedLines
Layer: Proofs
Purpose: Escaping and the lines of the share page. Escaping writes each character by itself, so that an
  escaped text can be cut where the text can be cut; all that the inline markdown is written of is the
  escaped form of a part of the text.
Trusted boundary: none
Main exports: escChar, esc_eq, Bare, esc_split, decode, decode_esc, splitOn_esc, rstrip_esc, blockOf_spec,
  inlined_escaped
-/
import GhostPour.Library.Pieces
import GhostPour.Library.RegexLanguage
import GhostPour.Shares.ShareBundle

namespace GhostPour.Shares

open Regex

/-! ### Escaping -/

/-- The characters that are escaped. -/
def isSpecial (c : Nat) : Bool := entities.any (·.1 == c)

/-- What is written for a character. -/
def escChar (c : Nat) : PyStr := ((entities.find? (·.1 == c)).map Prod.snd).getD [c]

theorem escChar_cases (c : Nat) :
    (isSpecial c = true ∧ ∃ e ∈ entities, e.1 = c ∧ escChar c = e.2) ∨
      (isSpecial c = false ∧ escChar c = [c]) := by
  rw [isSpecial, escChar]
  cases found : entities.find? (·.1 == c) with
  | none =>
      rw [List.find?_eq_none] at found
      refine .inr ⟨?_, rfl⟩
      rw [List.any_eq_false]
      exact found
  | some e =>
      have holds := List.find?_some found
      refine .inl ⟨List.any_eq_true.mpr ⟨e, List.mem_of_find?_eq_some found, holds⟩,
        e, List.mem_of_find?_eq_some found, by simpa using holds, rfl⟩

theorem esc_append (s t : PyStr) : esc (s ++ t) = esc s ++ esc t := by
  simp only [esc, entities, List.foldl_cons, List.foldl_nil, replaceChar, List.flatMap_append]

theorem esc_single (c : Nat) : esc [c] = escChar c := by
  rcases escChar_cases c with ⟨_, e, member, rfl, written⟩ | ⟨other, written⟩
  · rw [written]
    have each : ∀ e ∈ entities, esc [e.1] = e.2 := by decide
    exact each e member
  · rw [written]
    simp only [isSpecial, entities, List.any_cons, List.any_nil, Bool.or_false, Bool.or_eq_false_iff,
      beq_eq_false_iff_ne] at other
    simp only [esc, entities, List.foldl_cons, List.foldl_nil, replaceChar, List.flatMap_singleton,
      if_neg other.1.symm, if_neg other.2.1.symm, if_neg other.2.2.1.symm, if_neg other.2.2.2.1.symm,
      if_neg other.2.2.2.2.symm]

theorem esc_nil : esc [] = [] := rfl

theorem esc_cons (c : Nat) (s : PyStr) : esc (c :: s) = escChar c ++ esc s := by
  rw [← esc_single, ← esc_append]
  rfl

/-- Escaping writes each character by itself. -/
theorem esc_eq (s : PyStr) : esc s = s.flatMap escChar := by
  induction s with
  | nil => rfl
  | cons c s ih => rw [esc_cons, ih, List.flatMap_cons]

/-! ### Cuts -/

/-- A character that no entity has. -/
def Bare (c : Nat) : Prop := ∀ e ∈ entities, c ∉ e.2

instance (c : Nat) : Decidable (Bare c) := inferInstanceAs (Decidable (∀ e ∈ entities, c ∉ e.2))

/-- A character, and what is written for it. -/
inductive Escaped : PyStr → PyStr → Prop
  | char (c : Nat) : Escaped [c] (escChar c)

theorem escaped_stands {c : Nat} (bare : Bare c) : Stands Escaped c := by
  rintro _ _ ⟨x⟩ member
  rcases escChar_cases x with ⟨_, e, entity, rfl, written⟩ | ⟨_, written⟩
  · rw [written] at member
    exact absurd member (bare e entity)
  · rw [written, List.mem_singleton] at member
    rw [written, member]
    exact ⟨rfl, rfl⟩

theorem aligned_escaped {s t : PyStr} : Aligned Escaped s t ↔ t = esc s := by
  constructor
  · intro aligned
    induction aligned with
    | nil => rfl
    | piece related later ih =>
        cases related
        rw [ih, ← esc_single, ← esc_append]
  · rintro rfl
    rw [esc_eq]
    exact Aligned.flatMap (fun c => .char c) s

/-- An escaped text is cut at a bare character where the text is. -/
theorem esc_split {c : Nat} (bare : Bare c) {s x y : PyStr} (split : esc s = x ++ c :: y) :
    ∃ p q, s = p ++ c :: q ∧ x = esc p ∧ y = esc q := by
  obtain ⟨p, q, rfl, front, back⟩ := (aligned_escaped.mpr rfl).split_at (escaped_stands bare) split
  exact ⟨p, q, rfl, aligned_escaped.mp front, aligned_escaped.mp back⟩

theorem bare_of_space {c : Nat} (space : isSpace c = true) : Bare c := by
  have each : ∀ e ∈ entities, ∀ x ∈ e.2, isSpace x = false := by decide
  intro e entity member
  rw [each e entity c member] at space
  cases space

theorem escChar_of_space {c : Nat} (space : isSpace c = true) : escChar c = [c] := by
  rcases escChar_cases c with ⟨_, e, entity, rfl, _⟩ | ⟨_, written⟩
  · have each : ∀ e ∈ entities, isSpace e.1 = false := by decide
    rw [each e entity] at space
    cases space
  · exact written

theorem splitOn_front {sep : Nat} {u : PyStr} (other : sep ∉ u) (s : PyStr) :
    (u ++ s).splitOn sep = (s.splitOn sep).modifyHead (u ++ ·) := by
  induction u with
  | nil =>
      rw [List.nil_append]
      cases s.splitOn sep <;> rfl
  | cons c u ih =>
      rw [List.mem_cons, not_or] at other
      rw [List.cons_append, List.splitOn_cons_eq_if_modifyHead, if_neg (by simpa using Ne.symm other.1),
        ih other.2, List.modifyHead_modifyHead]
      rfl

/-- The lines of an escaped text are the escaped lines. -/
theorem splitOn_esc {sep : Nat} (bare : Bare sep) (plain : isSpecial sep = false) (s : PyStr) :
    (esc s).splitOn sep = (s.splitOn sep).map esc := by
  induction s with
  | nil => rfl
  | cons c s ih =>
      rw [esc_cons, List.splitOn_cons_eq_if_modifyHead]
      by_cases same : c = sep
      · rw [same, if_pos (beq_self_eq_true sep), List.map_cons, ← ih]
        rcases escChar_cases sep with ⟨special, _⟩ | ⟨_, written⟩
        · rw [plain] at special
          cases special
        · rw [written, List.singleton_append, List.splitOn_cons_eq_if_modifyHead,
            if_pos (beq_self_eq_true sep)]
          rfl
      · have other : sep ∉ escChar c := by
          rcases escChar_cases c with ⟨_, e, entity, rfl, written⟩ | ⟨_, written⟩
          · rw [written]
            exact bare e entity
          · rw [written, List.mem_singleton]
            exact Ne.symm same
        rw [if_neg (by simpa using same), splitOn_front other, ih]
        cases s.splitOn sep with
        | nil => rfl
        | cons l ls =>
            rw [List.map_cons, List.modifyHead_cons, List.modifyHead_cons, List.map_cons, esc_cons]

/-- The first line is at the front of the text, and every line is a part of it. -/
theorem splitOn_parts (sep : Nat) (s : PyStr) : ∃ l ls, s.splitOn sep = l :: ls ∧ l <+: s ∧ ∀ m ∈ ls, m <:+: s := by
  induction s with
  | nil => exact ⟨[], [], List.splitOn_nil sep, List.prefix_refl [], fun m member => absurd member List.not_mem_nil⟩
  | cons c s ih =>
      obtain ⟨l, ls, lines, front, parts⟩ := ih
      have later : ∀ m ∈ l :: ls, m <:+: c :: s := by
        intro m member
        rcases List.mem_cons.mp member with rfl | member
        · exact front.isInfix.trans (List.infix_cons (List.infix_refl s))
        · exact (parts m member).trans (List.infix_cons (List.infix_refl s))
      rw [List.splitOn_cons_eq_if_modifyHead, lines]
      split
      · exact ⟨[], l :: ls, rfl, List.nil_prefix, later⟩
      · exact ⟨c :: l, ls, rfl, List.cons_prefix_cons.mpr ⟨rfl, front⟩,
          fun m member => later m (List.mem_cons_of_mem l member)⟩

theorem infix_of_mem_splitOn {sep : Nat} {l s : PyStr} (member : l ∈ s.splitOn sep) : l <:+: s := by
  obtain ⟨first, ls, lines, front, parts⟩ := splitOn_parts sep s
  rw [lines] at member
  rcases List.mem_cons.mp member with rfl | member
  · exact front.isInfix
  · exact parts l member

/-- White space at the end of a line is not escaped. -/
theorem rstrip_esc (s : PyStr) : rstrip (esc s) = esc (rstrip s) := by
  have last : ∀ c, isSpace c = false → ∃ u x, escChar c = u ++ [x] ∧ isSpace x = false := by
    intro c ink
    rcases escChar_cases c with ⟨_, e, entity, rfl, written⟩ | ⟨_, written⟩
    · have each : ∀ e ∈ entities, e.2 = e.2.dropLast ++ [59] := by decide
      exact ⟨e.2.dropLast, 59, by rw [written]; exact each e entity, by decide⟩
    · exact ⟨[], c, written, ink⟩
  induction s using List.reverseRecOn with
  | nil => rfl
  | append_singleton s c ih =>
      rw [rstrip, rstrip, List.rdropWhile_concat]
      rw [esc_append, esc_single]
      by_cases space : isSpace c = true
      · rw [if_pos space, escChar_of_space space, List.rdropWhile_concat, if_pos space]
        exact ih
      · rw [if_neg space, esc_append, esc_single]
        obtain ⟨u, x, written, ink⟩ := last c (Bool.eq_false_iff.mpr space)
        rw [written, ← List.append_assoc, List.rdropWhile_concat,
          if_neg (by rw [ink]; exact Bool.false_ne_true)]

/-! ### Entities decoded -/

/-- The entity that a text begins with. -/
def entityAt (s : PyStr) : Option (Nat × PyStr) := entities.find? fun e => startsWith e.2 s

/-- A text with its entities decoded; the first argument counts the characters of the last entity that are
still to be passed. -/
def decodeFrom : Nat → PyStr → PyStr
  | _, [] => []
  | inside + 1, _ :: s => decodeFrom inside s
  | 0, c :: s =>
      match entityAt (c :: s) with
      | some e => e.1 :: decodeFrom (e.2.length - 1) s
      | none => c :: decodeFrom 0 s

/-- The entities of a text decoded once. What `_esc` writes has no other entities than its own. -/
def decode (s : PyStr) : PyStr := decodeFrom 0 s

theorem decodeFrom_append (u s : PyStr) : decodeFrom u.length (u ++ s) = decode s := by
  induction u with
  | nil => rfl
  | cons c u ih =>
      rw [List.length_cons, List.cons_append, decodeFrom]
      exact ih

/-- An entity is read where it stands, and no other one begins there. -/
theorem entityAt_entity (s : PyStr) : ∀ e ∈ entities, entityAt (e.2 ++ s) = some e ∧ e.2 ≠ [] := by
  intro e member
  simp only [entities, List.mem_cons, List.not_mem_nil, or_false] at member
  rcases member with rfl | rfl | rfl | rfl | rfl <;> exact ⟨rfl, List.cons_ne_nil _ _⟩

theorem entityAt_other {c : Nat} (other : c ≠ 38) (s : PyStr) : entityAt (c :: s) = none := by
  have heads : ∀ e ∈ entities, e.2 = 38 :: e.2.tail := by decide
  rw [entityAt, List.find?_eq_none]
  intro e member starts
  rw [startsWith, heads e member, List.isPrefixOf_cons_cons, Bool.and_eq_true, beq_iff_eq] at starts
  exact other starts.1.symm

theorem decode_escChar (c : Nat) (s : PyStr) : decode (escChar c ++ s) = c :: decode s := by
  rcases escChar_cases c with ⟨_, e, entity, rfl, written⟩ | ⟨plain, written⟩
  · obtain ⟨found, some_⟩ := entityAt_entity s e entity
    obtain ⟨x, tail, shape⟩ := List.exists_cons_of_ne_nil some_
    rw [written]
    rw [shape, List.cons_append] at found ⊢
    rw [decode, decodeFrom, found]
    simp only [shape, List.length_cons, Nat.add_sub_cancel]
    rw [decodeFrom_append]
  · have other : c ≠ 38 := by
      rintro rfl
      cases plain
    rw [written, List.singleton_append, decode, decodeFrom, entityAt_other other]
    rfl

/-- Decoding gives back what was escaped. -/
theorem decode_esc (s : PyStr) : decode (esc s) = s := by
  induction s with
  | nil => rfl
  | cons c s ih => rw [esc_cons, decode_escChar, ih]

/-! ### Contents -/

section
variable [PyRuntime]

omit [PyRuntime] in
/-- The end of the patterns of a line: white space, and what is behind it as a group. -/
theorem content_tail {n : Nat} {c d : Cursor}
    (reached : d ∈ run (seqs [plus space, group n (.many dot), stop]) c) :
    ∃ w t after, c.after = w ++ (t ++ after) ∧ w ≠ [] ∧ (∀ x ∈ w, isSpace x = true) ∧
      (after = [] ∨ after = [10]) ∧ d.groups = (n, t) :: c.groups := by
  rw [mem_run_seqs] at reached
  obtain ⟨e, spaces, reached⟩ := reached
  rw [mem_run_seqs] at reached
  obtain ⟨f, content, ended⟩ := reached
  obtain ⟨w, ⟨some_, blank⟩, split, moved⟩ := (spells_plus_set isSpace c e).mp spaces
  obtain ⟨t, _, split', moved'⟩ := (mem_run_group (spells_many_set _) n).mp content
  obtain ⟨atEnd, rfl⟩ := mem_run_test.mp ended
  rw [Bool.or_eq_true, beq_iff_eq, beq_iff_eq] at atEnd
  refine ⟨w, t, d.after, by rw [split, split'], some_, blank, atEnd, ?_⟩
  rw [moved', moved]
  rfl

theorem bullet_groups {line : PyStr} {d : Cursor} (reached : d ∈ run bullet ⟨none, line, []⟩) :
    ∃ front w t after, line = front ++ (w ++ (t ++ after)) ∧ w ≠ [] ∧ (∀ x ∈ w, isSpace x = true) ∧
      (after = [] ∨ after = [10]) ∧ d.groups = [(1, t)] := by
  rw [bullet, mem_run_seqs] at reached
  obtain ⟨a, started, reached⟩ := reached
  obtain ⟨_, rfl⟩ := mem_run_test.mp started
  rw [mem_run_seqs] at reached
  obtain ⟨b, indented, reached⟩ := reached
  rw [mem_run_seqs] at reached
  obtain ⟨c, marked, reached⟩ := reached
  obtain ⟨u, _, split, moved⟩ := (spells_many_set _ _ _).mp indented
  have mark := (spells_set fun c => c == '-'.toNat || c == '*'.toNat || c == 0x2022).alt
    ((spells_plus_set isDecimal).seq (spells_lit ".".toList))
  obtain ⟨v, _, split', moved'⟩ := (mark b c).mp marked
  obtain ⟨w, t, after, split'', some_, blank, ended, groups⟩ := content_tail reached
  refine ⟨u ++ v, w, t, after, ?_, some_, blank, ended, ?_⟩
  · rw [List.append_assoc, ← split'', ← split', ← split]
  · rw [groups, moved', moved]
    rfl

omit [PyRuntime] in
theorem heading_groups {line : PyStr} {d : Cursor} (reached : d ∈ run heading ⟨none, line, []⟩) :
    ∃ front w t after, line = front ++ (w ++ (t ++ after)) ∧ w ≠ [] ∧ (∀ x ∈ w, isSpace x = true) ∧
      (after = [] ∨ after = [10]) ∧ d.groups = [(2, t), (1, front)] ∧ front ≠ [] := by
  rw [heading, mem_run_seqs] at reached
  obtain ⟨a, started, reached⟩ := reached
  obtain ⟨_, rfl⟩ := mem_run_test.mp started
  rw [mem_run_seqs] at reached
  obtain ⟨b, hashes, reached⟩ := reached
  obtain ⟨M, more⟩ := (spells_lit "#".toList).upTo 5
  obtain ⟨g, ⟨x, u, hash, _, shape⟩, split, moved⟩ :=
    (mem_run_group ((spells_lit "#".toList).seq more) 1).mp hashes
  obtain ⟨w, t, after, split', some_, blank, ended, groups⟩ := content_tail reached
  refine ⟨g, w, t, after, ?_, some_, blank, ended, ?_, ?_⟩
  · rw [← split', ← split]
  · rw [groups, moved]
  · rw [shape, hash]
    exact List.append_ne_nil_of_left_ne_nil (by decide) u

omit [PyRuntime] in
/-- What is behind white space in an escaped line is escaped. -/
theorem escaped_behind {l front w t after : PyStr} (split : esc l = front ++ (w ++ (t ++ after)))
    (some_ : w ≠ []) (blank : ∀ x ∈ w, isSpace x = true) (ended : after = [] ∨ after = [10]) :
    ∃ c, c <:+: l ∧ t = esc c := by
  obtain ⟨init, x, rfl⟩ := (List.eq_nil_or_concat' w).resolve_left some_
  have space := blank x (by simp)
  rw [List.append_assoc, List.singleton_append, ← List.append_assoc] at split
  obtain ⟨p, q, rfl, _, rest⟩ := esc_split (bare_of_space space) split
  have inside : q <:+: p ++ x :: q := (List.suffix_append_of_suffix (List.suffix_cons x q)).isInfix
  rcases ended with rfl | rfl
  · rw [List.append_nil] at rest
    exact ⟨q, inside, rest⟩
  · obtain ⟨p', q', rfl, same, _⟩ := esc_split (c := 10) (by decide) rest.symm
    exact ⟨p', (List.prefix_append p' _).isInfix.trans inside, same⟩

omit [PyRuntime] in
theorem matchStart_eq_some {r : Regex} {s : PyStr} {m : Match} (found : matchStart r s = some m) :
    ∃ d, d ∈ run r ⟨none, s, []⟩ ∧ m.groups = d.groups := by
  obtain ⟨d, head, rfl⟩ := Option.map_eq_some_iff.mp found
  exact ⟨d, List.mem_of_head? head, rfl⟩

/-- What a line is: its content is the escaped form of a part of it, and a heading is of level three to
six. -/
inductive IsBlock (l : PyStr) : Block → Prop
  | item {c : PyStr} (part : c <:+: l) : IsBlock l (.item (esc c))
  | heading {c : PyStr} {level : Nat} (part : c <:+: l) (low : 3 ≤ level) (high : level ≤ 6) :
      IsBlock l (.heading level (esc c))
  | paragraph {c : PyStr} (part : c <:+: l) : IsBlock l (.paragraph (esc c))
  | blank : IsBlock l .blank

theorem blockOf_spec (l : PyStr) : IsBlock l (blockOf (esc l)) := by
  have inLine : rstrip l <:+: l := (List.rdropWhile_prefix isSpace l).isInfix
  rw [blockOf, rstrip_esc]
  cases item : matchStart bullet (esc (rstrip l)) with
  | some b =>
      obtain ⟨d, reached, groups⟩ := matchStart_eq_some item
      obtain ⟨front, w, t, after, split, some_, blank, ended, groups'⟩ := bullet_groups reached
      obtain ⟨c, part, rfl⟩ := escaped_behind split some_ blank ended
      have content : (b.group 1).getD [] = esc c := by
        rw [Match.group, groups, groups']
        rfl
      simp only [content]
      exact .item (part.trans inLine)
  | none =>
      cases head : matchStart heading (esc (rstrip l)) with
      | some h =>
          obtain ⟨d, reached, groups⟩ := matchStart_eq_some head
          obtain ⟨front, w, t, after, split, some_, blank, ended, groups', nonempty⟩ := heading_groups reached
          obtain ⟨c, part, rfl⟩ := escaped_behind split some_ blank ended
          have content : (h.group 2).getD [] = esc c := by
            rw [Match.group, groups, groups']
            rfl
          have hashes : (h.group 1).getD [] = front := by
            rw [Match.group, groups, groups']
            rfl
          have long := List.length_pos_iff.mpr nonempty
          simp only [content, hashes]
          exact .heading (part.trans inLine) (by omega) (by omega)
      | none =>
          simp only
          split
          · exact .blank
          · exact .paragraph inLine

theorem mem_blocks {text : PyStr} {b : Block} (member : b ∈ blocks text) :
    ∃ l, l <:+: text ∧ IsBlock l b := by
  rw [blocks] at member
  split at member
  · cases member
  · rw [splitAt, show ord '\n' = 10 from rfl, @splitOn_esc 10 (by decide) (by decide), List.mem_map]
      at member
    obtain ⟨raw, escaped, rfl⟩ := member
    obtain ⟨l, line, rfl⟩ := List.mem_map.mp escaped
    exact ⟨l, infix_of_mem_splitOn line, blockOf_spec l⟩

/-- All that the inline markdown is written of is escaped text of the author. -/
theorem inlined_escaped {text e : PyStr} (member : e ∈ inlined text) : ∃ c, c <:+: text ∧ e = esc c := by
  obtain ⟨b, inBlocks, content⟩ := List.mem_filterMap.mp member
  obtain ⟨l, part, block⟩ := mem_blocks inBlocks
  cases block with
  | item inside =>
      cases content
      exact ⟨_, inside.trans part, rfl⟩
  | heading inside low high =>
      cases content
      exact ⟨_, inside.trans part, rfl⟩
  | paragraph inside =>
      cases content
      exact ⟨_, inside.trans part, rfl⟩
  | blank => cases content

end

end GhostPour.Shares
