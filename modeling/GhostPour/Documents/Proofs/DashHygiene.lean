/-
Module: GhostPour.Documents.Proofs.DashHygiene
Layer: Proofs
Purpose: The dash hygiene leaves no glyph, so a second run changes nothing, and it only takes glyphs and
  blanks away: read without these and the separators it puts in, a text stays the text it was. Every
  pass replaces a run of such characters by a run of such characters.
Trusted boundary: none
Main exports: lettersOf, Harmless, normalizeDashes_complete_idempotent_faithful
-/
import GhostPour.Documents.TextHygiene
import GhostPour.Library.RegexRewrite
import GhostPour.Library.RegexSearch
import GhostPour.Library.Substitution

namespace GhostPour

namespace Documents.TextHygiene

open Regex

/-! ### What is compared -/

/-- A glyph the hygiene targets. -/
def isGlyph (c : Nat) : Bool := isDash c || isArrow c

/-- A character that a pass may take away. -/
def isDropped (c : Nat) : Bool := isGlyph c || isBlank c

/-- A glyph, a blank, a comma or a hyphen. -/
def isSeparator (c : Nat) : Bool := isDropped c || c == comma || c == 45

/-- A text without the word "to", glyphs, blanks, commas and hyphens. -/
def lettersOf (text : PyStr) : PyStr := (replaceAll (py "to") [] text).filter (!isSeparator ·)

theorem lettersOf_break {c : Nat} (separator : isSeparator c = true) (a b : PyStr) :
    lettersOf (a ++ c :: b) = lettersOf a ++ lettersOf b := by
  have other : c ∉ py "to" := by
    intro member
    have letters : ∀ x ∈ py "to", isSeparator x = false := by decide
    rw [letters c member] at separator
    cases separator
  rw [lettersOf, replaceAll_break (by decide) other, List.filter_append,
    List.filter_cons_of_neg (by simp [separator])]
  rfl

/-- A text that parts what is before it from what is behind it. -/
def Separates (t : PyStr) : Prop := ∀ a b, lettersOf (a ++ (t ++ b)) = lettersOf a ++ lettersOf b

theorem separates_of_all {t : PyStr} (nonempty : t ≠ []) (all : ∀ c ∈ t, isSeparator c = true) :
    Separates t := by
  intro a b
  have dropped : ∀ u, (∀ c ∈ u, isSeparator c = true) → lettersOf (u ++ b) = lettersOf b := by
    intro u all
    induction u with
    | nil => rfl
    | cons c u ih =>
        rw [List.forall_mem_cons] at all
        rw [← ih all.2]
        exact lettersOf_break all.1 [] (u ++ b)
  cases t with
  | nil => exact absurd rfl nonempty
  | cons c t =>
      rw [List.forall_mem_cons] at all
      rw [List.cons_append, lettersOf_break all.1, dropped t all.2]

theorem separates_to : Separates (py " to ") := by
  intro a b
  have blank : isSeparator 32 = true := by decide
  have word : lettersOf (py "to" ++ 32 :: b) = lettersOf b := by
    rw [lettersOf, replaceAll_append (by decide)]
    exact lettersOf_break blank [] b
  rw [show a ++ (py " to " ++ b) = a ++ 32 :: (py "to" ++ 32 :: b) from rfl, lettersOf_break blank, word]

/-! ### A pass -/

/-- What a pass puts in parts the text where the match parted it, has no glyph, and has every
character of the match but glyphs and blanks. -/
structure Harmless (r : Regex) (f : Match → PyStr) : Prop where
  parted : ∀ text new, Replaces r f text new → Separates text
  parts : ∀ text new, Replaces r f text new → Separates new
  clean : ∀ text new, Replaces r f text new → ∀ c ∈ new, isGlyph c = false
  hands : ∀ text new, Replaces r f text new → (text.filter (!isDropped ·)).Sublist new

theorem isSeparator_of_isDropped {c : Nat} (dropped : isDropped c = true) : isSeparator c = true := by
  rw [isSeparator, dropped]
  rfl

/-- A pattern that matches glyphs and blanks only hands nothing on. -/
theorem harmless_of_sets {r : Regex} {f : Match → PyStr} (sets : r.SetsIn isDropped)
    (parts : ∀ text new, Replaces r f text new → Separates new)
    (clean : ∀ text new, Replaces r f text new → ∀ c ∈ new, isGlyph c = false) : Harmless r f where
  parted text new replaces := by
    have dropped := replaces.chars sets
    obtain ⟨_, _, _, nonempty, _⟩ := replaces
    exact separates_of_all nonempty fun c member => isSeparator_of_isDropped (dropped c member)
  parts := parts
  clean := clean
  hands text new replaces := by
    have gone : text.filter (!isDropped ·) = [] := by
      rw [List.filter_eq_nil_iff]
      intro c member kept
      rw [replaces.chars sets c member] at kept
      cases kept
    rw [gone]
    exact List.nil_sublist new

/-- A replacement that is the same for every match. -/
theorem harmless_const {r : Regex} {new : PyStr} (sets : r.SetsIn isDropped) (parts : Separates new)
    (clean : ∀ c ∈ new, isGlyph c = false) : Harmless r fun _ => new := by
  apply harmless_of_sets sets
  · rintro text _ ⟨_, _, _, _, _, rfl⟩
    exact parts
  · rintro text _ ⟨_, _, _, _, _, rfl⟩
    exact clean

section
variable {r : Regex} {f : Match → PyStr}

theorem Harmless.letters (harmless : Harmless r f) (text : PyStr) :
    lettersOf (subWith r f text) = lettersOf text := by
  refine (subWith_rewrites r f text).same (fun old new replaces a b => ?_) []
  rw [harmless.parts old new replaces, harmless.parted old new replaces]

theorem Harmless.kept (harmless : Harmless r f) (text : PyStr) :
    (text.filter (!isDropped ·)).Sublist (subWith r f text) :=
  (subWith_rewrites r f text).sublist harmless.hands

/-- A glyph of the result is one of the text where the pattern did not match. -/
theorem Harmless.glyph (harmless : Harmless r f) {text : PyStr} {c : Nat}
    (member : c ∈ subWith r f text) (glyph : isGlyph c = true) :
    c ∈ text ∧ ∃ prev rest, step r prev (c :: rest) = none := by
  rcases (subWith_rewrites r f text).mem c member with ⟨old, new, replaces, inNew⟩ | missed
  · rw [harmless.clean old new replaces c inNew] at glyph
    cases glyph
  · exact missed

/-- What one pass keeps, a later one keeps. -/
theorem Harmless.kept_trans (harmless : Harmless r f) {text before : PyStr}
    (kept : (text.filter (!isDropped ·)).Sublist before) :
    (text.filter (!isDropped ·)).Sublist (subWith r f before) := by
  have again := (kept.filter (!isDropped ·)).trans (harmless.kept before)
  rw [List.filter_filter] at again
  simpa using again

end

/-! ### The passes -/

theorem blanks_sets : blanks.SetsIn isDropped := by
  intro c blank
  rw [isDropped, blank, Bool.or_true]

theorem dash_sets {p : Nat → Bool} (dash : ∀ c, p c = true → isDash c = true) :
    (Regex.set p).SetsIn isDropped := by
  intro c member
  rw [isDropped, isGlyph, dash c member]
  rfl

theorem harmless_arrows : Harmless arrows fun _ => py " to " := by
  refine harmless_const ⟨blanks_sets, fun c arrow => ?_, blanks_sets⟩ separates_to (by decide)
  rw [isDropped, isGlyph, arrow, Bool.or_true]
  rfl

theorem harmless_range [PyRuntime] : Harmless range fun _ => py "-" := by
  refine harmless_const ⟨trivial, blanks_sets, dash_sets fun _ => id, blanks_sets, trivial⟩ ?_ (by decide)
  exact separates_of_all (by decide) (by decide)

theorem harmless_wordRange : Harmless wordRange fun _ => py " to " := by
  refine harmless_const ⟨trivial, dash_sets fun c en => ?_, trivial⟩ separates_to (by decide)
  rw [beq_iff_eq.mp en]
  decide

theorem harmless_aside : Harmless aside fun _ => py ", " := by
  have dashes : (plus (.set isDash)).SetsIn isDropped := ⟨dash_sets fun _ => id, dash_sets fun _ => id⟩
  exact harmless_const ⟨blanks_sets, dashes, blanks_sets⟩ (separates_of_all (by decide) (by decide))
    (by decide)

/-- A bullet captures the blanks in front of it. -/
theorem bullet_group {prev : Option Nat} {text : PyStr} {d : Cursor}
    (reached : d ∈ run bullet ⟨prev, text ++ d.after, []⟩) :
    ∃ t, (∀ c ∈ t, isBlank c = true) ∧ d.groups = [(1, t)] := by
  rw [bullet, mem_run_seqs] at reached
  obtain ⟨a, atStart, reached⟩ := reached
  rw [mem_run_seqs] at reached
  obtain ⟨b, captured, reached⟩ := reached
  rw [mem_run_seqs] at reached
  obtain ⟨c, dashed, reached⟩ := reached
  rw [mem_run_seqs] at reached
  obtain ⟨e, passed, ended⟩ := reached
  obtain ⟨_, rfl⟩ := mem_run_test.mp atStart
  obtain ⟨t, blank, _, moved₀⟩ := (mem_run_group (spells_many_set isBlank) 1).mp captured
  obtain ⟨_, _, _, moved⟩ := (spells_set isDash _ _).mp dashed
  obtain ⟨_, _, _, moved'⟩ := (spells_many_set isBlank _ _).mp passed
  obtain ⟨_, rfl⟩ := mem_run_test.mp ended
  exact ⟨t, blank, by rw [moved', moved, moved₀]; rfl⟩

theorem harmless_bullet : Harmless bullet fun m => (m.group 1).getD [] ++ py "- " := by
  have shape : ∀ text new, Replaces bullet (fun m => (m.group 1).getD [] ++ py "- ") text new →
      ∃ t, (∀ c ∈ t, isBlank c = true) ∧ new = t ++ py "- " := by
    rintro text _ ⟨prev, d, i, _, reached, rfl⟩
    obtain ⟨t, blank, groups⟩ := bullet_group reached
    refine ⟨t, blank, ?_⟩
    rw [groups]
    rfl
  refine harmless_of_sets
    ⟨trivial, blanks_sets, dash_sets fun _ => id, blanks_sets, trivial⟩ ?_ ?_
  · intro text new replaces
    obtain ⟨t, blank, rfl⟩ := shape text new replaces
    apply separates_of_all (List.append_ne_nil_of_right_ne_nil t (by decide))
    refine List.forall_mem_append.mpr ⟨fun c member => ?_, by decide⟩
    rw [isSeparator, isDropped, blank c member, Bool.or_true]
    rfl
  · intro text new replaces
    obtain ⟨t, blank, rfl⟩ := shape text new replaces
    refine List.forall_mem_append.mpr ⟨fun c member => ?_, by decide⟩
    have either := blank c member
    rw [isBlank, Bool.or_eq_true, beq_iff_eq, beq_iff_eq] at either
    rcases either with rfl | rfl <;> rfl

/-- A comma and the blanks behind it. -/
theorem trailing_text {prev : Option Nat} {text : PyStr} {d : Cursor}
    (reached : d ∈ run trailing ⟨prev, text ++ d.after, []⟩) :
    ∃ t, (∀ c ∈ t, isBlank c = true) ∧ text = comma :: t := by
  rw [trailing, mem_run_seqs] at reached
  obtain ⟨a, atComma, reached⟩ := reached
  rw [mem_run_seqs] at reached
  obtain ⟨b, passed, ended⟩ := reached
  obtain ⟨_, ⟨x, isComma, rfl⟩, split, _⟩ := (spells_set _ _ _).mp atComma
  obtain ⟨t, ⟨_, blank⟩, split', _⟩ := (spells_plus_set isBlank _ _).mp passed
  obtain ⟨_, rfl⟩ := mem_run_test.mp ended
  refine ⟨t, blank, ?_⟩
  rw [split', ← List.append_assoc] at split
  rw [← beq_iff_eq.mp isComma]
  exact List.append_cancel_right split

theorem harmless_trailing : Harmless trailing fun _ => py "," where
  parted text new replaces := by
    obtain ⟨_, _, _, _, reached, _⟩ := replaces
    obtain ⟨t, blank, rfl⟩ := trailing_text reached
    apply separates_of_all (List.cons_ne_nil comma t)
    refine List.forall_mem_cons.mpr ⟨by decide, fun c member => ?_⟩
    rw [isSeparator, isDropped, blank c member, Bool.or_true]
    rfl
  parts text new replaces := by
    obtain ⟨_, _, _, _, _, same⟩ := replaces
    rw [show new = py "," from same]
    exact separates_of_all (by decide) (by decide)
  clean text new replaces := by
    obtain ⟨_, _, _, _, _, same⟩ := replaces
    rw [show new = py "," from same]
    decide
  hands text new replaces := by
    obtain ⟨_, _, _, _, reached, rfl⟩ := replaces
    obtain ⟨t, blank, rfl⟩ := trailing_text reached
    have gone : t.filter (!isDropped ·) = [] := by
      rw [List.filter_eq_nil_iff]
      intro c member kept
      rw [isDropped, blank c member, Bool.or_true] at kept
      cases kept
    rw [List.filter_cons, gone]
    exact List.Sublist.refl _

/-! ### No glyph is left -/

theorem spells_arrows : Spells arrows fun w => ∃ t u, (∀ c ∈ t, isBlank c = true) ∧
    (∃ v y, (∃ x, isArrow x = true ∧ v = [x]) ∧ (∀ c ∈ y, isBlank c = true) ∧ u = v ++ y) ∧
    w = t ++ u :=
  (spells_many_set isBlank).seq ((spells_set isArrow).seq (spells_many_set isBlank))

theorem spells_aside : Spells aside fun w => ∃ t u, (∀ c ∈ t, isBlank c = true) ∧
    (∃ v y, (v ≠ [] ∧ ∀ c ∈ v, isDash c = true) ∧ (∀ c ∈ y, isBlank c = true) ∧ u = v ++ y) ∧
    w = t ++ u :=
  (spells_many_set isBlank).seq ((spells_plus_set isDash).seq (spells_many_set isBlank))

theorem step_arrows {c : Nat} (arrow : isArrow c = true) (prev : Option Nat) (rest : PyStr) :
    step arrows prev (c :: rest) ≠ none := by
  refine spells_arrows.step_ne_none ?_ (t := [c]) ?_ prev rest
  · rintro _ ⟨t, _, _, ⟨_, y, ⟨x, _, rfl⟩, _, rfl⟩, rfl⟩
    exact List.append_ne_nil_of_right_ne_nil t (List.cons_ne_nil x y)
  · exact ⟨[], [c], nofun, ⟨[c], [], ⟨c, arrow, rfl⟩, nofun, rfl⟩, rfl⟩

theorem step_aside {c : Nat} (dash : isDash c = true) (prev : Option Nat) (rest : PyStr) :
    step aside prev (c :: rest) ≠ none := by
  refine spells_aside.step_ne_none ?_ (t := [c]) ?_ prev rest
  · rintro _ ⟨t, _, _, ⟨v, y, ⟨some_, _⟩, _, rfl⟩, rfl⟩
    exact List.append_ne_nil_of_right_ne_nil t (List.append_ne_nil_of_left_ne_nil some_ y)
  · refine ⟨[], [c], nofun, ⟨[c], [], ⟨List.cons_ne_nil c [], ?_⟩, nofun, rfl⟩, rfl⟩
    exact List.forall_mem_singleton.mpr dash

/-- The search for arrows finds one if there is one. -/
theorem found_arrows_iff (text : PyStr) : found arrows text = true ↔ ∃ c ∈ text, isArrow c = true := by
  rw [found_iff]
  constructor
  · rintro ⟨a, b, rfl, here⟩
    obtain ⟨d, reached⟩ := List.exists_mem_of_ne_nil _ here
    obtain ⟨_, ⟨t, _, _, ⟨_, y, ⟨x, arrow, rfl⟩, _, rfl⟩, rfl⟩, split, _⟩ := (spells_arrows _ d).mp reached
    replace split : b = t ++ ([x] ++ y) ++ d.after := split
    exact ⟨x, by simp [split], arrow⟩
  · rintro ⟨c, member, arrow⟩
    obtain ⟨a, b, rfl⟩ := List.append_of_mem member
    refine ⟨a, c :: b, rfl, fun none_ => step_arrows arrow a.getLast? b ?_⟩
    rw [step, none_]
    rfl

theorem normalizeDashes_of_clean [PyRuntime] {text : PyStr} (clean : ∀ c ∈ text, isGlyph c = false) :
    normalizeDashes text = text := by
  have noDash : emEn.any (text.contains ·) = false := by
    rw [List.any_eq_false]
    intro c dash inText
    have glyph := clean c (by simpa using inText)
    rw [isGlyph, isDash, List.contains_iff_mem.mpr dash] at glyph
    cases glyph
  have noArrow : found arrows text = false := by
    rw [← Bool.not_eq_true, found_arrows_iff]
    rintro ⟨c, member, arrow⟩
    have glyph := clean c member
    rw [isGlyph, arrow, Bool.or_true] at glyph
    cases glyph
  rw [normalizeDashes, noDash, noArrow, if_pos (by simp)]

/-- A text that the hygiene leaves alone has no glyph. -/
theorem clean_of_skipped {text : PyStr}
    (skipped : (text.isEmpty || !(emEn.any (text.contains ·) || found arrows text)) = true) :
    ∀ c ∈ text, isGlyph c = false := by
  intro c member
  rw [Bool.or_eq_true, List.isEmpty_iff, Bool.not_eq_true', Bool.or_eq_false_iff] at skipped
  rcases skipped with rfl | ⟨noDash, noArrow⟩
  · cases member
  · rw [isGlyph, Bool.or_eq_false_iff]
    constructor
    · by_contra dash
      rw [Bool.not_eq_false, isDash, List.contains_iff_mem] at dash
      exact List.any_eq_false.mp noDash c dash (by simpa using member)
    · by_contra arrow
      rw [Bool.not_eq_false] at arrow
      rw [(found_arrows_iff text).mpr ⟨c, member, arrow⟩] at noArrow
      cases noArrow

/-! ### The hygiene -/

theorem normalizeDashes_clean [PyRuntime] (text : PyStr) :
    ∀ c ∈ normalizeDashes text, isGlyph c = false := by
  unfold normalizeDashes
  split
  · next skipped => exact clean_of_skipped skipped
  · intro c member
    by_contra glyph
    rw [Bool.not_eq_false] at glyph
    -- back through the passes, each of which leaves a glyph only where it did not match
    obtain ⟨member, _⟩ := harmless_trailing.glyph member glyph
    obtain ⟨member, prev, rest, notAside⟩ := harmless_aside.glyph member glyph
    obtain ⟨member, _⟩ := harmless_bullet.glyph member glyph
    obtain ⟨member, _⟩ := harmless_wordRange.glyph member glyph
    obtain ⟨member, _⟩ := harmless_range.glyph member glyph
    obtain ⟨_, prev', rest', notArrow⟩ := harmless_arrows.glyph member glyph
    rw [isGlyph, Bool.or_eq_true] at glyph
    rcases glyph with dash | arrow
    · exact step_aside dash prev rest notAside
    · exact step_arrows arrow prev' rest' notArrow

theorem lettersOf_normalizeDashes [PyRuntime] (text : PyStr) :
    lettersOf (normalizeDashes text) = lettersOf text := by
  unfold normalizeDashes
  split
  · rfl
  · exact (harmless_trailing.letters _).trans <| (harmless_aside.letters _).trans <|
      (harmless_bullet.letters _).trans <| (harmless_wordRange.letters _).trans <|
      (harmless_range.letters _).trans (harmless_arrows.letters text)

theorem kept_normalizeDashes [PyRuntime] (text : PyStr) :
    (text.filter (!isDropped ·)).Sublist (normalizeDashes text) := by
  unfold normalizeDashes
  split
  · exact List.filter_sublist
  · exact harmless_trailing.kept_trans <| harmless_aside.kept_trans <| harmless_bullet.kept_trans <|
      harmless_wordRange.kept_trans <| harmless_range.kept_trans (harmless_arrows.kept text)

/-- No glyph is left, a second run changes nothing, the text without glyphs, blanks and the separators
put in is the same before and after, and of what is not a glyph or a blank nothing is lost. -/
theorem normalizeDashes_complete_idempotent_faithful [PyRuntime] (text : PyStr) :
    (∀ c ∈ normalizeDashes text, isDash c = false ∧ isArrow c = false) ∧
      normalizeDashes (normalizeDashes text) = normalizeDashes text ∧
      lettersOf (normalizeDashes text) = lettersOf text ∧
      (text.filter (!isDropped ·)).Sublist (normalizeDashes text) := by
  have clean := normalizeDashes_clean text
  refine ⟨fun c member => Bool.or_eq_false_iff.mp (clean c member), normalizeDashes_of_clean clean,
    lettersOf_normalizeDashes text, kept_normalizeDashes text⟩

end Documents.TextHygiene

end GhostPour
