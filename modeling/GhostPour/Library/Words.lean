/-
Module: GhostPour.Library.Words
Layer: Library
Purpose: The words of a text, as `str.split` without a separator gives them: a white space cuts, what is
  stripped has no words, and a text that is not blank has one. Normalised texts, the words in lower case
  with a space between each two, are cut by that space.
Trusted boundary: none
Main exports: words_append_space, words_strip, words_ink_cons, words_ne_nil, spaced, spaced_append,
  words_join, lower_spaced
-/
import GhostPour.Library.PyRuntime

namespace GhostPour

/-! ### Words -/

@[simp] theorem words_nil : words [] = [] := rfl

/-- A white space cuts a text between words. -/
theorem words_append_space {c : Nat} (space : isSpace c = true) (a b : PyStr) :
    words (a ++ c :: b) = words a ++ words b := by
  unfold words
  rw [List.splitOnP_append_cons a b space, List.filter_append]

theorem words_space_cons {c : Nat} (space : isSpace c = true) (s : PyStr) : words (c :: s) = words s :=
  words_append_space space [] s

theorem words_of_spaces {s : PyStr} (spaces : ∀ c ∈ s, isSpace c = true) : words s = [] := by
  induction s with
  | nil => rfl
  | cons c s ih =>
      rw [List.forall_mem_cons] at spaces
      rw [words_space_cons spaces.1, ih spaces.2]

theorem words_spaces_append {front : PyStr} (spaces : ∀ c ∈ front, isSpace c = true) (s : PyStr) :
    words (front ++ s) = words s := by
  induction front with
  | nil => rfl
  | cons c front ih =>
      rw [List.forall_mem_cons] at spaces
      rw [List.cons_append, words_space_cons spaces.1, ih spaces.2]

theorem words_append_spaces {back : PyStr} (spaces : ∀ c ∈ back, isSpace c = true) (s : PyStr) :
    words (s ++ back) = words s := by
  cases back with
  | nil => rw [List.append_nil]
  | cons c back =>
      rw [List.forall_mem_cons] at spaces
      rw [words_append_space spaces.1, words_of_spaces spaces.2, List.append_nil]

/-- What is stripped has no words. -/
theorem words_strip (s : PyStr) : words (strip s) = words s := by
  have front := words_spaces_append (fun c member => List.mem_takeWhile_imp (p := isSpace) (l := s) member)
    (s.dropWhile isSpace)
  have back := words_append_spaces
    (fun c member => List.mem_rtakeWhile_imp (p := isSpace) (l := s.dropWhile isSpace) member)
    ((s.dropWhile isSpace).rdropWhile isSpace)
  rw [List.takeWhile_append_dropWhile] at front
  rw [List.rdropWhile_append_rtakeWhile] at back
  rw [strip, stripBy, ← back, front]

/-- A text that starts with ink has a first word, and that starts with it. -/
theorem words_ink_cons {c : Nat} (ink : isSpace c = false) (s : PyStr) :
    ∃ w ws, words (c :: s) = (c :: w) :: ws := by
  obtain ⟨w, ws, split⟩ := List.exists_cons_of_ne_nil (List.splitOnP_ne_nil isSpace s)
  refine ⟨w, ws.filter (· ≠ []), ?_⟩
  rw [words, List.splitOnP_cons_eq_if_modifyHead, if_neg (by simp [ink]), split, List.modifyHead_cons,
    List.filter_cons_of_pos (by simp)]

/-- A text without words is blank. -/
theorem spaces_of_words {s : PyStr} (none_ : words s = []) : ∀ c ∈ s, isSpace c = true := by
  induction s with
  | nil => exact fun c member => absurd member List.not_mem_nil
  | cons c s ih =>
      by_cases space : isSpace c = true
      · rw [words_space_cons space] at none_
        exact List.forall_mem_cons.mpr ⟨space, ih none_⟩
      · obtain ⟨w, ws, first⟩ := words_ink_cons (Bool.eq_false_of_not_eq_true space) s
        rw [first] at none_
        cases none_

theorem words_ne_nil {s : PyStr} (ink : strip s ≠ []) : words s ≠ [] := by
  intro none_
  apply ink
  have blank : s.dropWhile isSpace = [] := List.dropWhile_eq_nil_iff.mpr (spaces_of_words none_)
  rw [strip, stripBy, blank]
  rfl

/-! ### Words with a space between each two -/

/-- The words as one text. -/
def spaced (ws : List PyStr) : PyStr := join (py " ") ws

theorem spaced_singleton (w : PyStr) : spaced [w] = w := by
  rw [spaced, join, List.intercalate_singleton]

theorem spaced_cons (w : PyStr) {ws : List PyStr} (more : ws ≠ []) :
    spaced (w :: ws) = w ++ 32 :: spaced ws := by
  rw [spaced, join, List.intercalate_cons_of_ne_nil more]
  exact List.append_assoc _ _ _

theorem spaced_append {front back : List PyStr} (some_ : front ≠ []) (more : back ≠ []) :
    spaced (front ++ back) = spaced front ++ 32 :: spaced back := by
  induction front with
  | nil => exact absurd rfl some_
  | cons w front ih =>
      cases front with
      | nil =>
          rw [List.singleton_append, spaced_cons w more, spaced_singleton]
      | cons v front =>
          rw [List.cons_append, spaced_cons w (by simp), ih (by simp), spaced_cons w (by simp),
            List.append_assoc]
          rfl

/-- The words of a text put together are the words of its parts. -/
theorem words_join (parts : List PyStr) : words (join (py " ") parts) = parts.flatMap words := by
  induction parts with
  | nil => rfl
  | cons part parts ih =>
      cases parts with
      | nil => rw [← spaced, spaced_singleton, List.flatMap_singleton]
      | cons next parts =>
          have cut := spaced_cons part (List.cons_ne_nil next parts)
          rw [spaced] at cut
          rw [cut, words_append_space (by decide), spaced, ih, ← List.flatMap_cons]

/-- No word's letters depend on another word. -/
theorem lower_spaced [PyRuntime] (ws : List PyStr) : lower (spaced ws) = spaced (ws.map lower) := by
  induction ws with
  | nil => exact PyRuntime.lower_ascii [] fun c member => absurd member List.not_mem_nil
  | cons w ws ih =>
      cases ws with
      | nil => rw [spaced_singleton, List.map_singleton, spaced_singleton]
      | cons v ws =>
          have more : (v :: ws).map lower ≠ [] := List.cons_ne_nil (lower v) (ws.map lower)
          rw [spaced_cons w (List.cons_ne_nil v ws), PyRuntime.lower_break _ _ _ (.inl (by decide)), ih,
            List.map_cons (a := w), spaced_cons (lower w) more]

end GhostPour
