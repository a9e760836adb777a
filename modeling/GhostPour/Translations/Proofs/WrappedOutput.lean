/-
Module: GhostPour.Translations.Proofs.WrappedOutput
Layer: Proofs
Purpose: Which prose around a model's array `parse_model_output` strips. The slice it reads goes from
  the first opening bracket of the whole reply to the last closing one, so a bracket outside the array
  costs it, but where the brackets around it happen to make a larger array with the same ids and texts.
Trusted boundary: none
Main exports: Rendition, opened, closed, Enclosed, slice_wrapped, parse_wrapped_iff, HoldsObjects
-/
import GhostPour.Library.JsonText
import GhostPour.Library.RegexSearch
import GhostPour.Translations.TranslationsCache

namespace GhostPour.Translations

open Regex

section
variable [PyRuntime]

/-! ### Arrays of segments -/

/-- The segments of an array of objects, each with a text for `id` and for `text`. -/
def segmentsOf : Json → Option (List Segment)
  | .arr items => items.mapM cleaned
  | _ => none

omit [PyRuntime] in
theorem segmentsOf_eq_some {j : Json} {segments : List Segment} (some_ : segmentsOf j = some segments) :
    ∃ items, j = .arr items ∧ items.mapM cleaned = some segments := by
  cases j with
  | arr items => exact ⟨items, rfl, some_⟩
  | _ => cases some_

/-- A text that is a JSON array of such objects. -/
def ReadsAs (text : PyStr) (segments : List Segment) : Prop :=
  (loads text).bind segmentsOf = some segments

instance (text : PyStr) (segments : List Segment) : Decidable (ReadsAs text segments) :=
  inferInstanceAs (Decidable (_ = _))

theorem ReadsAs.array {text : PyStr} {segments : List Segment} (reads : ReadsAs text segments) :
    ∃ items, loads text = some (.arr items) ∧ items.mapM cleaned = some segments := by
  obtain ⟨j, read, some_⟩ := Option.bind_eq_some_iff.mp reads
  obtain ⟨items, rfl, clean⟩ := segmentsOf_eq_some some_
  exact ⟨items, read, clean⟩

/-- A valid JSON array of such objects, from bracket to bracket. -/
structure Rendition where
  inner : PyStr
  segments : List Segment
  reads : ReadsAs (lbracket :: (inner ++ [rbracket])) segments

/-- Its text. -/
def Rendition.text (a : Rendition) : PyStr := lbracket :: (a.inner ++ [rbracket])

/-- The ids it carries. -/
def Rendition.ids (a : Rendition) : List PyStr := a.segments.map Segment.id

/-- What is returned is what the slice between the brackets reads as, its ids being the expected ones. -/
theorem parse_eq_some_iff {text slice : PyStr} {expectedIds : List PyStr} {out : List Segment}
    (located : (search bracketed text).map Match.text = some slice) :
    parseModelOutput text expectedIds = some out ↔
      ReadsAs slice out ∧ out.map Segment.id = expectedIds := by
  obtain ⟨m, found, rfl⟩ := Option.map_eq_some_iff.mp located
  rw [parseModelOutput, found, Option.bind_some]
  constructor
  · intro parsed
    split at parsed
    · next items read =>
      obtain ⟨clean, same⟩ := Option.filter_eq_some_iff.mp parsed
      refine ⟨?_, of_decide_eq_true same⟩
      rw [ReadsAs, read]
      exact clean
    · cases parsed
  · rintro ⟨reads, same⟩
    obtain ⟨items, read, clean⟩ := reads.array
    rw [read]
    exact Option.filter_eq_some_iff.mpr ⟨clean, decide_eq_true same⟩

/-- Whatever is returned carries exactly the expected ids, in order. -/
theorem ids_of_parse {text : PyStr} {expectedIds : List PyStr} {out : List Segment}
    (parsed : parseModelOutput text expectedIds = some out) : out.map Segment.id = expectedIds := by
  cases located : (search bracketed text).map Match.text with
  | none =>
      rw [Option.map_eq_none_iff] at located
      rw [parseModelOutput, located] at parsed
      cases parsed
  | some slice => exact ((parse_eq_some_iff located).mp parsed).2

/-! ### The slice -/

/-- What stands before the array from its first opening bracket on. -/
def opened (before : PyStr) : PyStr := before.dropWhile (· != lbracket)

/-- What stands after the array up to its last closing bracket. -/
def closed (after : PyStr) : PyStr := (after.reverse.dropWhile (· != rbracket)).reverse

omit [PyRuntime] in
theorem from_first (c : Nat) (t : PyStr) : (c ∉ t ∧ t.dropWhile (· != c) = []) ∨
    (c ∈ t ∧ ∃ rest, t.dropWhile (· != c) = c :: rest) := by
  induction t with
  | nil => exact .inl ⟨List.not_mem_nil, rfl⟩
  | cons x t ih =>
      by_cases same : x = c
      · subst same
        exact .inr ⟨List.mem_cons_self, t, List.dropWhile_cons_of_neg (by simp)⟩
      · rw [List.dropWhile_cons_of_pos (by simpa using same), List.mem_cons]
        simpa [Ne.symm same] using ih

omit [PyRuntime] in
theorem opened_cases (before : PyStr) : (lbracket ∉ before ∧ opened before = []) ∨
    (lbracket ∈ before ∧ ∃ rest, opened before = lbracket :: rest) :=
  from_first lbracket before

omit [PyRuntime] in
theorem closed_cases (after : PyStr) : (rbracket ∉ after ∧ closed after = []) ∨
    (rbracket ∈ after ∧ ∃ rest, closed after = rest ++ [rbracket]) := by
  rw [closed]
  rcases from_first rbracket after.reverse with ⟨absent, none_⟩ | ⟨present, rest, some_⟩
  · exact .inl ⟨mt List.mem_reverse.mpr absent, by rw [none_]; rfl⟩
  · exact .inr ⟨List.mem_reverse.mp present, rest.reverse, by rw [some_, List.reverse_cons]⟩

/-- The slice of a wrapped array. -/
def sliceOf (a : Rendition) (before after : PyStr) : PyStr := opened before ++ (a.text ++ closed after)

theorem slice_wrapped (a : Rendition) (before after : PyStr) :
    (search bracketed (before ++ (a.text ++ after))).map Match.text = some (sliceOf a before after) := by
  -- the slice starts and ends with a bracket, whichever text they are from
  have opens : ∃ u, opened before ++ (lbracket :: a.inner) = lbracket :: u := by
    rcases opened_cases before with ⟨_, empty⟩ | ⟨_, rest, shape⟩
    · exact ⟨a.inner, by rw [empty, List.nil_append]⟩
    · exact ⟨rest ++ (lbracket :: a.inner), by rw [shape, List.cons_append]⟩
  have closes : ∃ v, rbracket :: closed after = v ++ [rbracket] := by
    rcases closed_cases after with ⟨_, empty⟩ | ⟨_, rest, shape⟩
    · exact ⟨[], by rw [empty, List.nil_append]⟩
    · exact ⟨rbracket :: rest, by rw [shape, List.cons_append]⟩
  obtain ⟨u, opens⟩ := opens
  obtain ⟨v, closes⟩ := closes
  have slice : sliceOf a before after = lbracket :: (u ++ v ++ [rbracket]) := by
    calc sliceOf a before after
      _ = opened before ++ (lbracket :: a.inner) ++ (rbracket :: closed after) := by
          simp [sliceOf, Rendition.text]
      _ = lbracket :: (u ++ v ++ [rbracket]) := by rw [opens, closes]; simp
  -- no bracket of its kind stands outside it
  have front : before = before.takeWhile (· != lbracket) ++ opened before :=
    (List.takeWhile_append_dropWhile).symm
  have back : after = closed after ++ (after.reverse.takeWhile (· != rbracket)).reverse := by
    rw [closed, ← List.reverse_append, List.takeWhile_append_dropWhile, List.reverse_reverse]
  have first : lbracket ∉ before.takeWhile (· != lbracket) := fun member =>
    absurd (List.mem_takeWhile_imp member) (by simp)
  have last : rbracket ∉ (after.reverse.takeWhile (· != rbracket)).reverse := fun member =>
    absurd (List.mem_takeWhile_imp (List.mem_reverse.mp member)) (by simp)
  have whole : before ++ (a.text ++ after) = before.takeWhile (· != lbracket) ++ (lbracket ::
      (u ++ v ++ rbracket :: (after.reverse.takeWhile (· != rbracket)).reverse)) := by
    calc before ++ (a.text ++ after)
      _ = before.takeWhile (· != lbracket) ++ (sliceOf a before after ++
            (after.reverse.takeWhile (· != rbracket)).reverse) := by
          rw [sliceOf]
          nth_rewrite 1 [front, back]
          simp only [List.append_assoc]
      _ = _ := by rw [slice]; simp
  rw [whole, slice]
  exact search_between first last

/-! ### Which wrapping is stripped -/

/-- The wrapping makes a larger array around the array, whose own objects have its ids and texts. -/
def Enclosed (a : Rendition) (before after : PyStr) : Prop :=
  lbracket ∈ before ∧ ReadsAs (sliceOf a before after) a.segments

/-- An array is found in prose if and only if no opening bracket stands before it and no closing one
after it, or else the prose encloses it in an array with the same ids and texts. Whatever is returned
carries exactly the expected ids. -/
theorem parse_wrapped_iff (a : Rendition) (before after : PyStr) :
    (∀ text expectedIds out, parseModelOutput text expectedIds = some out →
      out.map Segment.id = expectedIds) ∧
    (parseModelOutput (before ++ (a.text ++ after)) a.ids = some a.segments ↔
      (lbracket ∉ before ∧ rbracket ∉ after) ∨ Enclosed a before after) := by
  refine ⟨fun text expectedIds out => ids_of_parse, ?_⟩
  rw [parse_eq_some_iff (slice_wrapped a before after), and_iff_left (show a.segments.map Segment.id = a.ids from rfl)]
  rcases opened_cases before with ⟨absent, none_⟩ | ⟨present, _⟩
  · rcases closed_cases after with ⟨absent', none_'⟩ | ⟨present', rest, some_⟩
    · -- the array alone
      have alone : sliceOf a before after = a.text := by rw [sliceOf, none_, none_', List.append_nil]; rfl
      rw [alone]
      exact ⟨fun _ => .inl ⟨absent, absent'⟩, fun _ => a.reads⟩
    · -- the array, and a bracket after its end
      constructor
      · intro reads
        obtain ⟨items, read, _⟩ := reads.array
        obtain ⟨inner, array, _⟩ := a.reads.array
        have more : (loads (a.text ++ closed after)).isSome = true := by
          rw [sliceOf, none_, List.nil_append] at read
          rw [read]
          rfl
        have space := space_of_loads_append array more rbracket (by rw [some_]; simp)
        cases space
      · rintro (⟨_, absent'⟩ | ⟨present, _⟩)
        · exact absurd present' absent'
        · exact absurd present absent
  · exact ⟨fun reads => .inr ⟨present, reads⟩, fun clean => clean.elim
      (fun neither => absurd present neither.1) And.right⟩

/-- Some part of a text is a JSON array of objects. -/
def HoldsObjects (t : PyStr) : Prop :=
  ∃ a u b items, t = a ++ (u ++ b) ∧ loads u = some (.arr items) ∧ ∀ v ∈ items, ∃ o, v = .obj o

/-- Whether a text is an array of objects. -/
def objectsOnly (u : PyStr) : Bool :=
  match loads u with
  | some (.arr items) => items.all fun v => match v with
      | .obj _ => true
      | _ => false
  | _ => false

theorem objectsOnly_of_reads {u : PyStr} {items : List Json} (read : loads u = some (.arr items))
    (objects : ∀ v ∈ items, ∃ o, v = .obj o) : objectsOnly u = true := by
  rw [objectsOnly, read]
  apply List.all_eq_true.mpr
  intro v member
  obtain ⟨o, rfl⟩ := objects v member
  rfl

/-- The parts of a text are its prefixes' suffixes. -/
theorem not_holdsObjects {t : PyStr}
    (none_ : ∀ i ≤ t.length, ∀ j ≤ t.length, objectsOnly ((t.drop i).take j) = false) : ¬HoldsObjects t := by
  rintro ⟨a, u, b, items, rfl, read, objects⟩
  have part : ((a ++ (u ++ b)).drop a.length).take u.length = u := by
    rw [List.drop_left, List.take_left]
  have none_ := none_ a.length (by simp) u.length (by simp; omega)
  rw [part, objectsOnly_of_reads read objects] at none_
  cases none_

end

/-- An array of one segment, as a model writes it. -/
def lettered : letI := PyRuntime.ascii; Rendition :=
  letI := PyRuntime.ascii
  { inner := lbrace :: (py "\"id\":\"a\",\"text\":\"b\"" ++ [rbrace])
    segments := [⟨py "a", py "b"⟩]
    reads := by decide +kernel }

/-- Prose without brackets is stripped. -/
theorem prose_stripped : letI := PyRuntime.ascii
    parseModelOutput (py "Here it is:\n" ++ (lettered.text ++ py "\nDone.")) lettered.ids =
      some lettered.segments := by
  let _ := PyRuntime.ascii
  exact (parse_wrapped_iff lettered (py "Here it is:\n") (py "\nDone.")).2.mpr
    (.inl ⟨by decide +kernel, by decide +kernel⟩)

-- prose can enclose the array
example : letI := PyRuntime.ascii
    Enclosed lettered (lbracket :: lbrace :: py "\"id\":\"a\",\"text\":\"b\",\"of\":")
      [rbrace, rbracket] := by
  let _ := PyRuntime.ascii
  exact ⟨by decide, by decide +kernel⟩

/-- A bracketed number before the array costs it. -/
theorem remark_rejected : letI := PyRuntime.ascii
    ¬HoldsObjects (py "[1] ") ∧ ¬HoldsObjects [] ∧
      parseModelOutput (py "[1] " ++ (lettered.text ++ [])) lettered.ids = none := by
  let _ := PyRuntime.ascii
  refine ⟨not_holdsObjects (by decide +kernel), not_holdsObjects (by decide +kernel), ?_⟩
  decide +kernel

end GhostPour.Translations
