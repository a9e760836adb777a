/-
Module: GhostPour.Shares.Proofs.SegmentCuts
Layer: Proofs
Purpose: The segments of a transcript are cut into the runs of its lines, if they can be. A run that
  completes a line grows through texts that the line starts with, each longer than the last, so the
  first one that equals the line is the only cut there is.
Trusted boundary: none
Main exports: normWords, norm_eq, norm_grows, Speaks, takeRun_spec, takeRun_complete, Grouping,
  IsGrouping, groupLines_iff, alignRendition_indexes, grouping_sound_complete
-/
import GhostPour.Library.Words
import GhostPour.Shares.ShareBundle

namespace GhostPour.Shares

section
variable [PyRuntime]

/-! ### Normalised texts -/

/-- The normalised text of some words. -/
def normWords (ws : List PyStr) : PyStr := spaced (ws.map lower)

/-- Only the words of a text matter to its normalised text. -/
theorem norm_eq (t : PyStr) : norm t = normWords (words t) := lower_spaced (words t)

/-- With more words comes a space, and the rest. -/
theorem norm_grows {front back : List PyStr} (some_ : front ≠ []) (more : back ≠ []) :
    normWords (front ++ back) = normWords front ++ 32 :: normWords back := by
  have some_' : front.map lower ≠ [] := fun none_ => some_ (List.map_eq_nil_iff.mp none_)
  have more' : back.map lower ≠ [] := fun none_ => more (List.map_eq_nil_iff.mp none_)
  rw [normWords, List.map_append, spaced_append some_' more']
  rfl

/-! ### The run of one line -/

/-- The words of some segments. -/
def runWords (run : List (Nat × PyStr)) : List PyStr := run.flatMap fun seg => words seg.2

/-- No segment is blank. -/
def Inked (run : List (Nat × PyStr)) : Prop := ∀ seg ∈ run, words seg.2 ≠ []

/-- Some segments are a line, up to case and white space. -/
def Speaks (line : PyStr) (run : List (Nat × PyStr)) : Prop :=
  run ≠ [] ∧ norm (join (py " ") (run.map Prod.snd)) = norm line

omit [PyRuntime] in
theorem words_texts (run : List (Nat × PyStr)) :
    words (join (py " ") (run.map Prod.snd)) = runWords run := by
  rw [words_join, List.flatMap_map, runWords]

omit [PyRuntime] in
theorem runWords_ne_nil {run : List (Nat × PyStr)} (some_ : run ≠ []) (inked : Inked run) :
    runWords run ≠ [] := by
  obtain ⟨seg, later, rfl⟩ := List.exists_cons_of_ne_nil some_
  rw [runWords, List.flatMap_cons]
  exact fun none_ => inked seg List.mem_cons_self (List.append_eq_nil_iff.mp none_).1

omit [PyRuntime] in
/-- The accumulated text has the words of the segment after its own. -/
theorem words_next (acc text : PyStr) : words (strip (acc ++ (py " " ++ text))) = words acc ++ words text := by
  rw [words_strip]
  exact words_append_space (by decide) acc text

/-- What is taken for a line is a start of the segments, and what is accumulated are its words. -/
theorem takeRun_spec (target : PyStr) (kept : List (Nat × PyStr)) : ∀ acc, ∃ run rest,
    kept = run ++ rest ∧ (takeRun target acc kept).1 = run.map Prod.fst ∧
      (takeRun target acc kept).2.2 = rest ∧
      words (takeRun target acc kept).2.1 = words acc ++ runWords run := by
  induction kept with
  | nil => exact fun acc => ⟨[], [], rfl, rfl, rfl, (List.append_nil _).symm⟩
  | cons seg kept ih =>
      intro acc
      obtain ⟨i, text⟩ := seg
      have grown := words_next acc text
      rw [takeRun]
      simp only
      split
      · split
        · refine ⟨[(i, text)], kept, rfl, rfl, rfl, ?_⟩
          rw [grown, runWords, List.flatMap_singleton]
        · obtain ⟨run, rest, split, indexes, left, accumulated⟩ := ih (strip (acc ++ (py " " ++ text)))
          refine ⟨(i, text) :: run, rest, by rw [split, List.cons_append], ?_, left, ?_⟩
          · rw [indexes, List.map_cons]
          · rw [accumulated, grown, List.append_assoc, runWords, runWords, List.flatMap_cons]
      · exact ⟨[], (i, text) :: kept, rfl, rfl, rfl, (List.append_nil _).symm⟩

/-- Segments that complete a line are taken, and no more: every shorter run is a start of the line, and
shorter than it. -/
theorem takeRun_complete {target : PyStr} {run : List (Nat × PyStr)} (rest : List (Nat × PyStr)) :
    run ≠ [] → Inked run → ∀ acc, normWords (words acc ++ runWords run) = target →
      ∃ acc', takeRun target acc (run ++ rest) = (run.map Prod.fst, acc', rest) ∧ norm acc' = target := by
  induction run with
  | nil => exact fun none_ => absurd rfl none_
  | cons seg run ih =>
      intro _ inked acc complete
      obtain ⟨i, text⟩ := seg
      have grown := words_next acc text
      have inked' := List.forall_mem_cons.mp inked
      have cand : norm (strip (acc ++ (py " " ++ text))) = normWords (words acc ++ words text) := by
        rw [norm_eq, grown]
      rw [runWords, List.flatMap_cons, ← List.append_assoc, ← runWords] at complete
      rw [List.cons_append, takeRun]
      simp only [cand]
      cases run with
      | nil =>
          -- the line is complete
          rw [runWords, List.flatMap_nil, List.append_nil] at complete
          rw [complete, if_pos (by rw [startsWith, List.isPrefixOf_iff_prefix]), if_pos rfl]
          exact ⟨_, rfl, by rw [cand, complete]⟩
      | cons next later =>
          have some_ : words acc ++ words text ≠ [] := fun none_ =>
            inked'.1 (List.append_eq_nil_iff.mp none_).2
          have more := runWords_ne_nil (List.cons_ne_nil next later) inked'.2
          have longer := norm_grows some_ more
          rw [complete] at longer
          have starts : startsWith (normWords (words acc ++ words text)) target = true := by
            rw [startsWith, List.isPrefixOf_iff_prefix, longer]
            exact List.prefix_append _ _
          have short : normWords (words acc ++ words text) ≠ target := by
            intro same
            have lengths := congrArg List.length (same.trans longer)
            rw [List.length_append, List.length_cons] at lengths
            omega
          obtain ⟨acc', taken, ends⟩ := ih (List.cons_ne_nil next later) inked'.2
            (strip (acc ++ (py " " ++ text))) (by rw [grown]; exact complete)
          rw [if_pos starts, if_neg short, taken]
          exact ⟨acc', rfl, ends⟩

/-! ### The runs of all lines -/

/-- The segments cut into runs, one for each line. -/
def Grouping (lines : List PyStr) (kept : List (Nat × PyStr)) (runs : List (List (Nat × PyStr))) : Prop :=
  runs.flatten = kept ∧ List.Forall₂ Speaks lines runs

/-- The groups are the indexes of the runs of such a cut. -/
theorem groupLines_iff (lines : List PyStr) : ∀ {kept groups}, Inked kept →
    (groupLines lines kept = some groups ↔
      ∃ runs, Grouping lines kept runs ∧ groups = runs.map fun run => run.map Prod.fst) := by
  induction lines with
  | nil =>
      intro kept groups _
      rw [groupLines]
      constructor
      · intro grouped
        split at grouped
        · next empty =>
          cases grouped
          exact ⟨[], ⟨(List.isEmpty_iff.mp empty).symm, .nil⟩, rfl⟩
        · cases grouped
      · rintro ⟨runs, ⟨rfl, none_⟩, rfl⟩
        cases none_
        rfl
  | cons line lines ih =>
      intro kept groups inked
      rw [groupLines]
      constructor
      · intro grouped
        obtain ⟨run, rest, split, indexes, left, accumulated⟩ := takeRun_spec (norm line) kept []
        split at grouped
        · cases grouped
        · next complete =>
          rw [not_or, not_not, norm_eq (takeRun _ _ _).2.1, accumulated, indexes, List.isEmpty_iff,
            List.map_eq_nil_iff] at complete
          obtain ⟨later, found, rfl⟩ := Option.map_eq_some_iff.mp grouped
          rw [left] at found
          obtain ⟨runs, ⟨flat, each⟩, rfl⟩ :=
            (ih fun seg member => inked seg (split ▸ List.mem_append_right run member)).mp found
          refine ⟨run :: runs, ⟨by rw [List.flatten_cons, flat, split], .cons ⟨complete.1, ?_⟩ each⟩, ?_⟩
          · rw [norm_eq, words_texts]
            exact complete.2
          · rw [indexes, List.map_cons]
      · rintro ⟨runs, ⟨rfl, each⟩, rfl⟩
        cases each with
        | @cons _ run _ runs speaks each =>
            have inked' : Inked run := fun seg member => inked seg (by simp [member])
            have complete : normWords (words [] ++ runWords run) = norm line := by
              rw [← speaks.2, norm_eq, words_texts]
              rfl
            obtain ⟨acc, taken, ends⟩ := takeRun_complete runs.flatten speaks.1 inked' [] complete
            rw [List.flatten_cons, taken]
            have some_ : ¬((run.map Prod.fst).isEmpty = true ∨ norm acc ≠ norm line) := by
              rw [not_or, not_not, List.isEmpty_iff, List.map_eq_nil_iff]
              exact ⟨speaks.1, ends⟩
            rw [if_neg some_, Option.map_eq_some_iff]
            exact ⟨_, (ih fun seg member => inked seg (by simp at member ⊢; exact .inr member)).mpr
              ⟨runs, ⟨rfl, each⟩, rfl⟩, rfl⟩

/-! ### A transcript -/

omit [PyRuntime] in
theorem inked_kept (segments : List Json) : Inked (keptSegments segments) := by
  intro seg member
  obtain ⟨source, _, some_⟩ := List.mem_filterMap.mp member
  obtain ⟨text, found, rfl⟩ := Option.map_eq_some_iff.mp some_
  apply words_ne_nil
  unfold segmentText at found
  split at found
  · split at found
    · split at found
      · cases found
      · next ink =>
        cases found
        exact fun none_ => ink (List.isEmpty_iff.mpr none_)
    · cases found
  · cases found

/-- Consecutive, disjoint, nonempty runs that together list every kept segment once and in order, and
each of them, put together with spaces, is its line without its label up to case and white space. -/
def IsGrouping (transcript : PyStr) (segments : List Json) (groups : List (List Nat)) : Prop :=
  ∃ runs, Grouping (spokenLines transcript) (keptSegments segments) runs ∧
    groups = runs.map fun run => run.map Prod.fst

theorem IsGrouping.indexes {transcript : PyStr} {segments : List Json} {groups : List (List Nat)}
    (grouping : IsGrouping transcript segments groups) :
    groups.flatten = (keptSegments segments).map Prod.fst := by
  obtain ⟨runs, ⟨flat, _⟩, rfl⟩ := grouping
  rw [← flat, List.map_flatten]

/-- Groups that are returned line up. -/
theorem isGrouping_of_some {transcript : PyStr} {segments : List Json} {groups : List (List Nat)}
    (grouped : groupSegmentsByTranscriptLines transcript segments = some groups) :
    IsGrouping transcript segments groups := by
  rw [groupSegmentsByTranscriptLines] at grouped
  split at grouped
  · cases grouped
  · exact (groupLines_iff _ (inked_kept segments)).mp grouped

/-- Where there is a line and a segment, groups that line up are returned. -/
theorem some_of_isGrouping {transcript : PyStr} {segments : List Json} {groups : List (List Nat)}
    (some_ : spokenLines transcript ≠ [] ∨ keptSegments segments ≠ [])
    (grouping : IsGrouping transcript segments groups) :
    groupSegmentsByTranscriptLines transcript segments = some groups := by
  obtain ⟨runs, ⟨flat, each⟩, same⟩ := grouping
  -- a line has a segment, and a segment is in some line's run
  have both : spokenLines transcript ≠ [] ∧ keptSegments segments ≠ [] := by
    rw [← flat] at some_ ⊢
    generalize spokenLines transcript = lines at some_ each
    cases each with
    | nil => exact absurd some_ (by simp)
    | cons speaks later =>
        refine ⟨List.cons_ne_nil _ _, fun none_ => speaks.1 ?_⟩
        rw [List.flatten_cons] at none_
        exact (List.append_eq_nil_iff.mp none_).1
  rw [groupSegmentsByTranscriptLines]
  simp only [List.isEmpty_iff, Bool.or_eq_true, both.1, both.2, or_self, if_false]
  exact (groupLines_iff _ (inked_kept segments)).mpr ⟨runs, ⟨flat, each⟩, same⟩

/-- What the page shows beside a rendition lists every kept segment once, in order. -/
theorem alignRendition_indexes {rendition : List (PyStr × Json)} {segments : List Json}
    {transcript : PyStr} {pairs : List (List Nat × PyStr)}
    (aligned : alignRendition rendition segments transcript = some pairs) :
    (pairs.map Prod.fst).flatten = (keptSegments segments).map Prod.fst := by
  unfold alignRendition at aligned
  simp only at aligned
  generalize renditionLines _ = lines at aligned
  split at aligned
  · cases aligned
  · split at aligned
    · next same =>
      -- a line for each segment
      cases aligned
      generalize (keptSegments segments).map Prod.fst = kept at same ⊢
      rw [List.map_fst_zip (by rw [List.length_map, List.length_map]; exact same.ge)]
      clear same
      induction kept with
      | nil => rfl
      | cons i kept ih => exact congrArg (i :: ·) ih
    · split at aligned
      · next groups grouped =>
        split at aligned
        · next same =>
          cases aligned
          rw [List.map_fst_zip (by rw [List.length_map]; exact same.le)]
          exact (isGrouping_of_some grouped).indexes
        · cases aligned
      · cases aligned

/-- Groups that are returned line up; where none are, no groups do, or there is neither a line nor a
segment to line up. -/
theorem grouping_sound_complete (transcript : PyStr) (segments : List Json) :
    (∀ groups, groupSegmentsByTranscriptLines transcript segments = some groups →
      IsGrouping transcript segments groups) ∧
    (groupSegmentsByTranscriptLines transcript segments = none →
      (spokenLines transcript = [] ∧ keptSegments segments = []) ∨
        ∀ groups, ¬IsGrouping transcript segments groups) := by
  constructor
  · exact fun groups => isGrouping_of_some
  · intro none_
    by_cases some_ : spokenLines transcript ≠ [] ∨ keptSegments segments ≠ []
    · right
      intro groups grouping
      rw [some_of_isGrouping some_ grouping] at none_
      cases none_
    · rw [not_or, not_not, not_not] at some_
      exact .inl some_

end

/-- Of nothing to line up, no groups are made, though there are none to make. -/
theorem nothing_to_group : letI := PyRuntime.ascii
    groupSegmentsByTranscriptLines [] [] = none ∧ IsGrouping [] [] [] := by
  let _ := PyRuntime.ascii
  exact ⟨rfl, [], ⟨rfl, .nil⟩, rfl⟩

end GhostPour.Shares
