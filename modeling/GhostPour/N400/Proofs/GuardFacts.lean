/-
Module: GhostPour.N400.Proofs.GuardFacts
Layer: Proofs
Purpose: What each guard leaves of the facts: the ones its test does not condemn, and one more where a
  guard files it from her words.
Trusted boundary: none
Main exports: takesFact, filesFact, LeavesFacts, step_leavesFacts, step_carries
-/
import GhostPour.N400.Proofs.RecordedDrops

namespace GhostPour.N400

open Regex

section

variable [PyRuntime]

/-! ### Facts that stay -/

/-- The facts afterwards are the ones before that a test does not condemn. -/
def LeavesFacts (takes : Json → Bool) (before after : Dict) : Prop :=
  entriesOf (after.get (py "facts")) =
    (entriesOf (before.get (py "facts"))).filter fun f => !takes f

omit [PyRuntime] in
theorem leavesFacts_quiet {takes : Json → Bool} {turn : Dict}
    (none_ : ∀ f ∈ entriesOf (turn.get (py "facts")), takes f = false) :
    LeavesFacts takes turn turn := by
  rw [LeavesFacts, eq_comm, List.filter_eq_self]
  intro f member
  rw [none_ f member]
  rfl

omit [PyRuntime] in
/-- Where the facts are no list, there are none to take. -/
theorem leavesFacts_of_no_list {takes : Json → Bool} {turn : Dict}
    (other : ∀ facts, turn.get (py "facts") ≠ .arr facts) : LeavesFacts takes turn turn := by
  refine leavesFacts_quiet fun f member => ?_
  rw [entriesOf.eq_def] at member
  split at member
  · next facts listed => exact absurd listed (other facts)
  · cases member

omit [PyRuntime] in
/-- What stays is what the test does not condemn. -/
theorem keptOf_eq_untaken {ι : Type} {judge : Json → Py (Option ι)} {items : List Json}
    {verdicts : List (Option ι)} (judged : items.mapM judge = some verdicts) :
    keptOf items verdicts = items.filter fun f => !(judge f).any Option.isSome := by
  refine keptOf_eq_filter judged fun f filed => ?_
  obtain ⟨verdict, _, here⟩ := mapM_mem judged filed
  rw [here]
  cases verdict <;> simp

omit [PyRuntime] in
theorem leavesFacts_judged {ι : Type} {judge : Json → Py (Option ι)} {before after : Dict}
    {facts : List Json} {verdicts : List (Option ι)} (listed : before.get (py "facts") = .arr facts)
    (judged : facts.mapM judge = some verdicts)
    (left : after.get (py "facts") = .arr (keptOf facts verdicts)) :
    LeavesFacts (fun f => (judge f).any Option.isSome) before after := by
  rw [LeavesFacts, listed, left, keptOf_eq_untaken judged, entriesOf, entriesOf,
    List.filter_filter, List.filter_filter]
  exact List.filter_congr fun f _ => Bool.and_comm _ _

omit [PyRuntime] in
/-- A test that condemns no fact. -/
theorem leavesFacts_unjudged {ι : Type} {judge : Json → Py (Option ι)} {turn : Dict}
    {facts : List Json} {verdicts : List (Option ι)} (listed : turn.get (py "facts") = .arr facts)
    (judged : facts.mapM judge = some verdicts) (none_ : verdicts.filterMap id = []) :
    LeavesFacts (fun f => (judge f).any Option.isSome) turn turn := by
  refine leavesFacts_judged listed judged ?_
  rw [listed, keptOf_eq_self judged none_]

theorem leavesFacts_dropFacts {ι : Type} {judge : Json → Py (Option ι)} {entry : ι → Json}
    {turn turn' : Dict} {info : Option (List ι)}
    (run : (dropFacts judge entry).onTurn turn = some (turn', info)) :
    LeavesFacts (fun f => (judge f).any Option.isSome) turn turn' := by
  obtain ⟨outcome, guarded, same⟩ := Option.map_eq_some_iff.mp run
  cases outcome with
  | some changed =>
      obtain ⟨changed, dropped⟩ := changed
      cases same
      obtain ⟨facts, verdicts, listed, judged, left⟩ := dropFacts_facts guarded
      exact leavesFacts_judged listed judged left
  | none =>
      cases same
      rw [dropFacts] at guarded
      split at guarded
      · next facts listed =>
        obtain ⟨verdicts, judged, rest⟩ := Option.bind_eq_some_iff.mp guarded
        dsimp only at rest
        split at rest
        · next none_ => exact leavesFacts_unjudged listed judged (List.isEmpty_iff.mp none_)
        · obtain ⟨_, _, impossible⟩ := Option.bind_eq_some_iff.mp rest
          cases impossible
      · next other => exact leavesFacts_of_no_list other

theorem leavesFacts_evidence {input : EvidenceInput} {turn turn' : Dict} {info : Option (List Json)}
    (run : (dropFactsWithoutCurrentEvidence input).onTurn turn = some (turn', info)) :
    LeavesFacts (fun f => (unsupportedOf input f).any Option.isSome) turn turn' := by
  obtain ⟨outcome, guarded, same⟩ := Option.map_eq_some_iff.mp run
  cases outcome with
  | some changed =>
      obtain ⟨changed, dropped⟩ := changed
      cases same
      obtain ⟨facts, verdicts, listed, judged, left⟩ := dropFactsWithoutCurrentEvidence_facts guarded
      exact leavesFacts_judged listed judged left
  | none =>
      cases same
      rw [dropFactsWithoutCurrentEvidence] at guarded
      split at guarded
      · next facts listed =>
        obtain ⟨verdicts, judged, rest⟩ := Option.bind_eq_some_iff.mp guarded
        dsimp only at rest
        split at rest
        · next none_ =>
          rw [List.isEmpty_iff, List.map_eq_nil_iff] at none_
          exact leavesFacts_unjudged listed judged none_
        · cases rest
      · next other => exact leavesFacts_of_no_list other

/-- The deferrals that stand: none where they are no list. -/
def standingIds (turn : Dict) : Py (List Json) :=
  match turn.get (py "deferred") with
  | .arr deferred => deferredIds false deferred
  | _ => some []

/-- Whether a fact goes because its deferral stands. -/
def standsDeferred (turn : Dict) (f : Json) : Bool :=
  (standingIds turn).any fun stands => (deferredFact stands f).any Option.isSome

theorem standsDeferred_of_nil {turn : Dict} (none_ : standingIds turn = some []) (f : Json) :
    standsDeferred turn f = false := by
  rw [standsDeferred, none_]
  change (deferredFact [] f).any Option.isSome = false
  rw [deferredFact, keyIn]
  split <;> rfl

theorem leavesFacts_alsoDeferred {turn turn' : Dict} {info : Option (List Json)}
    (run : dropFactsThatAreAlsoDeferred.onTurn turn = some (turn', info)) :
    LeavesFacts (standsDeferred turn) turn turn' := by
  obtain ⟨outcome, guarded, same⟩ := Option.map_eq_some_iff.mp run
  by_cases lists : ∃ deferred facts, deferred ≠ [] ∧ turn.get (py "deferred") = .arr deferred ∧
      turn.get (py "facts") = .arr facts
  · obtain ⟨deferred, facts, some_, listed, filed⟩ := lists
    obtain ⟨stands, gaps, captured, verdicts, factIds, gapVerdicts, applicant, _, _, judged, _, _,
      result⟩ := dropFactsThatAreAlsoDeferred_eq_some some_ listed filed guarded
    have test : standsDeferred turn = fun f => (deferredFact stands f).any Option.isSome := by
      funext f
      rw [standsDeferred, standingIds, listed]
      dsimp only
      rw [applicant]
      rfl
    rw [test]
    rcases result with ⟨rfl, none_, _⟩ | ⟨marked, settled, first, second, rfl⟩
    · cases same
      exact leavesFacts_unjudged filed judged none_
    · cases same
      refine leavesFacts_judged filed judged ?_
      rw [takeAway_get_of_ne second (by decide) (by decide)]
      rcases takeAway_eq_some first with ⟨none_, rfl⟩ | ⟨some_, _⟩
      · rw [filed, keptOf_eq_self judged none_]
      · exact takeAway_get first some_ (by decide)
  · -- without both lists the guard leaves the response alone
    have unchanged : outcome = none ∧ (standingIds turn = some [] ∨
        ∀ facts, turn.get (py "facts") ≠ .arr facts) := by
      rw [dropFactsThatAreAlsoDeferred.eq_def] at guarded
      split at guarded
      · next deferred facts listed filed =>
        split at guarded
        · next none_ =>
          rw [List.isEmpty_iff] at none_
          refine ⟨(Option.some.inj guarded).symm, .inl ?_⟩
          rw [standingIds, listed, none_]
          rfl
        · next some_ =>
          exact (lists ⟨deferred, facts, fun none_ => some_ (List.isEmpty_iff.mpr none_), listed,
            filed⟩).elim
      · next other =>
        refine ⟨(Option.some.inj guarded).symm, ?_⟩
        rw [standingIds]
        split
        · next deferred listed => exact .inr fun facts filed => other deferred facts listed filed
        · exact .inl rfl
    obtain ⟨rfl, quiet⟩ := unchanged
    cases same
    rcases quiet with none_ | other
    · exact leavesFacts_quiet fun f _ => standsDeferred_of_nil none_ f
    · exact leavesFacts_of_no_list other

/-! ### What a guard takes and files -/

/-- Whether her words open with a No that pushes back. -/
def pushesBack (input : GuardInput) : Bool :=
  (matchStart pushbackNo (pushbackText (orEmpty input.userContent))).isSome

/-- Whether the guard of a step takes a fact away. -/
def takesFact (input : GuardInput) (a : GuardStep) (turn : Dict) (f : Json) : Bool :=
  match a with
  | .wrongDigitCount => (wrongCountOf f).any Option.isSome
  | .notAsSaid => (notAsSaidOf input.locale f).any Option.isSome
  | .occupations => (occupationFix (knownOccupations input.knownFacts) f).entry.isSome
  | .evidence =>
      match input.userContent with
      | some said => (unsupportedOf (input.evidence said) f).any Option.isSome
      | none => false
  | .pushedBackNo => pushesBack input && (bareNo f).any Option.isSome
  | .alsoDeferred => standsDeferred turn f
  | .unspokenDays => movesForDay input f
  | .offPartials => movesForPartial input f
  | _ => false

/-- The field of the fact that the guard of a step files. -/
def filesFact (input : GuardInput) (a : GuardStep) (turn : Dict) : Option PyStr :=
  match a with
  | .probation =>
      ((fileProbationNeverHad input.agenda input.userContent turn).join).map Prod.snd
  | .trips => ((closeTripsOnStatedCount input.userContent turn).join).map fun filed => filed.2.1
  | _ => none

/-- A fact of a field that the guard of a step does not take away. -/
def Stays (input : GuardInput) (a : GuardStep) (turn : Dict) (fid : PyStr) : Prop :=
  ∃ f ∈ entriesOf (turn.get (py "facts")), f.field "field_id" = .str fid ∧
    takesFact input a turn f = false

theorem stays_of_takes_none {input : GuardInput} {a : GuardStep} {turn : Dict}
    (none_ : ∀ f ∈ entriesOf (turn.get (py "facts")), takesFact input a turn f = false)
    {fid : PyStr} : Stays input a turn fid ↔ Carries turn fid := by
  constructor
  · rintro ⟨f, member, named, _⟩
    exact ⟨f, member, named⟩
  · rintro ⟨f, member, named⟩
    exact ⟨f, member, named, none_ f member⟩

/-! ### One step -/

omit [PyRuntime] in
theorem leavesFacts_frame {before after : Dict}
    (facts : after.get (py "facts") = before.get (py "facts")) :
    LeavesFacts (fun _ => false) before after := by
  have quiet : LeavesFacts (fun _ => false) before before := leavesFacts_quiet fun _ _ => rfl
  rw [LeavesFacts, facts]
  exact quiet

theorem leavesFacts_pushedBackNo {input : GuardInput} {turn turn' : Dict}
    {info : Option (List Json)}
    (run : (dropNoThatPushedBack input.userContent).onTurn turn = some (turn', info)) :
    LeavesFacts (fun f => pushesBack input && (bareNo f).any Option.isSome) turn turn' := by
  by_cases opens : pushesBack input = true
  · have run : (dropFacts bareNo id).onTurn turn = some (turn', info) := by
      rw [Guard.onTurn, dropNoThatPushedBack, if_neg] at run
      · exact run
      · rw [pushesBack, Option.isSome_iff_ne_none] at opens
        simpa using opens
    rw [opens]
    exact leavesFacts_dropFacts run
  · have opens : pushesBack input = false := by simpa using opens
    rw [Guard.onTurn, dropNoThatPushedBack, if_pos] at run
    · cases run
      rw [opens]
      exact leavesFacts_quiet fun _ _ => rfl
    · rw [pushesBack] at opens
      simpa using opens

/-- A guard that files nothing leaves the facts that it does not take. -/
theorem step_leavesFacts {input : GuardInput} {a : GuardStep} (other : a ∉ filingSteps)
    {s s' : GuardState Dict} (step : (turnMachine input).step a s = some s') :
    LeavesFacts (takesFact input a s.response) s.response s'.response := by
  cases a with
  | wrongDigitCount =>
      obtain ⟨⟨turn', info⟩, guarded, rfl⟩ := Option.map_eq_some_iff.mp step
      have guarded : (dropFacts wrongCountOf WrongCount.entry).onTurn s.response =
          some (turn', info) := guarded
      exact leavesFacts_dropFacts guarded
  | notAsSaid =>
      obtain ⟨⟨turn', info⟩, guarded, rfl⟩ := Option.map_eq_some_iff.mp step
      have guarded : (dropFacts (notAsSaidOf input.locale) NotAsSaid.entry).onTurn s.response =
          some (turn', info) := guarded
      exact leavesFacts_dropFacts guarded
  | evidence =>
      change guardStepOn _ input .evidence s = some s' at step
      rw [guardStepOn] at step
      split at step
      · next said given =>
        have test : takesFact input .evidence s.response =
            fun f => (unsupportedOf (input.evidence said) f).any Option.isSome := by
          funext f
          rw [takesFact, given]
        obtain ⟨⟨turn', info⟩, guarded, rfl⟩ := Option.map_eq_some_iff.mp step
        rw [test]
        exact leavesFacts_evidence guarded
      · next absent =>
        cases step
        refine leavesFacts_quiet fun f _ => ?_
        rw [takesFact, absent]
  | pushedBackNo =>
      obtain ⟨⟨turn', info⟩, guarded, rfl⟩ := Option.map_eq_some_iff.mp step
      exact leavesFacts_pushedBackNo guarded
  | alsoDeferred =>
      obtain ⟨⟨turn', info⟩, guarded, rfl⟩ := Option.map_eq_some_iff.mp step
      exact leavesFacts_alsoDeferred guarded
  | unspokenDays => exact (step_unspokenDays step).facts
  | offPartials => exact (step_offPartials step).facts
  | occupations | probation | trips => exact absurd (by decide) other
  | _ => exact leavesFacts_frame (step_get step (by decide))

/-! ### The guards that file -/

omit [PyRuntime] in
theorem occupationFact_isSome (fix : OccupationFix) (f : Json) :
    (fix.fact f).isSome = !fix.entry.isSome := by
  cases fix with
  | kept => rfl
  | dropped fid reason => rfl
  | rewritten fid value => cases f <;> rfl

/-- The occupations that are not dropped stay under their field. -/
theorem carries_fixOccupations {input : GuardInput} {turn turn' : Dict}
    {changes : List OccupationFix}
    (run : fixOccupations input.knownFacts turn = some (some (turn', changes))) {fid : PyStr} :
    Carries turn' fid ↔ Stays input .occupations turn fid := by
  obtain ⟨facts, kept, listed, rfl, outcome⟩ := fixOccupations_eq_some run
  have left : turn'.get (py "facts") = .arr ((facts.zip (facts.map
      (occupationFix (knownOccupations input.knownFacts)))).filterMap
        (fun entry => entry.2.fact entry.1)) := by
    rcases outcome with ⟨_, rfl⟩ | added
    · exact Dict.get_set_self _ _ _
    · rw [appendTo_get_of_ne added (by decide), Dict.get_set_self]
  rw [Carries, left, Stays, listed]
  constructor
  · rintro ⟨g, member, named⟩
    obtain ⟨stays, dict⟩ := List.mem_filter.mp member
    obtain ⟨⟨f, fix⟩, zipped, stays⟩ := List.mem_filterMap.mp stays
    rw [← List.map_prod_left_eq_zip] at zipped
    obtain ⟨_, filed, same⟩ := List.mem_map.mp zipped
    cases same
    obtain ⟨dict', field⟩ := occupationFact_field stays
    refine ⟨f, List.mem_filter.mpr ⟨filed, dict'.symm.trans dict⟩, field.symm.trans named, ?_⟩
    have left_ := occupationFact_isSome (occupationFix (knownOccupations input.knownFacts) f) f
    rw [stays] at left_
    simpa [takesFact] using left_
  · rintro ⟨f, member, named, untaken⟩
    obtain ⟨filed, dict⟩ := List.mem_filter.mp member
    have left_ := occupationFact_isSome (occupationFix (knownOccupations input.knownFacts) f) f
    rw [show (occupationFix (knownOccupations input.knownFacts) f).entry.isSome = false
      from untaken] at left_
    obtain ⟨g, stays⟩ := Option.isSome_iff_exists.mp left_
    obtain ⟨dict', field⟩ := occupationFact_field stays
    exact ⟨g, List.mem_filter.mpr ⟨mem_occupations filed stays, dict'.trans dict⟩,
      field.trans named⟩

/-- Where the guard changes nothing, every occupation stays as it is. -/
theorem fixOccupations_quiet {input : GuardInput} {turn : Dict}
    (quiet : fixOccupations input.knownFacts turn = some none) :
    ∀ f ∈ entriesOf (turn.get (py "facts")),
      occupationFix (knownOccupations input.knownFacts) f = .kept := by
  intro f member
  rw [entriesOf.eq_def] at member
  split at member
  · next facts listed =>
    rw [fixOccupations, listed] at quiet
    dsimp only at quiet
    split at quiet
    · next kept =>
      rw [List.all_map, List.all_eq_true] at kept
      have kept := kept f (List.mem_of_mem_filter member)
      rw [Function.comp_apply] at kept
      cases fix : occupationFix (knownOccupations input.knownFacts) f with
      | kept => rfl
      | dropped fid reason | rewritten fid value =>
          rw [fix] at kept
          cases kept
    · split at quiet
      · cases quiet
      · obtain ⟨_, _, impossible⟩ := Option.bind_eq_some_iff.mp quiet
        cases impossible
  · cases member

theorem carries_fileFact {fid value cited : PyStr} {turn turn' : Dict}
    (run : fileFact fid value cited turn = some turn') {id : PyStr} :
    Carries turn' id ↔ fid = id ∨ Carries turn id := by
  obtain ⟨facts, listed, _, rfl⟩ := fileFact_eq_some run
  have left : entriesOf ((turn.set (py "facts") (.arr (facts ++ [filedFact fid value cited]))).get
      (py "facts")) = entriesOf (turn.get (py "facts")) ++ [filedFact fid value cited] := by
    rw [Dict.get_set_self, listed]
    exact entriesOf_append (.inl rfl) fun e member => by
      rw [List.mem_singleton.mp member]
      rfl
  have named : (filedFact fid value cited).field "field_id" = .str fid := rfl
  rw [Carries, left]
  constructor
  · rintro ⟨f, member, here⟩
    rcases List.mem_append.mp member with old | new
    · exact .inr ⟨f, old, here⟩
    · rw [List.mem_singleton.mp new, named, Json.str.injEq] at here
      exact .inl here
  · rintro (rfl | ⟨f, member, here⟩)
    · exact ⟨_, List.mem_append_right _ List.mem_cons_self, named⟩
    · exact ⟨f, List.mem_append_left _ member, here⟩

/-- The fields with a fact after a step: those with one that stays, and the one that is filed. -/
theorem step_carries {input : GuardInput} {a : GuardStep} {s s' : GuardState Dict}
    (step : (turnMachine input).step a s = some s') {fid : PyStr} :
    Carries s'.response fid ↔
      filesFact input a s.response = some fid ∨ Stays input a s.response fid := by
  by_cases filing : a ∈ filingSteps
  · rcases (by simpa [filingSteps] using filing : a = .occupations ∨ a = .probation ∨ a = .trips)
      with rfl | rfl | rfl
    · rw [or_iff_right (by simp [filesFact])]
      rcases logged_eq_some step with ⟨quiet, same⟩ | ⟨changes, changed⟩
      · rw [same, stays_of_takes_none fun f member => ?_]
        rw [takesFact, fixOccupations_quiet quiet f member]
        rfl
      · exact carries_fixOccupations changed
    · rw [stays_of_takes_none fun _ _ => rfl, filesFact]
      have step : s.logged Guard.onTurn (fileProbationNeverHad input.agenda input.userContent) =
          some s' := step
      rcases logged_eq_some step with ⟨quiet, same⟩ | ⟨field, changed⟩
      · rw [quiet, same]
        exact (or_iff_right (by rintro ⟨⟩)).symm
      · obtain ⟨rfl, cited, _, filed⟩ := fileProbationNeverHad_eq_some changed
        rw [changed, carries_fileFact filed]
        exact or_congr_left (by simp)
    · rw [stays_of_takes_none fun _ _ => rfl, filesFact]
      have step : s.logged Guard.onTurn (closeTripsOnStatedCount input.userContent) = some s' :=
        step
      rcases logged_eq_some step with ⟨quiet, same⟩ | ⟨info, changed⟩
      · rw [quiet, same]
        exact (or_iff_right (by rintro ⟨⟩)).symm
      · obtain ⟨word, count, facts, rfl, _, _, _, filed⟩ := closeTripsOnStatedCount_eq_some changed
        rw [changed, carries_fileFact filed]
        exact or_congr_left (by simp)
  · have files : filesFact input a s.response = none := by
      cases a with
      | probation | trips => exact absurd (by decide) filing
      | _ => rfl
    rw [files, or_iff_right (by rintro ⟨⟩), Carries, step_leavesFacts filing step]
    constructor
    · rintro ⟨f, member, named⟩
      obtain ⟨filed, untaken⟩ := List.mem_filter.mp member
      exact ⟨f, filed, named, by simpa using untaken⟩
    · rintro ⟨f, member, named, untaken⟩
      refine ⟨f, List.mem_filter.mpr ⟨member, ?_⟩, named⟩
      rw [untaken]
      rfl

end

end GhostPour.N400
