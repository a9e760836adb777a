/-
Module: GhostPour.N400.Proofs.FactOrDeferral
Layer: Proofs
Purpose: One field is a fact or a deferral. The guard that separates them does; the date guards after
  it then move facts to deferrals one by one, so a date that moves away from another fact of its own
  field brings the two together again, and nothing else does.
Trusted boundary: none
Main exports: FactAndDeferral, MovesDates, DatesLeaveTheirFields, fact_or_deferral_iff
-/
import GhostPour.Library.PyEquality
import GhostPour.N400.Proofs.HerFacts

namespace GhostPour.N400

open Json (sameKey)

/-- Whether an entry has a field id at all. -/
def namesField (entry : Json) : Bool := !(entry.field "field_id" matches .null)

section

variable [PyRuntime]

/-- Two entries are for one field. -/
def SharesField (f d : Json) : Prop :=
  namesField f = true ∧ sameKey (f.field "field_id") (d.field "field_id") = true

instance (f d : Json) : Decidable (SharesField f d) := inferInstanceAs (Decidable (_ ∧ _))

/-- A field of the response is both a fact and a deferral. -/
def FactAndDeferral (turn : Dict) : Prop :=
  ∃ f ∈ entriesOf (turn.get (py "facts")), ∃ d ∈ entriesOf (turn.get (py "deferred")),
    SharesField f d

instance (turn : Dict) : Decidable (FactAndDeferral turn) :=
  inferInstanceAs (Decidable (∃ f ∈ _, ∃ d ∈ _, _))

/-! ### The guard that separates them -/

theorem deferredFact_stays {stands : List Json} {f : Json}
    (run : deferredFact stands f = some none) : stands.any (sameKey (f.field "field_id")) = false := by
  obtain ⟨listed, found, rest⟩ := Option.bind_eq_some_iff.mp run
  obtain ⟨_, rfl⟩ := keyIn_eq_some found
  split at rest
  · split at rest <;> cases rest
  · next absent => simpa using absent

theorem resolvedGap_stays {captured factIds : List Json} {d : Json}
    (run : resolvedGap captured factIds d = some none)
    (gap : captured.any (sameKey (d.field "field_id")) = true) :
    factIds.any (sameKey (d.field "field_id")) = false := by
  obtain ⟨listed, found, rest⟩ := Option.bind_eq_some_iff.mp run
  obtain ⟨_, rfl⟩ := keyIn_eq_some found
  rw [if_pos gap] at rest
  obtain ⟨filed, found', rest⟩ := Option.bind_eq_some_iff.mp rest
  obtain ⟨_, rfl⟩ := keyIn_eq_some found'
  split at rest
  · cases rest
  · next absent => simpa using absent

/-- What the guard leaves shares no field: a fact whose deferral stands is gone, and so is a capture gap
that a fact resolves. -/
theorem kept_share_no_field {turn : Dict} (canonical : (Json.obj turn).Canonical)
    {deferred facts stands gaps captured factIds : List Json} {verdicts gapVerdicts : List (Option Json)}
    (listed : turn.get (py "deferred") = .arr deferred) (filed : turn.get (py "facts") = .arr facts)
    (applicant : deferredIds false deferred = some stands)
    (gap : deferredIds true deferred = some gaps)
    (left : captured = gaps.filter fun fid => !stands.any (sameKey fid))
    (judged : facts.mapM (deferredFact stands) = some verdicts)
    (named : fieldIdSet (keptOf facts verdicts) = some factIds)
    (resolved : deferred.mapM (resolvedGap captured factIds) = some gapVerdicts)
    {f d : Json} (fact : f ∈ keptOf facts verdicts) (dict : isDict f = true)
    (deferral : d ∈ keptOf deferred gapVerdicts) (dict' : isDict d = true) : ¬SharesField f d := by
  rintro ⟨_, same⟩
  obtain ⟨fact_, stays⟩ := (mem_keptOf judged).mp fact
  obtain ⟨deferral_, stays'⟩ := (mem_keptOf resolved).mp deferral
  have notStanding := deferredFact_stays stays
  have value : ∀ v ∈ facts, (v.field "field_id").Canonical := fun v member =>
    canonical_field (canonical_items canonical filed v member) "field_id"
  have value' : ∀ v ∈ deferred, (v.field "field_id").Canonical := fun v member =>
    canonical_field (canonical_items canonical listed v member) "field_id"
  obtain ⟨standing, _⟩ := fieldIdSet_eq_some applicant
  obtain ⟨gapIds, hashes⟩ := fieldIdSet_eq_some gap
  -- a standing deferral of the same field would have taken the fact away
  have noStanding : ∀ s ∈ stands, sameKey (f.field "field_id") s = false := by
    intro s member
    exact Bool.eq_false_iff.mpr (List.any_eq_false.mp notStanding s member)
  by_cases origin : deferralOrigin d = .captureGap
  · have member : d.field "field_id" ∈ gaps := by
      rw [gapIds]
      exact List.mem_map_of_mem (List.mem_filter.mpr
        ⟨List.mem_filter.mpr ⟨deferral_, by simp [origin]⟩, dict'⟩)
    by_cases both : stands.any (sameKey (d.field "field_id")) = true
    · obtain ⟨s, standing_, same'⟩ := List.any_eq_true.mp both
      have source : ∃ v ∈ deferred, v.field "field_id" = s := by
        rw [standing] at standing_
        obtain ⟨v, found, rfl⟩ := List.mem_map.mp standing_
        exact ⟨v, List.mem_of_mem_filter (List.mem_of_mem_filter found), rfl⟩
      obtain ⟨v, found, rfl⟩ := source
      have joined := Json.sameKey_trans (value f fact_) (value' d deferral_) (value' v found) same same'
      exact absurd joined (by rw [noStanding _ standing_]; exact Bool.false_ne_true)
    · have captured_ : captured.any (sameKey (d.field "field_id")) = true := by
        rw [left]
        refine List.any_eq_true.mpr ⟨d.field "field_id", List.mem_filter.mpr ⟨member, ?_⟩, ?_⟩
        · simpa using both
        · exact Json.sameKey_refl (hashes _ member)
      have absent := resolvedGap_stays stays' captured_
      have present : f.field "field_id" ∈ factIds := by
        rw [(fieldIdSet_eq_some named).1]
        exact List.mem_map_of_mem (List.mem_filter.mpr ⟨fact, dict⟩)
      have unequal := List.any_eq_false.mp absent _ present
      exact unequal (by rw [Json.sameKey_symm]; exact same)
  · have member : d.field "field_id" ∈ stands := by
      rw [standing]
      exact List.mem_map_of_mem (List.mem_filter.mpr
        ⟨List.mem_filter.mpr ⟨deferral_, by simp [origin]⟩, dict'⟩)
    exact absurd same (by rw [noStanding _ member]; exact Bool.false_ne_true)

/-- After the guard that separates them, no field is a fact and a deferral. -/
theorem dropFactsThatAreAlsoDeferred_separates {turn turn' : Dict} {info : Option (List Json)}
    (canonical : (Json.obj turn).Canonical)
    (run : dropFactsThatAreAlsoDeferred.onTurn turn = some (turn', info)) :
    ¬FactAndDeferral turn' := by
  rintro ⟨f, fact, d, deferral, shared⟩
  obtain ⟨outcome, guarded, same⟩ := Option.map_eq_some_iff.mp run
  by_cases lists : ∃ deferred facts, deferred ≠ [] ∧ turn.get (py "deferred") = .arr deferred ∧
      turn.get (py "facts") = .arr facts
  · obtain ⟨deferred, facts, some_, listed, filed⟩ := lists
    obtain ⟨stands, gaps, captured, verdicts, factIds, gapVerdicts, applicant, gap, left, judged, named,
      resolved, result⟩ := dropFactsThatAreAlsoDeferred_eq_some some_ listed filed guarded
    obtain ⟨facts', deferred'⟩ : turn'.get (py "facts") = .arr (keptOf facts verdicts) ∧
        turn'.get (py "deferred") = .arr (keptOf deferred gapVerdicts) := by
      rcases result with ⟨rfl, none_, none_'⟩ | ⟨marked, settled, first, second, rfl⟩
      · cases same
        rw [filed, listed, keptOf_eq_self judged none_, keptOf_eq_self resolved none_']
        exact ⟨rfl, rfl⟩
      · cases same
        constructor
        · rw [takeAway_get_of_ne second (by decide) (by decide)]
          rcases takeAway_eq_some first with ⟨none_, rfl⟩ | ⟨some_, _⟩
          · rw [filed, keptOf_eq_self judged none_]
          · exact takeAway_get first some_ (by decide)
        · rcases takeAway_eq_some second with ⟨none_, rfl⟩ | ⟨some_, _⟩
          · rw [takeAway_get_of_ne first (by decide) (by decide), listed,
              keptOf_eq_self resolved none_]
          · exact takeAway_get second some_ (by decide)
    rw [facts'] at fact
    rw [deferred'] at deferral
    obtain ⟨fact, dict⟩ := List.mem_filter.mp fact
    obtain ⟨deferral, dict'⟩ := List.mem_filter.mp deferral
    exact kept_share_no_field canonical listed filed applicant gap left judged named resolved fact dict
      deferral dict' shared
  · have unchanged : turn' = turn := by
      rw [dropFactsThatAreAlsoDeferred.eq_def] at guarded
      split at guarded
      · next deferred facts listed filed =>
        split at guarded
        · cases guarded
          cases same
          rfl
        · next some_ =>
          exact (lists ⟨deferred, facts, fun none_ => some_ (List.isEmpty_iff.mpr none_), listed,
            filed⟩).elim
      · cases guarded
        cases same
        rfl
    rw [unchanged] at fact deferral
    rw [entriesOf.eq_def] at fact deferral
    split at fact
    · next facts filed =>
      split at deferral
      · next deferred listed =>
        refine lists ⟨deferred, facts, ?_, listed, filed⟩
        rintro rfl
        cases deferral
      · cases deferral
    · cases fact

/-! ### Dates that move -/

/-- What a date guard does: the dates it moves leave the facts, and each of them has a deferral of its
field afterwards. -/
structure MovesDates (moves : Json → Bool) (before after : Dict) : Prop where
  facts : entriesOf (after.get (py "facts")) =
    (entriesOf (before.get (py "facts"))).filter fun f => !moves f
  kept : ∀ d ∈ entriesOf (before.get (py "deferred")), d ∈ entriesOf (after.get (py "deferred"))
  origin : ∀ d ∈ entriesOf (after.get (py "deferred")),
    d ∈ entriesOf (before.get (py "deferred")) ∨
      ∃ m ∈ entriesOf (before.get (py "facts")), moves m = true ∧
        d.field "field_id" = m.field "field_id"
  deferred : ∀ m ∈ entriesOf (before.get (py "facts")), moves m = true →
    ∃ d ∈ entriesOf (after.get (py "deferred")),
      sameKey (m.field "field_id") (d.field "field_id") = true

theorem MovesDates.quiet {moves : Json → Bool} {turn : Dict}
    (none_ : ∀ f ∈ entriesOf (turn.get (py "facts")), moves f = false) :
    MovesDates moves turn turn where
  facts := by
    rw [eq_comm, List.filter_eq_self]
    intro f member
    rw [none_ f member]
    rfl
  kept _ member := member
  origin _ member := .inl member
  deferred m member moved := by
    rw [none_ m member] at moved
    cases moved

/-- Two date guards one after the other. -/
theorem MovesDates.trans {first second : Json → Bool} {a b c : Dict} (front : MovesDates first a b)
    (back : MovesDates second b c) : MovesDates (fun f => first f || second f) a c where
  facts := by
    rw [back.facts, front.facts, List.filter_filter]
    refine List.filter_congr fun f _ => ?_
    rw [Bool.not_or, Bool.and_comm]
  kept d member := back.kept d (front.kept d member)
  origin d member := by
    rcases back.origin d member with earlier | ⟨m, listed, moved, same⟩
    · rcases front.origin d earlier with first_ | ⟨m, listed, moved, same⟩
      · exact .inl first_
      · exact .inr ⟨m, listed, by rw [moved]; rfl, same⟩
    · rw [front.facts] at listed
      exact .inr ⟨m, List.mem_of_mem_filter listed, by rw [moved, Bool.or_true], same⟩
  deferred m member moved := by
    by_cases moved' : first m = true
    · obtain ⟨d, listed, same⟩ := front.deferred m member moved'
      exact ⟨d, back.kept d listed, same⟩
    · refine back.deferred m ?_ ?_
      · rw [front.facts]
        exact List.mem_filter.mpr ⟨member, by simpa using moved'⟩
      · simpa [moved'] using moved

/-- A test of dates: what it moves is a fact, under its own field. -/
def JudgesFacts (judge : Json → Option MovedDate) : Prop :=
  ∀ f moved, judge f = some moved → isDict f = true ∧ moved.fieldId = f.field "field_id"

omit [PyRuntime] in
theorem entriesOf_append {v : Json} {items entries : List Json}
    (held : v = .arr items ∨ v = .null ∧ items = []) (dicts : ∀ e ∈ entries, isDict e = true) :
    entriesOf (.arr (items ++ entries)) = entriesOf v ++ entries := by
  rw [entriesOf, List.filter_append, List.filter_eq_self.mpr dicts]
  rcases held with rfl | ⟨rfl, rfl⟩
  · rfl
  · rfl

theorem movesDates_of_changed {judge : Json → Option MovedDate} {reason : PyStr} {turn turn' : Dict}
    {entries : List Json} (test : JudgesFacts judge)
    (run : deferDates judge reason turn = some (some (turn', entries))) :
    MovesDates (fun f => (judge f).isSome) turn turn' := by
  obtain ⟨facts, items, already, deferrals, deferred, listed, held, named, fresh, added, _, rfl,
    marked⟩ := deferDates_eq_some run
  obtain ⟨ids, hashes⟩ := fieldIdSet_eq_some named
  have facts' : turn'.get (py "facts") = .arr (facts.filter fun f => (judge f).isNone) := by
    rw [appendTo_get_of_ne marked (by decide), Dict.get_set_self, keptOf_map]
  have deferred' : turn'.get (py "deferred") = deferred.get (py "deferred") := by
    rw [appendTo_get_of_ne marked (by decide), Dict.get_set_of_ne _ _ (by decide)]
  -- the deferrals that are appended, and whose they are
  have shape : entriesOf (deferred.get (py "deferred")) =
      entriesOf (turn.get (py "deferred")) ++
        (deferrals.filterMap id).map (MovedDate.deferral reason) := by
    have dicts : ∀ e ∈ (deferrals.filterMap id).map (MovedDate.deferral reason), isDict e = true := by
      intro e member
      obtain ⟨m, _, rfl⟩ := List.mem_map.mp member
      rfl
    rcases appendDeferred_eq_some added with ⟨none_, rfl⟩ | ⟨_, items, rfl, held⟩
    · rw [none_, List.append_nil]
    · rw [Dict.get_set_self]
      refine entriesOf_append ?_ dicts
      rcases held with held | ⟨absent, none_⟩
      · exact .inl held
      · exact .inr ⟨Dict.get_of_not_has absent, none_⟩
  have freshOnes : ∀ m ∈ deferrals.filterMap id, m ∈ facts.filterMap judge ∧
      keyIn m.fieldId already = some false := by
    intro m member
    obtain ⟨verdict, reached, same⟩ := List.mem_filterMap.mp member
    obtain ⟨original, listed_, here⟩ := mem_of_mapM fresh reached
    rw [show verdict = some m from same] at here
    obtain ⟨rfl, absent⟩ := notDeferredYet_eq_some here
    exact ⟨listed_, absent⟩
  have entries_ : entriesOf (turn.get (py "facts")) = facts.filter isDict := by
    rw [listed]
    rfl
  refine ⟨?_, ?_, ?_, ?_⟩
  · rw [facts', entries_, entriesOf, List.filter_filter, List.filter_filter]
    refine List.filter_congr fun f _ => ?_
    rw [Bool.and_comm, Option.not_isSome]
  · intro d member
    rw [deferred', shape]
    exact List.mem_append_left _ member
  · intro d member
    rw [deferred', shape] at member
    rcases List.mem_append.mp member with old | new
    · exact .inl old
    · obtain ⟨m, found, rfl⟩ := List.mem_map.mp new
      obtain ⟨f, filed, judged⟩ := List.mem_filterMap.mp (freshOnes m found).1
      obtain ⟨dict, same⟩ := test _ _ judged
      refine .inr ⟨f, ?_, by rw [judged]; rfl, ?_⟩
      · rw [entries_]
        exact List.mem_filter.mpr ⟨filed, dict⟩
      · rw [← same]
        rfl
  · intro f member moved
    obtain ⟨m, judged⟩ := Option.isSome_iff_exists.mp moved
    obtain ⟨dict, same⟩ := test _ _ judged
    rw [entries_] at member
    have listed_ : m ∈ facts.filterMap judge :=
      List.mem_filterMap.mpr ⟨f, List.mem_of_mem_filter member, judged⟩
    obtain ⟨verdict, reached, here⟩ := mapM_mem fresh listed_
    obtain ⟨already_, keyed, outcome⟩ := Option.map_eq_some_iff.mp here
    obtain ⟨hashable, listing⟩ := keyIn_eq_some keyed
    rw [deferred', shape, ← same]
    cases already_ with
    | false =>
        -- its deferral is one of the appended
        cases outcome
        refine ⟨m.deferral reason, List.mem_append_right _ (List.mem_map_of_mem ?_),
          Json.sameKey_refl hashable⟩
        exact List.mem_filterMap.mpr ⟨some m, reached, rfl⟩
    | true =>
        obtain ⟨b, found, equal⟩ := List.any_eq_true.mp listing.symm
        rw [ids] at found
        obtain ⟨d, held_, rfl⟩ := List.mem_map.mp found
        obtain ⟨held_, dict'⟩ := List.mem_filter.mp held_
        refine ⟨d, List.mem_append_left _ ?_, equal⟩
        exact mem_entriesOf_of_iterate held held_ dict'

/-- A date guard moves dates, whether or not it finds any. -/
theorem movesDates_deferDates {judge : Json → Option MovedDate} {reason : PyStr} {turn turn' : Dict}
    {info : Option (List Json)} (test : JudgesFacts judge)
    (run : (deferDates judge reason).onTurn turn = some (turn', info)) :
    MovesDates (fun f => (judge f).isSome) turn turn' := by
  obtain ⟨outcome, guarded, same⟩ := Option.map_eq_some_iff.mp run
  cases outcome with
  | some changed =>
      obtain ⟨changed, entries⟩ := changed
      cases same
      exact movesDates_of_changed test guarded
  | none =>
      cases same
      refine MovesDates.quiet fun f member => ?_
      rw [entriesOf.eq_def] at member
      split at member
      · next facts listed =>
        rw [deferDates, listed] at guarded
        obtain ⟨items, _, guarded⟩ := Option.bind_eq_some_iff.mp guarded
        obtain ⟨already, _, guarded⟩ := Option.bind_eq_some_iff.mp guarded
        obtain ⟨deferrals, _, guarded⟩ := Option.bind_eq_some_iff.mp guarded
        obtain ⟨deferred, _, guarded⟩ := Option.bind_eq_some_iff.mp guarded
        split at guarded
        · next none_ =>
          rw [List.isEmpty_iff, List.filterMap_map, List.filterMap_eq_nil_iff] at none_
          rw [show judge f = none from none_ f (List.mem_of_mem_filter member)]
          rfl
        · obtain ⟨_, _, impossible⟩ := Option.bind_eq_some_iff.mp guarded
          cases impossible
      · cases member

theorem unspokenDay_judges (said : PyStr) (knownFacts conversation : Option PyStr) :
    JudgesFacts (unspokenDay said knownFacts conversation) := by
  intro f moved judged
  rw [unspokenDay] at judged
  split at judged
  · cases judged
  · next dict =>
    split at judged
    · cases judged
    · obtain ⟨_, none_⟩ | ⟨_, outcome⟩ := ite_eq_iff.mp judged
      · cases none_
      · cases outcome
        exact ⟨by simpa using dict, rfl⟩

theorem offPartial_judges (knownFacts : Option PyStr) (said : PyStr) :
    JudgesFacts (offPartial knownFacts said) := by
  intro f moved judged
  obtain ⟨_, none_⟩ | ⟨dated, judged⟩ := ite_eq_iff.mp judged
  · cases none_
  split at judged
  · cases judged
  · obtain ⟨_, none_⟩ | ⟨_, outcome⟩ := ite_eq_iff.mp judged
    · cases none_
    · cases outcome
      refine ⟨?_, rfl⟩
      by_contra other
      rw [if_neg other] at dated
      exact dated rfl

/-! ### The chain -/

/-- The dates that `defer_dates_with_unspoken_day` moves. -/
def movesForDay (input : GuardInput) (f : Json) : Bool :=
  match input.userContent with
  | some said => said != [] && (unspokenDay said input.knownFacts input.conversation f).isSome
  | none => false

/-- The dates that `defer_dates_off_their_known_partial` moves. -/
def movesForPartial (input : GuardInput) (f : Json) : Bool :=
  match input.userContent with
  | some said =>
      orEmpty input.knownFacts != [] && (offPartial input.knownFacts (fold said) f).isSome
  | none => false

/-- The dates that one of the two moves. -/
def movesDate (input : GuardInput) (f : Json) : Bool := movesForDay input f || movesForPartial input f

/-- No date that moves leaves behind another fact of its field. -/
def DatesLeaveTheirFields (input : GuardInput) (turn : Dict) : Prop :=
  ∀ f ∈ entriesOf (turn.get (py "facts")), ∀ m ∈ entriesOf (turn.get (py "facts")),
    movesDate input f = false → movesDate input m = true → ¬SharesField f m

/-- A date guard that is at work only where its inputs are there. -/
theorem movesDates_logged {guard : Guard (List Json)} (active : Bool)
    (judge : Json → Option MovedDate) (reason : PyStr) (test : JudgesFacts judge)
    (quiet : active = false → ∀ turn, guard turn = some none)
    (works : active = true → ∀ turn, guard turn = deferDates judge reason turn)
    {s s' : GuardState Dict} (run : s.logged Guard.onTurn guard = some s') :
    MovesDates (fun f => active && (judge f).isSome) s.response s'.response := by
  obtain ⟨⟨turn', info⟩, guarded, rfl⟩ := Option.map_eq_some_iff.mp run
  cases active with
  | false =>
      obtain ⟨outcome, here, same⟩ := Option.map_eq_some_iff.mp guarded
      rw [quiet rfl, Option.some.injEq] at here
      rw [← here] at same
      cases same
      exact MovesDates.quiet fun _ _ => rfl
  | true =>
      have guarded : (deferDates judge reason).onTurn s.response = some (turn', info) := by
        rw [Guard.onTurn, ← works rfl]
        exact guarded
      exact movesDates_deferDates test guarded

theorem step_unspokenDays {input : GuardInput} {s s' : GuardState Dict}
    (step : (turnMachine input).step .unspokenDays s = some s') :
    MovesDates (movesForDay input) s.response s'.response := by
  change guardStepOn _ input .unspokenDays s = some s' at step
  rw [guardStepOn] at step
  split at step
  · next said given =>
    have moves : movesForDay input = fun f =>
        said != [] && (unspokenDay said input.knownFacts input.conversation f).isSome := by
      funext f
      rw [movesForDay, given]
    rw [moves]
    refine movesDates_logged (said != []) (unspokenDay said input.knownFacts input.conversation)
      inventedDayReason (unspokenDay_judges _ _ _) (fun silent turn => ?_) (fun spoken turn => ?_) step
    · have silent : said = [] := by simpa using silent
      exact if_pos silent
    · have spoken : said ≠ [] := by simpa using spoken
      exact if_neg spoken
  · next absent =>
    cases step
    refine MovesDates.quiet fun f _ => ?_
    rw [movesForDay, absent]

theorem step_offPartials {input : GuardInput} {s s' : GuardState Dict}
    (step : (turnMachine input).step .offPartials s = some s') :
    MovesDates (movesForPartial input) s.response s'.response := by
  change guardStepOn _ input .offPartials s = some s' at step
  rw [guardStepOn] at step
  split at step
  · next said given =>
    have moves : movesForPartial input = fun f =>
        orEmpty input.knownFacts != [] && (offPartial input.knownFacts (fold said) f).isSome := by
      funext f
      rw [movesForPartial, given]
    rw [moves]
    refine movesDates_logged (orEmpty input.knownFacts != []) (offPartial input.knownFacts (fold said))
      offPartialReason (offPartial_judges _ _) (fun absent turn => ?_) (fun known turn => ?_) step
    · have absent : orEmpty input.knownFacts = [] := by simpa using absent
      exact if_pos absent
    · have known : orEmpty input.knownFacts ≠ [] := by simpa using known
      exact if_neg known
  · next absent =>
    cases step
    refine MovesDates.quiet fun f _ => ?_
    rw [movesForPartial, absent]

/-- The guards before the one that separates facts and deferrals. -/
def stepsBeforeSeparation : List GuardStep :=
  [.readbacks, .staleAsking, .wrongDigitCount, .notAsSaid, .reask, .occupations, .probation, .trips,
    .evidence, .pushedBackNo, .settledQuestion, .strayDeferrals, .unknownOrigins]

/-- The guards up to the date guards. -/
def stepsBeforeDates : List GuardStep := stepsBeforeSeparation ++ [.alsoDeferred, .nonAnswer]

/-- The guards after the date guards. -/
def stepsAfterDates : List GuardStep :=
  [.replyShape, .interviewOver, .options, .battery, .checkpointBesideAsking, .unusableReply]

theorem factAndDeferral_congr {before after : Dict}
    (facts : after.get (py "facts") = before.get (py "facts"))
    (deferred : after.get (py "deferred") = before.get (py "deferred")) :
    FactAndDeferral after ↔ FactAndDeferral before := by
  rw [FactAndDeferral, FactAndDeferral, facts, deferred]

/-- From a response in which they are apart, the date guards bring a fact and a deferral of one field
together exactly when a date that moves leaves behind another fact of its field. -/
theorem factAndDeferral_of_movesDates {input : GuardInput} {before after : Dict}
    (canonical : (Json.obj after).Canonical) (canonical' : (Json.obj before).Canonical)
    (apart : ¬FactAndDeferral before) (moves : MovesDates (movesDate input) before after) :
    ¬FactAndDeferral after ↔ DatesLeaveTheirFields input before := by
  have value : ∀ {turn : Dict} {key : String}, (Json.obj turn).Canonical →
      ∀ e ∈ entriesOf (turn.get (py key)), (e.field "field_id").Canonical :=
    fun start e member => canonical_field (canonical_entriesOf start member) "field_id"
  constructor
  · rintro never f fact m moved stays moves_ ⟨named, same⟩
    obtain ⟨d, deferral, same'⟩ := moves.deferred m moved moves_
    refine never ⟨f, ?_, d, deferral, named, ?_⟩
    · rw [moves.facts]
      exact List.mem_filter.mpr ⟨fact, by rw [stays]; rfl⟩
    · exact Json.sameKey_trans (value canonical' f fact) (value canonical' m moved)
        (value canonical d deferral) same same'
  · rintro leave ⟨f, fact, d, deferral, shared⟩
    rw [moves.facts] at fact
    obtain ⟨fact, stays⟩ := List.mem_filter.mp fact
    rcases moves.origin d deferral with earlier | ⟨m, moved, moves_, same⟩
    · exact apart ⟨f, fact, d, earlier, shared⟩
    · refine leave f fact m moved (by simpa using stays) moves_ ⟨shared.1, ?_⟩
      rw [← same]
      exact shared.2

/-- No field of a guarded response is a fact and a deferral exactly when, in the response that reaches
the date guards, every date that moves leaves no other fact of its field behind. -/
theorem fact_or_deferral_iff {input : GuardInput} {text out : PyStr} {turn : Dict}
    (read : turnOf text = some turn) (run : guardResponseText input text = some out) :
    ∃ st, (turnMachine input).run stepsBeforeDates (.init turn) = some st ∧
      ((∀ turn', turnOf out = some turn' → ¬FactAndDeferral turn') ↔
        DatesLeaveTheirFields input st.response) := by
  obtain ⟨turn', written, guarded⟩ := guardTurn_of_guardResponseText read run
  obtain ⟨last, chain, rfl⟩ := Option.map_eq_some_iff.mp guarded
  have parts : guardOrder = stepsBeforeSeparation ++
      (.alsoDeferred :: .nonAnswer :: .unspokenDays :: .offPartials :: stepsAfterDates) := rfl
  rw [parts, Machine.run_append] at chain
  obtain ⟨s₀, before, chain⟩ := Option.bind_eq_some_iff.mp chain
  obtain ⟨s₁, separates, chain⟩ := Machine.run_cons_eq_some.mp chain
  obtain ⟨s₂, marks, chain⟩ := Machine.run_cons_eq_some.mp chain
  obtain ⟨s₃, days, chain⟩ := Machine.run_cons_eq_some.mp chain
  obtain ⟨s₄, partials, after⟩ := Machine.run_cons_eq_some.mp chain
  have start : (Json.obj s₀.response).Canonical := run_canonical (canonical_turnOf read) before
  have canonical₁ := (step_edits separates).canonical start
  have canonical₂ := (step_edits marks).canonical canonical₁
  have canonical₃ := (step_edits days).canonical canonical₂
  have canonical₄ := (step_edits partials).canonical canonical₃
  have apart : ¬FactAndDeferral s₁.response := by
    obtain ⟨⟨t, info⟩, guard, rfl⟩ := Option.map_eq_some_iff.mp separates
    exact dropFactsThatAreAlsoDeferred_separates start guard
  have apart₂ : ¬FactAndDeferral s₂.response := by
    rw [factAndDeferral_congr (step_get marks (by decide)) (step_get marks (by decide))]
    exact apart
  have moves : MovesDates (movesDate input) s₂.response s₄.response :=
    (step_unspokenDays days).trans (step_offPartials partials)
  refine ⟨s₂, ?_, ?_⟩
  · rw [stepsBeforeDates, Machine.run_append, before]
    change (turnMachine input).run [.alsoDeferred, .nonAnswer] s₀ = some s₂
    rw [Machine.run_cons_of_step separates, Machine.run_cons_of_step marks]
    rfl
  · rw [← factAndDeferral_of_movesDates canonical₄ canonical₂ apart₂ moves,
      ← factAndDeferral_congr (run_get (by decide) after) (run_get (by decide) after)]
    constructor
    · exact fun never => never _ written
    · intro never turn' written'
      rw [written, Option.some.injEq] at written'
      rw [← written']
      exact never

end

/-! ### A month and its invented day -/

/-- She has just said a month and a year. -/
def saidMay : GuardInput where
  agenda := none
  userContent := some (py "may 2020")
  conversation := none
  choiceFields := .null
  locale := some (py "en")
  knownFacts := none
  lineIds := none

/-- The response files them, and a day of its own for the same field. -/
def mayAndItsFirst : PyStr :=
  py "\x7b\"facts\": [\x7b\"field_id\": \"p4.address1.from\", \"value\": \"2020-05-01\", " ++
    py "\"provenance\": \x7b\"utterance\": \"May 2020\"\x7d\x7d, " ++
    py "\x7b\"field_id\": \"p4.address1.from\", \"value\": \"2020-05\", " ++
    py "\"provenance\": \x7b\"utterance\": \"May 2020\"\x7d\x7d]\x7d"

/-- The day is deferred and the month stays. -/
theorem mayAndItsFirst_guarded :
    letI := PyRuntime.ascii
    ∃ turn turn', turnOf mayAndItsFirst = some turn ∧ guardTurn saidMay turn = some turn' ∧
      FactAndDeferral turn' := by
  let _ := PyRuntime.ascii
  have both : ((turnOf mayAndItsFirst).any fun turn =>
      (guardTurn saidMay turn).any fun turn' => decide (FactAndDeferral turn')) = true := by
    decide +kernel
  obtain ⟨turn, read, guarded⟩ := (Option.any_eq_true _ _).mp both
  obtain ⟨turn', run, here⟩ := (Option.any_eq_true _ _).mp guarded
  exact ⟨turn, turn', read, run, of_decide_eq_true here⟩

theorem fact_or_deferral_iff_may :
    letI := PyRuntime.ascii
    ∃ out st, guardResponseText saidMay mayAndItsFirst = some out ∧
      ((∀ turn', turnOf out = some turn' → ¬FactAndDeferral turn') ↔
        DatesLeaveTheirFields saidMay st) := by
  let _ := PyRuntime.ascii
  obtain ⟨turn, turn', read, run, _⟩ := mayAndItsFirst_guarded
  obtain ⟨out, written, _⟩ := guardResponseText_of_guardTurn read run
  obtain ⟨st, _, exactly⟩ := fact_or_deferral_iff read written
  exact ⟨out, st.response, written, exactly⟩

/-- The field of the month is a fact and a deferral. -/
theorem month_beside_its_deferral :
    letI := PyRuntime.ascii
    ¬∀ (input : GuardInput) (text out : PyStr) (turn turn' : Dict), turnOf text = some turn →
      guardResponseText input text = some out → turnOf out = some turn' → ¬FactAndDeferral turn' := by
  let _ := PyRuntime.ascii
  intro never
  obtain ⟨turn, turn', read, run, both⟩ := mayAndItsFirst_guarded
  obtain ⟨out, written, reads⟩ := guardResponseText_of_guardTurn read run
  exact never saidMay mayAndItsFirst out turn turn' read written reads both

end GhostPour.N400
