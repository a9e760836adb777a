/-
Module: GhostPour.N400.Proofs.HerFacts
Layer: Proofs
Purpose: The guards invent no fact. Every fact of a guarded response is a fact of the response, in its
  order and with its words, but for an occupation that is rewritten; what is added is at most a
  probation she never had and the gate after the trips she counted, each citing words of hers.
Trusted boundary: none
Main exports: Rewritten, HerFacts, OnlyHerFacts, guardResponseText_facts
-/
import GhostPour.N400.Proofs.GuardRuns

namespace GhostPour.N400

section

variable [PyRuntime]

/-! ### What the facts of a guarded response are -/

/-- A fact and what the guards leave of it: the fact, or the occupation with the value that
`fix_occupations` gives it. -/
inductive Rewritten (knownFacts : Option PyStr) : Json → Json → Prop where
  | same (f : Json) : Rewritten knownFacts f f
  | occupation {d : Dict} {fid value : PyStr}
      (fix : occupationFix (knownOccupations knownFacts) (.obj d) = .rewritten fid value) :
      Rewritten knownFacts (.obj d) (.obj (Dict.set d (py "value") (.str value)))

/-- Nothing, or a probation she never had, filed with the words of hers that say so. -/
def ProbationFiled (input : GuardInput) (facts : List Json) : Prop :=
  facts = [] ∨ ∃ cited, facts = [filedFact probationField [] cited] ∧
    neverHadWords input.agenda (orEmpty input.userContent) = some cited ∧
    cited <:+: orEmpty input.userContent

/-- Nothing, or the gate after the last trip answered no, filed with the count she stated. -/
def TripsClosed (input : GuardInput) (facts : List Json) : Prop :=
  facts = [] ∨ ∃ word count cited, facts = [filedFact (tripGate (count + 1)) (py "no") cited] ∧
    statedTripCount (orEmpty input.userContent) = some (word, count) ∧
    saysWord word (countText (orEmpty input.userContent)) = true ∧
    cited <:+: orEmpty input.userContent

/-- Facts that come from the facts of the response: some of these, in order, occupations rewritten,
and then at most the two that the guards file. -/
def HerFacts (input : GuardInput) (before after : List Json) : Prop :=
  ∃ kept rewritten probation trips, kept.Sublist before ∧
    List.Forall₂ (Rewritten input.knownFacts) kept rewritten ∧ ProbationFiled input probation ∧
    TripsClosed input trips ∧ after = rewritten ++ (probation ++ trips)

/-- The `facts` of a guarded response: hers, or what was there, where that is not a list. -/
def OnlyHerFacts (input : GuardInput) (before after : Json) : Prop :=
  match before with
  | .arr facts => ∃ left, after = .arr left ∧ HerFacts input facts left
  | other => after = other

/-! ### Guards that file nothing -/

/-- `facts` after a guard that files nothing: some of the facts, in order. -/
def Shrinks (before after : Json) : Prop :=
  after = before ∨ ∃ facts kept, before = .arr facts ∧ after = .arr kept ∧ kept.Sublist facts

omit [PyRuntime] in
theorem Shrinks.trans {before between after : Json} (first : Shrinks before between)
    (second : Shrinks between after) : Shrinks before after := by
  rcases first with rfl | ⟨facts, kept, rfl, rfl, sub⟩
  · exact second
  · rcases second with rfl | ⟨facts', kept', same, rfl, sub'⟩
    · exact .inr ⟨facts, kept, rfl, rfl, sub⟩
    · cases same
      exact .inr ⟨facts, kept', rfl, rfl, sub'.trans sub⟩

theorem appendTo_get_of_ne {turn turn' : Dict} {key k : String} {more : List Json}
    (run : appendTo turn key more = some turn') (other : py key ≠ py k) :
    turn'.get (py k) = turn.get (py k) := by
  obtain ⟨items, rfl, _⟩ := appendTo_eq_some run
  exact Dict.get_set_of_ne _ _ other

theorem takeAway_get {turn turn' : Dict} {key mark : String} {kept dropped : List Json}
    (run : takeAway turn key kept mark dropped = some turn') (some_ : dropped ≠ [])
    (other : py mark ≠ py key) : turn'.get (py key) = .arr kept := by
  rcases takeAway_eq_some run with ⟨none_, _⟩ | ⟨_, added⟩
  · exact absurd none_ some_
  · rw [appendTo_get_of_ne added other, Dict.get_set_self]

theorem takeAway_get_of_ne {turn turn' : Dict} {key mark k : String} {kept dropped : List Json}
    (run : takeAway turn key kept mark dropped = some turn') (other : py key ≠ py k)
    (other' : py mark ≠ py k) : turn'.get (py k) = turn.get (py k) := by
  rcases takeAway_eq_some run with ⟨_, rfl⟩ | ⟨_, added⟩
  · rfl
  · rw [appendTo_get_of_ne added other', Dict.get_set_of_ne _ _ other]

theorem dropFacts_facts {ι : Type} {judge : Json → Py (Option ι)} {entry : ι → Json}
    {turn turn' : Dict} {dropped : List ι}
    (run : dropFacts judge entry turn = some (some (turn', dropped))) :
    ∃ facts verdicts, turn.get (py "facts") = .arr facts ∧ facts.mapM judge = some verdicts ∧
      turn'.get (py "facts") = .arr (keptOf facts verdicts) := by
  obtain ⟨facts, verdicts, listed, judged, rfl, some_, taken⟩ := dropFacts_eq_some run
  have entries : (verdicts.filterMap id).map entry ≠ [] := by simpa using some_
  exact ⟨facts, verdicts, listed, judged, takeAway_get taken entries (by decide)⟩

/-- A guard whose changes take facts away and file none. -/
def Guard.FilesNothing {ι : Type} (guard : Guard ι) : Prop :=
  ∀ {turn turn' : Dict} {info : ι}, guard turn = some (some (turn', info)) →
    Shrinks (turn.get (py "facts")) (turn'.get (py "facts"))

theorem filesNothing_dropFacts {ι : Type} (judge : Json → Py (Option ι)) (entry : ι → Json) :
    (dropFacts judge entry).FilesNothing := by
  intro turn turn' dropped run
  obtain ⟨facts, verdicts, listed, _, left⟩ := dropFacts_facts run
  exact .inr ⟨facts, _, listed, left, keptOf_sublist facts verdicts⟩

theorem dropFactsWithoutCurrentEvidence_facts {input : EvidenceInput} {turn turn' : Dict}
    {dropped : List Json}
    (run : dropFactsWithoutCurrentEvidence input turn = some (some (turn', dropped))) :
    ∃ facts verdicts, turn.get (py "facts") = .arr facts ∧
      facts.mapM (unsupportedOf input) = some verdicts ∧
      turn'.get (py "facts") = .arr (keptOf facts verdicts) := by
  obtain ⟨facts, verdicts, kept, listed, judged, _, _, rfl, outcome⟩ :=
    dropFactsWithoutCurrentEvidence_eq_some run
  refine ⟨facts, verdicts, listed, judged, ?_⟩
  have marked : (Dict.set (turn.set (py "facts") (.arr (keptOf facts verdicts)))
      (py "facts_dropped") (.arr dropped)).get (py "facts") = .arr (keptOf facts verdicts) := by
    rw [Dict.get_set_of_ne _ _ (by decide), Dict.get_set_self]
  rcases outcome with rfl | rfl
  · exact marked
  · rw [Dict.get_set_of_ne _ _ (by decide)]
    exact marked

theorem filesNothing_dropFactsThatAreAlsoDeferred : dropFactsThatAreAlsoDeferred.FilesNothing := by
  intro turn turn' info run
  obtain ⟨deferred, facts, stands, gaps, captured, verdicts, factIds, gapVerdicts, marked, listed,
    filed, _, _, _, _, first, second⟩ := dropFactsThatAreAlsoDeferred_changes run
  rw [takeAway_get_of_ne second (by decide) (by decide)]
  rcases takeAway_eq_some first with ⟨_, rfl⟩ | ⟨some_, _⟩
  · exact .inl rfl
  · exact .inr ⟨facts, _, filed, takeAway_get first some_ (by decide), keptOf_sublist facts verdicts⟩

theorem deferDates_facts {judge : Json → Option MovedDate} {reason : PyStr} {turn turn' : Dict}
    {entries : List Json} (run : deferDates judge reason turn = some (some (turn', entries))) :
    ∃ facts, turn.get (py "facts") = .arr facts ∧
      turn'.get (py "facts") = .arr (facts.filter fun f => (judge f).isNone) := by
  obtain ⟨facts, _, _, _, deferred, listed, _, _, _, _, _, _, marked⟩ := deferDates_eq_some run
  refine ⟨facts, listed, ?_⟩
  rw [appendTo_get_of_ne marked (by decide), Dict.get_set_self, keptOf_map]

theorem filesNothing_deferDates (judge : Json → Option MovedDate) (reason : PyStr) :
    (deferDates judge reason).FilesNothing := by
  intro turn turn' entries run
  obtain ⟨facts, listed, left⟩ := deferDates_facts run
  exact .inr ⟨facts, _, listed, left, List.filter_sublist⟩

/-- The guards that file or rewrite facts. -/
def filingSteps : List GuardStep := [.occupations, .probation, .trips]

omit [PyRuntime] in
theorem shrinks_through {ι : Type} {guard : Guard ι} (nothing : guard.FilesNothing)
    {note : List ι → GuardState Dict → GuardState Dict}
    (noted : ∀ info s, (note info s).response = s.response) {s s' : GuardState Dict}
    (run : s.through Guard.onTurn guard note = some s') :
    Shrinks (s.response.get (py "facts")) (s'.response.get (py "facts")) := by
  rcases through_eq_some noted run with ⟨_, same⟩ | ⟨info, changed⟩
  · rw [same]
    exact .inl rfl
  · exact nothing changed

theorem step_shrinks {input : GuardInput} {a : GuardStep} (other : a ∉ filingSteps)
    {s s' : GuardState Dict} (step : (turnMachine input).step a s = some s') :
    Shrinks (s.response.get (py "facts")) (s'.response.get (py "facts")) := by
  have logged : ∀ {ι : Type} {guard : Guard ι}, guard.FilesNothing →
      s.logged Guard.onTurn guard = some s' →
      Shrinks (s.response.get (py "facts")) (s'.response.get (py "facts")) :=
    fun nothing run => shrinks_through nothing (fun _ _ => rfl) run
  cases a with
  | wrongDigitCount =>
      exact shrinks_through (filesNothing_dropFacts _ _) GuardState.noteWrongCount_response step
  | notAsSaid =>
      exact shrinks_through (filesNothing_dropFacts _ _) GuardState.noteNotAsSaid_response step
  | evidence =>
      change guardStepOn _ input .evidence s = some s' at step
      rw [guardStepOn] at step
      split at step
      · refine logged (fun run => ?_) step
        obtain ⟨facts, verdicts, listed, _, left⟩ := dropFactsWithoutCurrentEvidence_facts run
        exact .inr ⟨facts, _, listed, left, keptOf_sublist facts verdicts⟩
      · cases step
        exact .inl rfl
  | pushedBackNo =>
      refine logged (fun run => ?_) step
      rw [dropNoThatPushedBack] at run
      split at run
      · cases run
      · exact filesNothing_dropFacts _ _ run
  | alsoDeferred => exact logged filesNothing_dropFactsThatAreAlsoDeferred step
  | unspokenDays =>
      change guardStepOn _ input .unspokenDays s = some s' at step
      rw [guardStepOn] at step
      split at step
      · refine logged (fun run => ?_) step
        rw [deferDatesWithUnspokenDay] at run
        split at run
        · cases run
        · exact filesNothing_deferDates _ _ run
      · cases step
        exact .inl rfl
  | offPartials =>
      change guardStepOn _ input .offPartials s = some s' at step
      rw [guardStepOn] at step
      split at step
      · refine logged (fun run => ?_) step
        rw [deferDatesOffTheirKnownPartial] at run
        split at run
        · cases run
        · exact filesNothing_deferDates _ _ run
      · cases step
        exact .inl rfl
  | occupations | probation | trips => exact absurd (by decide) other
  | _ => exact .inl (step_get step (by decide))

/-- The facts over a run of guards that file nothing. -/
theorem run_shrinks {input : GuardInput} {steps : List GuardStep}
    (others : ∀ a ∈ steps, a ∉ filingSteps) {s last : GuardState Dict}
    (run : (turnMachine input).run steps s = some last) :
    Shrinks (s.response.get (py "facts")) (last.response.get (py "facts")) :=
  Machine.run_transitive (R := fun s s' : GuardState Dict =>
      Shrinks (s.response.get (py "facts")) (s'.response.get (py "facts")))
    (fun _ => .inl rfl) (fun _ _ _ first second => first.trans second)
    (fun a listed _ _ step => step_shrinks (others a listed) step) run

/-! ### Guards that file -/

omit [PyRuntime] in
/-- What is taken away after a list of pairs is taken away before. -/
theorem sublist_of_forall₂ {R : Json → Json → Prop} {kept : List Json} {left after : List Json}
    (sub : after.Sublist left) (each : List.Forall₂ R kept left) :
    ∃ fewer, fewer.Sublist kept ∧ List.Forall₂ R fewer after := by
  induction sub generalizing kept with
  | slnil => exact ⟨kept, List.Sublist.refl kept, each⟩
  | cons v _ ih =>
      cases each with
      | cons _ rest =>
          obtain ⟨fewer, sub, related⟩ := ih rest
          exact ⟨fewer, sub.cons _, related⟩
  | cons_cons v _ ih =>
      cases each with
      | cons here rest =>
          obtain ⟨fewer, sub, related⟩ := ih rest
          exact ⟨_ :: fewer, sub.cons_cons _, .cons here related⟩

theorem ProbationFiled.sublist {input : GuardInput} {facts fewer : List Json}
    (filed : ProbationFiled input facts) (sub : fewer.Sublist facts) : ProbationFiled input fewer := by
  rcases filed with rfl | ⟨cited, rfl, words, hers⟩
  · exact .inl (List.sublist_nil.mp sub)
  · rcases List.sublist_singleton.mp sub with rfl | rfl
    · exact .inl rfl
    · exact .inr ⟨cited, rfl, words, hers⟩

theorem TripsClosed.sublist {input : GuardInput} {facts fewer : List Json}
    (closed : TripsClosed input facts) (sub : fewer.Sublist facts) : TripsClosed input fewer := by
  rcases closed with rfl | ⟨word, count, cited, rfl, hers⟩
  · exact .inl (List.sublist_nil.mp sub)
  · rcases List.sublist_singleton.mp sub with rfl | rfl
    · exact .inl rfl
    · exact .inr ⟨word, count, cited, rfl, hers⟩

theorem HerFacts.sublist {input : GuardInput} {before after fewer : List Json}
    (hers : HerFacts input before after) (sub : fewer.Sublist after) :
    HerFacts input before fewer := by
  obtain ⟨kept, rewritten, probation, trips, from_, each, filed, closed, rfl⟩ := hers
  obtain ⟨rewritten', added, rfl, first, second⟩ := List.sublist_append_iff.mp sub
  obtain ⟨probation', trips', rfl, third, fourth⟩ := List.sublist_append_iff.mp second
  obtain ⟨kept', fewer_, each'⟩ := sublist_of_forall₂ first each
  exact ⟨kept', rewritten', probation', trips', fewer_.trans from_, each', filed.sublist third,
    closed.sublist fourth, rfl⟩

theorem rewritten_of_fact {knownFacts : Option PyStr} {f g : Json}
    (stays : (occupationFix (knownOccupations knownFacts) f).fact f = some g) :
    Rewritten knownFacts f g := by
  cases fix : occupationFix (knownOccupations knownFacts) f with
  | kept =>
      rw [fix] at stays
      cases stays
      exact .same f
  | dropped fid reason =>
      rw [fix] at stays
      cases stays
  | rewritten fid value =>
      rw [fix] at stays
      cases f with
      | obj d =>
          cases stays
          exact .occupation fix
      | _ =>
          cases stays
          exact .same _

theorem occupations_left (knownFacts : Option PyStr) (facts : List Json) :
    ∃ kept, kept.Sublist facts ∧ List.Forall₂ (Rewritten knownFacts) kept
      ((facts.zip (facts.map (occupationFix (knownOccupations knownFacts)))).filterMap
        (fun entry => entry.2.fact entry.1)) := by
  induction facts with
  | nil => exact ⟨[], List.Sublist.refl [], .nil⟩
  | cons f facts ih =>
      obtain ⟨kept, sub, each⟩ := ih
      rw [List.map_cons, List.zip_cons_cons, List.filterMap_cons]
      split
      · exact ⟨kept, sub.cons f, each⟩
      · next g stays => exact ⟨f :: kept, sub.cons_cons f, .cons (rewritten_of_fact stays) each⟩

/-- The occupations of a list of facts are fixed, or the facts stay as they are. -/
theorem step_occupations {input : GuardInput} {s s' : GuardState Dict}
    (step : (turnMachine input).step .occupations s = some s') :
    s'.response.get (py "facts") = s.response.get (py "facts") ∨
      ∃ facts kept rewritten, s.response.get (py "facts") = .arr facts ∧
        s'.response.get (py "facts") = .arr rewritten ∧ kept.Sublist facts ∧
        List.Forall₂ (Rewritten input.knownFacts) kept rewritten := by
  rcases logged_eq_some step with ⟨_, same⟩ | ⟨changes, changed⟩
  · rw [same]
    exact .inl rfl
  · obtain ⟨facts, rewritten, listed, rfl, outcome⟩ := fixOccupations_eq_some changed
    obtain ⟨kept, sub, each⟩ := occupations_left input.knownFacts facts
    refine .inr ⟨facts, kept, _, listed, ?_, sub, each⟩
    rcases outcome with ⟨_, fixed⟩ | added
    · rw [fixed, Dict.get_set_self]
    · rw [appendTo_get_of_ne added (by decide), Dict.get_set_self]

theorem neverHadWords_infix {agenda : Option PyStr} {userContent cited : PyStr}
    (words : neverHadWords agenda userContent = some cited) : cited <:+: userContent := by
  rw [neverHadWords] at words
  split at words
  · obtain ⟨m, _, rfl⟩ := Option.map_eq_some_iff.mp words
    exact (List.drop_suffix _ _).isInfix.trans (List.take_prefix _ _).isInfix
  · cases words

theorem countCitation_infix (userContent word : PyStr) :
    countCitation userContent word <:+: userContent :=
  (List.take_prefix _ _).isInfix.trans (List.drop_suffix _ _).isInfix

omit [PyRuntime] in
theorem longestWord_mem {hits : List (PyStr × Nat)} {hit : PyStr × Nat}
    (chosen : longestWord hits = some hit) : hit ∈ hits := by
  cases hits with
  | nil => cases chosen
  | cons first hits =>
      have best : ∀ (rest : List (PyStr × Nat)) (h : PyStr × Nat),
          rest.foldl (fun best h => if best.1.length < h.1.length then h else best) h ∈
            h :: rest := by
        intro rest
        induction rest with
        | nil => exact fun h => List.mem_singleton.mpr rfl
        | cons h' rest ih =>
            intro h
            rw [List.foldl_cons]
            split
            · exact List.mem_cons_of_mem h (ih h')
            · rcases List.mem_cons.mp (ih h) with same | later
              · rw [same]
                exact List.mem_cons_self
              · exact List.mem_cons_of_mem h (List.mem_cons_of_mem h' later)
      cases chosen
      exact best hits first

theorem saysWord_of_statedTripCount {userContent word : PyStr} {count : Nat}
    (stated : statedTripCount userContent = some (word, count)) :
    saysWord word (countText userContent) = true := by
  rw [statedTripCount] at stated
  split at stated
  · have listed := longestWord_mem stated
    exact (List.mem_filter.mp listed).2
  · cases stated

/-- A probation is filed after the facts, or the facts stay as they are. -/
theorem step_probation {input : GuardInput} {s s' : GuardState Dict}
    (step : (turnMachine input).step .probation s = some s') :
    s'.response.get (py "facts") = s.response.get (py "facts") ∨
      ∃ facts added, s.response.get (py "facts") = .arr facts ∧
        s'.response.get (py "facts") = .arr (facts ++ added) ∧ ProbationFiled input added := by
  have step : s.logged Guard.onTurn (fileProbationNeverHad input.agenda input.userContent) =
      some s' := step
  rcases logged_eq_some step with ⟨_, same⟩ | ⟨fid, changed⟩
  · rw [same]
    exact .inl rfl
  · obtain ⟨_, cited, words, filed⟩ := fileProbationNeverHad_eq_some changed
    obtain ⟨facts, listed, _, fixed⟩ := fileFact_eq_some filed
    refine .inr ⟨facts, _, listed, ?_, .inr ⟨cited, rfl, words, neverHadWords_infix words⟩⟩
    rw [fixed, Dict.get_set_self]

/-- A trip gate is filed after the facts, or the facts stay as they are. -/
theorem step_trips {input : GuardInput} {s s' : GuardState Dict}
    (step : (turnMachine input).step .trips s = some s') :
    s'.response.get (py "facts") = s.response.get (py "facts") ∨
      ∃ facts added, s.response.get (py "facts") = .arr facts ∧
        s'.response.get (py "facts") = .arr (facts ++ added) ∧ TripsClosed input added := by
  have step : s.logged Guard.onTurn (closeTripsOnStatedCount input.userContent) = some s' := step
  rcases logged_eq_some step with ⟨_, same⟩ | ⟨info, changed⟩
  · rw [same]
    exact .inl rfl
  · obtain ⟨word, count, _, _, stated, _, _, filed⟩ := closeTripsOnStatedCount_eq_some changed
    obtain ⟨facts, listed, _, fixed⟩ := fileFact_eq_some filed
    have closed : TripsClosed input [filedFact (tripGate (count + 1)) (py "no")
        (countCitation (orEmpty input.userContent) word)] :=
      .inr ⟨word, count, _, rfl, stated, saysWord_of_statedTripCount stated,
        countCitation_infix _ word⟩
    exact .inr ⟨facts, _, listed, by rw [fixed, Dict.get_set_self], closed⟩

/-! ### The chain -/

theorem Rewritten.refl_list (knownFacts : Option PyStr) (facts : List Json) :
    List.Forall₂ (Rewritten knownFacts) facts facts :=
  List.forall₂_same.mpr fun f _ => .same f

/-- The facts over the three guards that file or rewrite facts. -/
theorem filing_facts {input : GuardInput} {s last : GuardState Dict} {facts : List Json}
    (listed : s.response.get (py "facts") = .arr facts)
    (run : (turnMachine input).run filingSteps s = some last) :
    ∃ left, last.response.get (py "facts") = .arr left ∧ HerFacts input facts left := by
  obtain ⟨s₁, occupations, run⟩ := Machine.run_cons_eq_some.mp run
  obtain ⟨s₂, probation, run⟩ := Machine.run_cons_eq_some.mp run
  obtain ⟨s₃, trips, run⟩ := Machine.run_cons_eq_some.mp run
  cases run
  obtain ⟨kept, rewritten, listed₁, sub, each⟩ : ∃ kept rewritten,
      s₁.response.get (py "facts") = .arr rewritten ∧ kept.Sublist facts ∧
        List.Forall₂ (Rewritten input.knownFacts) kept rewritten := by
    rcases step_occupations occupations with same | ⟨facts', kept, rewritten, listed', left, hers⟩
    · exact ⟨facts, facts, same.trans listed, List.Sublist.refl facts,
        Rewritten.refl_list input.knownFacts facts⟩
    · cases listed.symm.trans listed'
      exact ⟨kept, rewritten, left, hers⟩
  obtain ⟨never, listed₂, filed⟩ : ∃ never,
      s₂.response.get (py "facts") = .arr (rewritten ++ never) ∧ ProbationFiled input never := by
    rcases step_probation probation with same | ⟨facts', never, listed', left, filed⟩
    · exact ⟨[], by rw [same, listed₁, List.append_nil], .inl rfl⟩
    · cases listed₁.symm.trans listed'
      exact ⟨never, left, filed⟩
  obtain ⟨gate, listed₃, closed⟩ : ∃ gate,
      last.response.get (py "facts") = .arr (rewritten ++ never ++ gate) ∧ TripsClosed input gate := by
    rcases step_trips trips with same | ⟨facts', gate, listed', left, closed⟩
    · exact ⟨[], by rw [same, listed₂, List.append_nil], .inl rfl⟩
    · cases listed₂.symm.trans listed'
      exact ⟨gate, left, closed⟩
  refine ⟨_, listed₃, kept, rewritten, never, gate, sub, each, filed, closed, ?_⟩
  rw [List.append_assoc]

/-- Without a list of facts the three guards have nothing to do. -/
theorem filing_other {input : GuardInput} {s last : GuardState Dict}
    (other : ∀ facts, s.response.get (py "facts") ≠ .arr facts)
    (run : (turnMachine input).run filingSteps s = some last) :
    last.response.get (py "facts") = s.response.get (py "facts") := by
  obtain ⟨s₁, occupations, run⟩ := Machine.run_cons_eq_some.mp run
  obtain ⟨s₂, probation, run⟩ := Machine.run_cons_eq_some.mp run
  obtain ⟨s₃, trips, run⟩ := Machine.run_cons_eq_some.mp run
  cases run
  have first : s₁.response.get (py "facts") = s.response.get (py "facts") := by
    rcases step_occupations occupations with same | ⟨facts, _, _, listed, _⟩
    · exact same
    · exact absurd listed (other facts)
  have second : s₂.response.get (py "facts") = s.response.get (py "facts") := by
    rcases step_probation probation with same | ⟨facts, _, listed, _⟩
    · exact same.trans first
    · exact absurd (first.symm.trans listed) (other facts)
  rcases step_trips trips with same | ⟨facts, _, listed, _⟩
  · exact same.trans second
  · exact absurd (second.symm.trans listed) (other facts)

/-- The guards before the ones that file. -/
def stepsBeforeFiling : List GuardStep :=
  [.readbacks, .staleAsking, .wrongDigitCount, .notAsSaid, .reask]

/-- The guards after the ones that file. -/
def stepsAfterFiling : List GuardStep :=
  [.evidence, .pushedBackNo, .settledQuestion, .strayDeferrals, .unknownOrigins, .alsoDeferred,
    .nonAnswer, .unspokenDays, .offPartials, .replyShape, .interviewOver, .options, .battery,
    .checkpointBesideAsking, .unusableReply]

theorem guardTurn_facts {input : GuardInput} {turn turn' : Dict}
    (run : guardTurn input turn = some turn') :
    OnlyHerFacts input (turn.get (py "facts")) (turn'.get (py "facts")) := by
  obtain ⟨last, chain, rfl⟩ := Option.map_eq_some_iff.mp run
  have parts : guardOrder = stepsBeforeFiling ++ (filingSteps ++ stepsAfterFiling) := rfl
  rw [parts, Machine.run_append] at chain
  obtain ⟨s, before, rest⟩ := Option.bind_eq_some_iff.mp chain
  rw [Machine.run_append] at rest
  obtain ⟨t, filing, after⟩ := Option.bind_eq_some_iff.mp rest
  have first : Shrinks (turn.get (py "facts")) (s.response.get (py "facts")) :=
    run_shrinks (by decide) before
  have second := run_shrinks (by decide) after
  rw [OnlyHerFacts.eq_def]
  split
  · next facts listed =>
    rw [listed] at first
    obtain ⟨left, listed', sub⟩ : ∃ left, s.response.get (py "facts") = .arr left ∧
        left.Sublist facts := by
      rcases first with same | ⟨facts', left, same, listed', sub⟩
      · exact ⟨facts, same, List.Sublist.refl facts⟩
      · cases same
        exact ⟨left, listed', sub⟩
    obtain ⟨filed, reached, kept, rewritten, probation, trips, sub', hers⟩ :=
      filing_facts listed' filing
    have hers : HerFacts input facts filed := ⟨kept, rewritten, probation, trips, sub'.trans sub, hers⟩
    rcases second with same | ⟨facts', fewer, same, there, less⟩
    · exact ⟨filed, same.trans reached, hers⟩
    · cases reached.symm.trans same
      exact ⟨fewer, there, hers.sublist less⟩
  · next other =>
    have first : s.response.get (py "facts") = turn.get (py "facts") := by
      rcases first with same | ⟨facts, _, listed, _⟩
      · exact same
      · exact absurd listed (other facts)
    have filed := filing_other (fun facts => by rw [first]; exact other facts) filing
    rcases second with same | ⟨facts, _, listed, _⟩
    · exact same.trans (filed.trans first)
    · exact absurd (first.symm.trans (filed.symm.trans listed)) (other facts)

/-- Guards never invent facts. -/
theorem guardResponseText_facts {input : GuardInput} {text out : PyStr} {turn : Dict}
    (read : turnOf text = some turn) (run : guardResponseText input text = some out) :
    ∃ turn', turnOf out = some turn' ∧
      OnlyHerFacts input (turn.get (py "facts")) (turn'.get (py "facts")) := by
  obtain ⟨turn', written, guarded⟩ := guardTurn_of_guardResponseText read run
  exact ⟨turn', written, guardTurn_facts guarded⟩

end

/-! ### A plumber without a probation -/

/-- The probation question, answered with a never and an occupation. -/
def neverAndPlumber : GuardInput where
  agenda := some (py "n1 | p9 | p9.probation_completed | Done?")
  userContent := some (py "never, plumber")
  conversation := none
  choiceFields := .null
  locale := some (py "en")
  knownFacts := none
  lineIds := none

/-- Its occupation is filed as who employs her and the work. -/
def selfEmployedPlumber : PyStr :=
  py "\x7b\"facts\": [\x7b\"field_id\": \"p7.employer1.occupation\", " ++
    py "\"value\": \"self-employed plumber\", \"provenance\": \x7b\"utterance\": \"plumber\"\x7d\x7d]\x7d"

theorem guardResponseText_facts_plumber :
    letI := PyRuntime.ascii
    ∃ out turn turn', turnOf selfEmployedPlumber = some turn ∧
      guardResponseText neverAndPlumber selfEmployedPlumber = some out ∧ turnOf out = some turn' ∧
        OnlyHerFacts neverAndPlumber (turn.get (py "facts")) (turn'.get (py "facts")) := by
  let _ := PyRuntime.ascii
  have object : (turnOf selfEmployedPlumber).isSome = true := by decide +kernel
  have guarded : ((turnOf selfEmployedPlumber).bind (guardTurn neverAndPlumber)).isSome = true := by
    decide +kernel
  obtain ⟨turn, read⟩ := Option.isSome_iff_exists.mp object
  rw [read] at guarded
  obtain ⟨turn', run⟩ := Option.isSome_iff_exists.mp guarded
  obtain ⟨out, written, _⟩ := guardResponseText_of_guardTurn read run
  obtain ⟨left, reads, hers⟩ := guardResponseText_facts read written
  exact ⟨out, turn, left, read, written, reads, hers⟩

end GhostPour.N400
