/-
Module: GhostPour.N400.Proofs.RecordedDrops
Layer: Proofs
Purpose: Which drops stay visible. Every guard that takes a fact away says so in `facts_dropped`, and
  all but the evidence floor keep what was said before; so a drop is silent exactly when the floor
  takes a fact away after an earlier guard has taken away the last fact of a field.
Trusted boundary: none
Main exports: Carries, Recorded, Ledger, DropsRecorded, drops_recorded_iff
-/
import GhostPour.N400.Proofs.FactOrDeferral

namespace GhostPour.N400

/-! ### Facts and records of a field -/

/-- A fact of the response has a field id. -/
def Carries (turn : Dict) (fid : PyStr) : Prop :=
  ∃ f ∈ entriesOf (turn.get (py "facts")), f.field "field_id" = .str fid

/-- A drop of the response has a field id. -/
def Recorded (turn : Dict) (fid : PyStr) : Prop :=
  ∃ e ∈ entriesOf (turn.get (py "facts_dropped")), e.field "field_id" = .str fid

/-- The fields whose facts are gone afterwards have a record. -/
def DropsRecorded (before after : Dict) : Prop :=
  ∀ fid, Carries before fid → Carries after fid ∨ Recorded after fid

/-- Whether the facts are a list of objects with a string for a field id. -/
def namedFacts (turn : Dict) : Bool :=
  match turn.get (py "facts") with
  | .arr facts => facts.all fun f => (f.field "field_id" matches .str _)
  | _ => false

/-- What a guard does that keeps the records: a field whose fact it takes away has a record, the old
records stay, and a new one is about a fact. -/
structure Ledger (before after : Dict) : Prop where
  carried : DropsRecorded before after
  recorded : ∀ fid, Recorded before fid → Recorded after fid
  origin : ∀ fid, Recorded after fid → Recorded before fid ∨ Carries before fid

theorem Ledger.refl (turn : Dict) : Ledger turn turn :=
  ⟨fun _ => .inl, fun _ => id, fun _ => .inl⟩

theorem ledger_of_frame {before after : Dict}
    (facts : after.get (py "facts") = before.get (py "facts"))
    (dropped : after.get (py "facts_dropped") = before.get (py "facts_dropped")) :
    Ledger before after := by
  refine ⟨fun fid carries => .inl ?_, fun fid recorded => ?_, fun fid recorded => .inl ?_⟩
  · rw [Carries, facts]
    exact carries
  · rw [Recorded, dropped]
    exact recorded
  · rw [Recorded, dropped] at recorded
    exact recorded

/-- Records are kept over a run. -/
theorem DropsRecorded.trans {a b c : Dict} (first : DropsRecorded a b) (second : Ledger b c) :
    DropsRecorded a c := by
  intro fid carries
  rcases first fid carries with carries' | recorded
  · exact second.carried fid carries'
  · exact .inr (second.recorded fid recorded)

theorem isDict_of_field {f : Json} {key : String} {text : PyStr} (named : f.field key = .str text) :
    isDict f = true := by
  cases f with
  | obj d => rfl
  | _ => cases named

/-! ### Guards that take facts away -/

/-- The entry of a fact that goes is about its field. -/
def NamesItsField {ι : Type} (judge : Json → Py (Option ι)) (entry : ι → Json) : Prop :=
  ∀ f info, judge f = some (some info) →
    isDict (entry info) = true ∧ (entry info).field "field_id" = f.field "field_id"

section

variable {ι : Type} {judge : Json → Py (Option ι)} {entry : ι → Json}
  (names : NamesItsField judge entry) {before after : Dict} {facts : List Json}
  {verdicts : List (Option ι)} (listed : before.get (py "facts") = .arr facts)
  (judged : facts.mapM judge = some verdicts)

include names judged

/-- An entry comes from a fact, and is about its field. -/
theorem entry_of_fact {e : Json} (member : e ∈ (verdicts.filterMap id).map entry) :
    isDict e = true ∧ ∃ f ∈ facts, e.field "field_id" = f.field "field_id" := by
  obtain ⟨info, found, rfl⟩ := List.mem_map.mp member
  obtain ⟨verdict, reached, same⟩ := List.mem_filterMap.mp found
  obtain ⟨f, filed, here⟩ := mem_of_mapM judged reached
  rw [show verdict = some info from same] at here
  exact ⟨(names f info here).1, f, filed, (names f info here).2⟩

include listed

/-- Where the facts that stay and the entries of the others are written, every field has a fact or a
record. -/
theorem carried_of_judged (left : after.get (py "facts") = .arr (keptOf facts verdicts))
    (marks : ∀ e ∈ (verdicts.filterMap id).map entry,
      e ∈ entriesOf (after.get (py "facts_dropped"))) : DropsRecorded before after := by
  rintro fid ⟨f, member, named⟩
  rw [listed] at member
  obtain ⟨filed, dict⟩ := List.mem_filter.mp member
  obtain ⟨verdict, reached, here⟩ := mapM_mem judged filed
  cases verdict with
  | none =>
      refine .inl ⟨f, ?_, named⟩
      rw [left]
      exact List.mem_filter.mpr ⟨(mem_keptOf judged).mpr ⟨filed, here⟩, dict⟩
  | some info =>
      refine .inr ⟨entry info, marks _ (List.mem_map_of_mem ?_), ?_⟩
      · exact List.mem_filterMap.mpr ⟨some info, reached, rfl⟩
      · rw [(names f info here).2, named]

/-- A new record is about a fact that was filed. -/
theorem carries_of_entry {e : Json} {fid : PyStr} (member : e ∈ (verdicts.filterMap id).map entry)
    (named : e.field "field_id" = .str fid) : Carries before fid := by
  obtain ⟨_, f, filed, same⟩ := entry_of_fact names judged member
  rw [named] at same
  refine ⟨f, ?_, same.symm⟩
  rw [listed]
  exact List.mem_filter.mpr ⟨filed, isDict_of_field same.symm⟩

/-- A guard that adds its entries to the records. -/
theorem ledger_of_judged (left : after.get (py "facts") = .arr (keptOf facts verdicts))
    (dropped : entriesOf (after.get (py "facts_dropped")) =
      entriesOf (before.get (py "facts_dropped")) ++ (verdicts.filterMap id).map entry) :
    Ledger before after where
  carried := by
    refine carried_of_judged names listed judged left fun e member => ?_
    rw [dropped]
    exact List.mem_append_right _ member
  recorded := by
    rintro fid ⟨e, member, named⟩
    refine ⟨e, ?_, named⟩
    rw [dropped]
    exact List.mem_append_left _ member
  origin := by
    rintro fid ⟨e, member, named⟩
    rw [dropped] at member
    rcases List.mem_append.mp member with old | new
    · exact .inl ⟨e, old, named⟩
    · exact .inr (carries_of_entry names listed judged new named)

end

section

variable [PyRuntime]

theorem exists_named_iff {entries : List Json} {fid : PyStr} :
    (entries.any fun e => (Json.str fid).sameKey (e.field "field_id")) = true ↔
      ∃ e ∈ entries, e.field "field_id" = .str fid := by
  simp only [List.any_eq_true, Json.sameKey_str]

instance (turn : Dict) (fid : PyStr) : Decidable (Carries turn fid) :=
  decidable_of_iff _ exists_named_iff

instance (turn : Dict) (fid : PyStr) : Decidable (Recorded turn fid) :=
  decidable_of_iff _ exists_named_iff

theorem entriesOf_of_falsy {v : Json} (empty : v.truthy = false) : entriesOf v = [] := by
  cases v with
  | arr items =>
      have none_ : items = [] := by simpa [Json.truthy] using empty
      rw [none_]
      rfl
  | _ => rfl

theorem appendTo_entries {turn turn' : Dict} {key : String} {more : List Json}
    (run : appendTo turn key more = some turn') (dicts : ∀ e ∈ more, isDict e = true) :
    entriesOf (turn'.get (py key)) = entriesOf (turn.get (py key)) ++ more := by
  obtain ⟨items, rfl, held⟩ := appendTo_eq_some run
  rw [Dict.get_set_self]
  rcases held with held | ⟨empty, rfl⟩
  · exact entriesOf_append (.inl held) dicts
  · rw [entriesOf_of_falsy empty]
    exact List.filter_eq_self.mpr dicts

theorem ledger_takeAway {ι : Type} {judge : Json → Py (Option ι)} {entry : ι → Json}
    (names : NamesItsField judge entry) {before after : Dict} {facts : List Json}
    {verdicts : List (Option ι)} (listed : before.get (py "facts") = .arr facts)
    (judged : facts.mapM judge = some verdicts)
    (run : takeAway before "facts" (keptOf facts verdicts) "facts_dropped"
      ((verdicts.filterMap id).map entry) = some after) : Ledger before after := by
  rcases takeAway_eq_some run with ⟨_, rfl⟩ | ⟨some_, added⟩
  · exact Ledger.refl _
  · refine ledger_of_judged names listed judged (takeAway_get run some_ (by decide)) ?_
    rw [appendTo_entries added fun e member => (entry_of_fact names judged member).1,
      Dict.get_set_of_ne _ _ (by decide)]

theorem ledger_dropFacts {ι : Type} {judge : Json → Py (Option ι)} {entry : ι → Json}
    (names : NamesItsField judge entry) {turn turn' : Dict} {dropped : List ι}
    (run : dropFacts judge entry turn = some (some (turn', dropped))) : Ledger turn turn' := by
  obtain ⟨facts, verdicts, listed, judged, rfl, _, taken⟩ := dropFacts_eq_some run
  exact ledger_takeAway names listed judged taken

/-! ### What the entries name -/

omit [PyRuntime] in
theorem wantedDigits_field {f : Json} {fid : PyStr} {counts : List Nat}
    (wanted : wantedDigits f = some (some (fid, counts))) : f.field "field_id" = .str fid := by
  rw [wantedDigits] at wanted
  split at wanted
  · split at wanted
    · next text named =>
      obtain ⟨found, _, same⟩ := Option.map_eq_some_iff.mp (Option.some.inj wanted)
      cases same
      exact named
    · split at wanted <;> cases wanted
  · cases wanted

theorem namesItsField_wrongCount : NamesItsField wrongCountOf WrongCount.entry := by
  intro f info judged
  obtain ⟨wanted, found, outcome⟩ := Option.map_eq_some_iff.mp judged
  split at outcome
  · next fid counts =>
    split at outcome
    · cases outcome
      exact ⟨rfl, (wantedDigits_field found).symm⟩
    · cases outcome
  · cases outcome

theorem namesItsField_notAsSaid (locale : Option PyStr) :
    NamesItsField (notAsSaidOf locale) NotAsSaid.entry := by
  intro f info judged
  obtain ⟨wanted, found, outcome⟩ := Option.bind_eq_some_iff.mp judged
  split at outcome
  · next fid counts =>
    split at outcome
    · obtain ⟨cited, _, outcome⟩ := Option.bind_eq_some_iff.mp outcome
      split at outcome
      · cases outcome
      · split at outcome
        · cases outcome
        · cases outcome
          exact ⟨rfl, (wantedDigits_field found).symm⟩
    · cases outcome
  · cases outcome

theorem namesItsField_bareNo : NamesItsField bareNo id := by
  intro f info judged
  obtain ⟨utt, _, outcome⟩ := Option.map_eq_some_iff.mp judged
  split at outcome
  · cases outcome
    exact ⟨rfl, rfl⟩
  · cases outcome

theorem namesItsField_unsupported (input : EvidenceInput) :
    NamesItsField (unsupportedOf input) Prod.fst := by
  intro f info judged
  obtain ⟨evidence, _, outcome⟩ := Option.map_eq_some_iff.mp judged
  split at outcome
  · cases outcome
  · cases outcome
    exact ⟨rfl, rfl⟩

theorem namesItsField_deferredFact (stands : List Json) : NamesItsField (deferredFact stands) id := by
  intro f info judged
  obtain ⟨listed, _, outcome⟩ := Option.bind_eq_some_iff.mp judged
  split at outcome
  · split at outcome
    · cases outcome
      exact ⟨rfl, rfl⟩
    · cases outcome
  · cases outcome

omit [PyRuntime] in
theorem namesItsField_moved {judge : Json → Option MovedDate} (test : JudgesFacts judge)
    (reason : PyStr) : NamesItsField (fun f => some (judge f)) (MovedDate.entry reason) := by
  intro f moved judged
  obtain ⟨_, same⟩ := test f moved (Option.some.inj judged)
  exact ⟨rfl, same⟩

/-! ### The guards -/

theorem occupationFix_dropped {known : Assoc PyStr} {f : Json} {fid reason : PyStr}
    (fix : occupationFix known f = .dropped fid reason) : f.field "field_id" = .str fid := by
  rw [occupationFix.eq_def] at fix
  split at fix
  · next text value named _ =>
    rw [named]
    dsimp only at fix
    split at fix
    · cases fix
    split at fix
    · cases fix
      rfl
    split at fix
    · cases fix
    · split at fix
      · cases fix
        rfl
      · cases fix
  · cases fix

omit [PyRuntime] in
/-- An occupation that stays keeps its field. -/
theorem occupationFact_field {fix : OccupationFix} {f g : Json} (stays : fix.fact f = some g) :
    isDict g = isDict f ∧ g.field "field_id" = f.field "field_id" := by
  rw [OccupationFix.fact.eq_def] at stays
  split at stays
  · cases stays
    exact ⟨rfl, rfl⟩
  · cases stays
  · next d =>
    cases stays
    exact ⟨rfl, Dict.get_set_of_ne d _ (by decide)⟩
  · cases stays
    exact ⟨rfl, rfl⟩

theorem mem_occupations {known : Assoc PyStr} {facts : List Json} {f g : Json} (filed : f ∈ facts)
    (stays : (occupationFix known f).fact f = some g) :
    g ∈ (facts.zip (facts.map (occupationFix known))).filterMap
      (fun entry => entry.2.fact entry.1) := by
  refine List.mem_filterMap.mpr ⟨(f, occupationFix known f), ?_, stays⟩
  clear stays
  induction facts with
  | nil => cases filed
  | cons first facts ih =>
      rw [List.map_cons, List.zip_cons_cons]
      rcases List.mem_cons.mp filed with rfl | later
      · exact List.mem_cons_self
      · exact List.mem_cons_of_mem _ (ih later)

theorem ledger_fixOccupations {knownFacts : Option PyStr} {turn turn' : Dict}
    {changes : List OccupationFix}
    (run : fixOccupations knownFacts turn = some (some (turn', changes))) : Ledger turn turn' := by
  obtain ⟨facts, kept, listed, rfl, outcome⟩ := fixOccupations_eq_some run
  have left : turn'.get (py "facts") = .arr ((facts.zip (facts.map
      (occupationFix (knownOccupations knownFacts)))).filterMap (fun entry => entry.2.fact entry.1)) := by
    rcases outcome with ⟨_, rfl⟩ | added
    · exact Dict.get_set_self _ _ _
    · rw [appendTo_get_of_ne added (by decide), Dict.get_set_self]
  have entry : ∀ e ∈ (facts.map (occupationFix (knownOccupations knownFacts))).filterMap
      OccupationFix.entry, isDict e = true ∧ ∃ f ∈ facts, e.field "field_id" = f.field "field_id" := by
    intro e member
    obtain ⟨fix, found, here⟩ := List.mem_filterMap.mp member
    obtain ⟨f, filed, same⟩ := List.mem_map.mp found
    cases fix with
    | dropped fid reason =>
        cases here
        exact ⟨rfl, f, filed, (occupationFix_dropped same).symm⟩
    | kept => cases here
    | rewritten fid value => cases here
  have dropped : entriesOf (turn'.get (py "facts_dropped")) =
      entriesOf (turn.get (py "facts_dropped")) ++
        (facts.map (occupationFix (knownOccupations knownFacts))).filterMap OccupationFix.entry := by
    rcases outcome with ⟨none_, rfl⟩ | added
    · rw [none_, List.append_nil, Dict.get_set_of_ne _ _ (by decide)]
    · rw [appendTo_entries added fun e member => (entry e member).1,
        Dict.get_set_of_ne _ _ (by decide)]
  refine ⟨?_, ?_, ?_⟩
  · rintro fid ⟨f, member, named⟩
    rw [listed] at member
    have filed := List.mem_of_mem_filter member
    cases stays : (occupationFix (knownOccupations knownFacts) f).fact f with
    | some g =>
        obtain ⟨dict, same⟩ := occupationFact_field stays
        refine .inl ⟨g, ?_, same.trans named⟩
        rw [left]
        exact List.mem_filter.mpr ⟨mem_occupations filed stays, isDict_of_field (same.trans named)⟩
    | none =>
        right
        cases fix : occupationFix (knownOccupations knownFacts) f with
        | dropped text reason =>
            refine ⟨.obj [(py "field_id", .str text), (py "reason", .str reason)], ?_, ?_⟩
            · rw [dropped]
              refine List.mem_append_right _ (List.mem_filterMap.mpr ⟨.dropped text reason, ?_, rfl⟩)
              exact List.mem_map.mpr ⟨f, filed, fix⟩
            · rw [← named, occupationFix_dropped fix]
              rfl
        | kept =>
            rw [fix] at stays
            cases stays
        | rewritten text value =>
            rw [fix] at stays
            cases f <;> cases stays
  · rintro fid ⟨e, member, named⟩
    refine ⟨e, ?_, named⟩
    rw [dropped]
    exact List.mem_append_left _ member
  · rintro fid ⟨e, member, named⟩
    rw [dropped] at member
    rcases List.mem_append.mp member with old | new
    · exact .inl ⟨e, old, named⟩
    · obtain ⟨_, f, filed, same⟩ := entry e new
      rw [named] at same
      refine .inr ⟨f, ?_, same.symm⟩
      rw [listed]
      exact List.mem_filter.mpr ⟨filed, isDict_of_field same.symm⟩

theorem ledger_fileFact {fid value cited : PyStr} {turn turn' : Dict}
    (run : fileFact fid value cited turn = some turn') : Ledger turn turn' := by
  obtain ⟨facts, listed, _, rfl⟩ := fileFact_eq_some run
  have dropped : (turn.set (py "facts") (.arr (facts ++ [filedFact fid value cited]))).get
      (py "facts_dropped") = turn.get (py "facts_dropped") := Dict.get_set_of_ne _ _ (by decide)
  refine ⟨?_, ?_, ?_⟩
  · rintro id ⟨f, member, named⟩
    refine .inl ⟨f, ?_, named⟩
    rw [listed] at member
    rw [Dict.get_set_self]
    obtain ⟨filed, dict⟩ := List.mem_filter.mp member
    exact List.mem_filter.mpr ⟨List.mem_append_left _ filed, dict⟩
  · intro id recorded
    rw [Recorded, dropped]
    exact recorded
  · intro id recorded
    rw [Recorded, dropped] at recorded
    exact .inl recorded

theorem ledger_fileProbationNeverHad {agenda userContent : Option PyStr} {turn turn' : Dict}
    {fid : PyStr} (run : fileProbationNeverHad agenda userContent turn = some (some (turn', fid))) :
    Ledger turn turn' := by
  obtain ⟨_, cited, _, filed⟩ := fileProbationNeverHad_eq_some run
  exact ledger_fileFact filed

theorem ledger_closeTripsOnStatedCount {userContent : Option PyStr} {turn turn' : Dict}
    {info : PyStr × Nat} (run : closeTripsOnStatedCount userContent turn = some (some (turn', info))) :
    Ledger turn turn' := by
  obtain ⟨word, count, _, _, _, _, _, filed⟩ := closeTripsOnStatedCount_eq_some run
  exact ledger_fileFact filed

theorem ledger_dropFactsThatAreAlsoDeferred {turn turn' : Dict} {info : List Json}
    (run : dropFactsThatAreAlsoDeferred turn = some (some (turn', info))) : Ledger turn turn' := by
  obtain ⟨deferred, facts, stands, gaps, captured, verdicts, factIds, gapVerdicts, marked, listed,
    filed, _, _, judged, _, first, second⟩ := dropFactsThatAreAlsoDeferred_changes run
  rw [← List.map_id (verdicts.filterMap id)] at first
  have ledger := ledger_takeAway (namesItsField_deferredFact stands) filed judged first
  have facts' := takeAway_get_of_ne second (k := "facts") (by decide) (by decide)
  have dropped' := takeAway_get_of_ne second (k := "facts_dropped") (by decide) (by decide)
  have frame := ledger_of_frame facts' dropped'
  refine ⟨ledger.carried.trans frame, fun fid old => frame.recorded fid (ledger.recorded fid old), ?_⟩
  intro fid recorded
  rw [Recorded, dropped'] at recorded
  exact ledger.origin fid recorded

theorem ledger_deferDates {judge : Json → Option MovedDate} {reason : PyStr}
    (test : JudgesFacts judge) {turn turn' : Dict} {entries : List Json}
    (run : deferDates judge reason turn = some (some (turn', entries))) : Ledger turn turn' := by
  obtain ⟨facts, items, already, deferrals, deferred, listed, _, _, _, added, _, rfl, marked⟩ :=
    deferDates_eq_some run
  have names := namesItsField_moved test reason
  have judged : facts.mapM (fun f => some (judge f)) = some (facts.map judge) :=
    List.mapM_pure
  have moved : (facts.map judge).filterMap id = facts.filterMap judge := by
    rw [List.filterMap_map]
    rfl
  have left : turn'.get (py "facts") = .arr (keptOf facts (facts.map judge)) := by
    rw [appendTo_get_of_ne marked (by decide), Dict.get_set_self]
  have before : deferred.get (py "facts_dropped") = turn.get (py "facts_dropped") := by
    rcases appendDeferred_eq_some added with ⟨_, rfl⟩ | ⟨_, _, rfl, _⟩
    · rfl
    · exact Dict.get_set_of_ne _ _ (by decide)
  refine ledger_of_judged names listed judged left ?_
  rw [appendTo_entries marked, Dict.get_set_of_ne _ _ (by decide), before, moved]
  rw [← moved]
  exact fun e member => (entry_of_fact names judged member).1

omit [PyRuntime] in
theorem ledger_through {ι : Type} {guard : Guard ι}
    (ledger : ∀ {turn turn' : Dict} {info : ι}, guard turn = some (some (turn', info)) →
      Ledger turn turn')
    {note : List ι → GuardState Dict → GuardState Dict}
    (noted : ∀ info s, (note info s).response = s.response) {s s' : GuardState Dict}
    (run : s.through Guard.onTurn guard note = some s') : Ledger s.response s'.response := by
  rcases through_eq_some noted run with ⟨_, same⟩ | ⟨info, changed⟩
  · rw [same]
    exact Ledger.refl _
  · exact ledger changed

/-- Every guard but the evidence floor keeps the records. -/
theorem step_ledger {input : GuardInput} {a : GuardStep} (other : a ≠ .evidence)
    {s s' : GuardState Dict} (step : (turnMachine input).step a s = some s') :
    Ledger s.response s'.response := by
  have logged : ∀ {ι : Type} {guard : Guard ι},
      (∀ {turn turn' : Dict} {info : ι}, guard turn = some (some (turn', info)) →
        Ledger turn turn') →
      s.logged Guard.onTurn guard = some s' → Ledger s.response s'.response :=
    fun ledger run => ledger_through ledger (fun _ _ => rfl) run
  cases a with
  | evidence => exact absurd rfl other
  | wrongDigitCount =>
      exact ledger_through (ledger_dropFacts namesItsField_wrongCount)
        GuardState.noteWrongCount_response step
  | notAsSaid =>
      exact ledger_through (ledger_dropFacts (namesItsField_notAsSaid _))
        GuardState.noteNotAsSaid_response step
  | occupations => exact logged ledger_fixOccupations step
  | probation => exact logged ledger_fileProbationNeverHad step
  | trips => exact logged ledger_closeTripsOnStatedCount step
  | pushedBackNo =>
      refine logged (fun {turn turn' info} run => ?_) step
      rw [dropNoThatPushedBack] at run
      split at run
      · cases run
      · exact ledger_dropFacts namesItsField_bareNo run
  | alsoDeferred => exact logged ledger_dropFactsThatAreAlsoDeferred step
  | unspokenDays =>
      change guardStepOn _ input .unspokenDays s = some s' at step
      rw [guardStepOn] at step
      split at step
      · refine logged (fun {turn turn' info} run => ?_) step
        rw [deferDatesWithUnspokenDay] at run
        split at run
        · cases run
        · exact ledger_deferDates (unspokenDay_judges _ _ _) run
      · cases step
        exact Ledger.refl _
  | offPartials =>
      change guardStepOn _ input .offPartials s = some s' at step
      rw [guardStepOn] at step
      split at step
      · refine logged (fun {turn turn' info} run => ?_) step
        rw [deferDatesOffTheirKnownPartial] at run
        split at run
        · cases run
        · exact ledger_deferDates (offPartial_judges _ _) run
      · cases step
        exact Ledger.refl _
  | _ => exact ledger_of_frame (step_get step (by decide)) (step_get step (by decide))

/-! ### The evidence floor -/

/-- Whether the evidence floor takes a fact away. -/
def evidenceTakes (input : GuardInput) (turn : Dict) : Bool :=
  match input.userContent, turn.get (py "facts") with
  | some said, .arr facts =>
      facts.any fun f => (unsupportedOf (input.evidence said) f).any Option.isSome
  | _, _ => false

/-- Where it does, every field it takes has a record, and nothing else has one. -/
theorem dropFactsWithoutCurrentEvidence_records {input : EvidenceInput} {turn turn' : Dict}
    {dropped : List Json}
    (run : dropFactsWithoutCurrentEvidence input turn = some (some (turn', dropped))) :
    DropsRecorded turn turn' ∧ ∀ fid, Recorded turn' fid → Carries turn fid := by
  have left := dropFactsWithoutCurrentEvidence_facts run
  obtain ⟨facts, verdicts, kept, listed, judged, rfl, _, rfl, outcome⟩ :=
    dropFactsWithoutCurrentEvidence_eq_some run
  have names := namesItsField_unsupported input
  obtain ⟨_, _, listed', judged', left⟩ := left
  cases listed.symm.trans listed'
  cases judged.symm.trans judged'
  have dropped : turn'.get (py "facts_dropped") = .arr ((verdicts.filterMap id).map Prod.fst) := by
    rcases outcome with rfl | rfl
    · exact Dict.get_set_self _ _ _
    · rw [Dict.get_set_of_ne _ _ (by decide), Dict.get_set_self]
  have dicts := fun e member => (entry_of_fact names judged (e := e) member).1
  have records : entriesOf (turn'.get (py "facts_dropped")) = (verdicts.filterMap id).map Prod.fst := by
    rw [dropped]
    exact List.filter_eq_self.mpr dicts
  constructor
  · refine carried_of_judged names listed judged left fun e member => ?_
    rw [records]
    exact member
  · rintro fid ⟨e, member, named⟩
    rw [records] at member
    exact carries_of_entry names listed judged member named

theorem step_evidence {input : GuardInput} {s s' : GuardState Dict}
    (step : (turnMachine input).step .evidence s = some s') :
    (evidenceTakes input s.response = false ∧ s'.response = s.response) ∨
      evidenceTakes input s.response = true ∧ DropsRecorded s.response s'.response ∧
        ∀ fid, Recorded s'.response fid → Carries s.response fid := by
  change guardStepOn _ input .evidence s = some s' at step
  rw [guardStepOn] at step
  rw [evidenceTakes.eq_def]
  split at step
  · next said given =>
    rcases logged_eq_some step with ⟨quiet, same⟩ | ⟨dropped, changed⟩
    · refine .inl ⟨?_, same⟩
      rw [given]
      split
      · next heard facts spoken listed =>
        cases spoken
        rw [dropFactsWithoutCurrentEvidence, listed] at quiet
        obtain ⟨verdicts, judged, quiet⟩ := Option.bind_eq_some_iff.mp quiet
        dsimp only at quiet
        split at quiet
        · next none_ =>
          rw [List.isEmpty_iff, List.map_eq_nil_iff, List.filterMap_eq_nil_iff] at none_
          rw [List.any_eq_false]
          intro f filed
          obtain ⟨verdict, reached, here⟩ := mapM_mem judged filed
          rw [here, show verdict = none from none_ verdict reached]
          exact Bool.false_ne_true
        · cases quiet
      · rfl
    · refine .inr ⟨?_, dropFactsWithoutCurrentEvidence_records changed⟩
      obtain ⟨facts, verdicts, _, listed, judged, same, some_, _⟩ :=
        dropFactsWithoutCurrentEvidence_eq_some changed
      rw [given, listed]
      dsimp only
      have taken : verdicts.filterMap id ≠ [] := by
        rintro none_
        rw [same, none_] at some_
        exact some_ rfl
      obtain ⟨info, found⟩ := List.exists_mem_of_ne_nil _ taken
      obtain ⟨verdict, reached, here⟩ := List.mem_filterMap.mp found
      obtain ⟨f, filed, judged'⟩ := mem_of_mapM judged reached
      refine List.any_eq_true.mpr ⟨f, filed, ?_⟩
      rw [judged', show verdict = some info from here]
      rfl
  · next absent =>
    cases step
    refine .inl ⟨?_, rfl⟩
    rw [absent]

/-! ### The chain -/

omit [PyRuntime] in
theorem carries_of_shrinks {before after : Dict}
    (shrinks : Shrinks (before.get (py "facts")) (after.get (py "facts"))) {fid : PyStr}
    (carries : Carries after fid) : Carries before fid := by
  obtain ⟨f, member, named⟩ := carries
  refine ⟨f, ?_, named⟩
  rcases shrinks with same | ⟨facts, kept, listed, left, sub⟩
  · rw [← same]
    exact member
  · rw [left] at member
    rw [listed]
    obtain ⟨filed, dict⟩ := List.mem_filter.mp member
    exact List.mem_filter.mpr ⟨sub.subset filed, dict⟩

/-- Records are kept over a run without the evidence floor. -/
theorem run_drops {input : GuardInput} {steps : List GuardStep} (others : .evidence ∉ steps)
    {first : Dict} {s last : GuardState Dict} (before : DropsRecorded first s.response)
    (run : (turnMachine input).run steps s = some last) : DropsRecorded first last.response := by
  refine Machine.run_invariant_along (I := fun s : GuardState Dict => DropsRecorded first s.response)
    (P := fun a _ => a ≠ .evidence) (fun a s s' other drops step => ?_) ?_ before run
  · exact drops.trans (step_ledger other step)
  · refine Machine.along_of_forall (fun a listed _ => ?_) s
    rintro rfl
    exact others listed

/-- The guards after the evidence floor. -/
def stepsAfterEvidence : List GuardStep :=
  [.pushedBackNo, .settledQuestion, .strayDeferrals, .unknownOrigins, .alsoDeferred, .nonAnswer,
    .unspokenDays, .offPartials, .replyShape, .interviewOver, .options, .battery,
    .checkpointBesideAsking, .unusableReply]

/-- A field that is neither filed nor recorded after the floor stays so. -/
theorem run_absent {input : GuardInput} {fid : PyStr} {s last : GuardState Dict}
    (absent : ¬Carries s.response fid ∧ ¬Recorded s.response fid)
    (run : (turnMachine input).run stepsAfterEvidence s = some last) :
    ¬Carries last.response fid ∧ ¬Recorded last.response fid := by
  refine Machine.run_invariant_along
    (I := fun s : GuardState Dict => ¬Carries s.response fid ∧ ¬Recorded s.response fid)
    (P := fun a _ => a ∈ stepsAfterEvidence) (fun a s s' listed absent step => ?_)
    (Machine.along_of_forall (fun a listed _ => listed) s) absent run
  have quiet : ∀ a ∈ stepsAfterEvidence, a ∉ filingSteps ∧ a ≠ .evidence := by decide
  obtain ⟨notFiling, notFloor⟩ := quiet a listed
  have shrinks := step_shrinks notFiling step
  refine ⟨fun carries => absent.1 (carries_of_shrinks shrinks carries), fun recorded => ?_⟩
  rcases (step_ledger notFloor step).origin fid recorded with earlier | carries
  · exact absent.2 earlier
  · exact absent.1 carries

/-- The guards before the evidence floor. -/
def stepsBeforeEvidence : List GuardStep := stepsBeforeFiling ++ filingSteps

/-- Every drop of the guards is recorded exactly when, in the response that reaches the evidence floor,
the floor takes no fact away or every field of the response still has a fact. -/
theorem drops_recorded_iff {input : GuardInput} {text out : PyStr} {turn : Dict}
    (read : turnOf text = some turn) (run : guardResponseText input text = some out) :
    ∃ st, (turnMachine input).run stepsBeforeEvidence (.init turn) = some st ∧
      ((∀ turn', turnOf out = some turn' → DropsRecorded turn turn') ↔
        evidenceTakes input st.response = false ∨
          ∀ fid, Carries turn fid → Carries st.response fid) := by
  obtain ⟨turn', written, guarded⟩ := guardTurn_of_guardResponseText read run
  obtain ⟨last, chain, rfl⟩ := Option.map_eq_some_iff.mp guarded
  have parts : guardOrder = stepsBeforeEvidence ++ (.evidence :: stepsAfterEvidence) := rfl
  rw [parts, Machine.run_append] at chain
  obtain ⟨st, before, chain⟩ := Option.bind_eq_some_iff.mp chain
  obtain ⟨s, floor, after⟩ := Machine.run_cons_eq_some.mp chain
  refine ⟨st, before, ?_⟩
  have exactly : (∀ turn', turnOf out = some turn' → DropsRecorded turn turn') ↔
      DropsRecorded turn last.response := by
    constructor
    · exact fun recorded => recorded _ written
    · intro recorded turn' written'
      rw [written, Option.some.injEq] at written'
      rw [← written']
      exact recorded
  rw [exactly]
  have first : DropsRecorded turn st.response := run_drops (by decide) (fun _ => .inl) before
  rcases step_evidence floor with ⟨quiet, same⟩ | ⟨takes, records, origin⟩
  · refine iff_of_true (run_drops (by decide) ?_ after) (.inl quiet)
    rw [same]
    exact first
  · constructor
    · intro recorded
      right
      intro fid carries
      by_contra gone
      -- the floor has forgotten the record, and no later guard knows the field
      have absent : ¬Carries s.response fid ∧ ¬Recorded s.response fid := by
        refine ⟨fun carries' => gone ?_, fun recorded' => gone (origin fid recorded')⟩
        exact carries_of_shrinks (step_shrinks (by decide) floor) carries'
      have lost := run_absent absent after
      rcases recorded fid carries with carries' | recorded'
      · exact lost.1 carries'
      · exact lost.2 recorded'
    · rintro (quiet | still)
      · rw [takes] at quiet
        cases quiet
      · refine run_drops (by decide) (fun fid carries => ?_) after
        exact records fid (still fid carries)

end

/-! ### A short SSN beside a fact without evidence -/

/-- She has said her number, with a digit missing. -/
def saidShortSsn : GuardInput where
  agenda := none
  userContent := some (py "12345678")
  conversation := none
  choiceFields := .null
  locale := some (py "en")
  knownFacts := none
  lineIds := none

/-- The response files it, and a city she did not name. -/
def ssnAndCity : PyStr :=
  py "\x7b\"facts\": [\x7b\"field_id\": \"p2.ssn\", \"value\": \"12345678\", " ++
    py "\"provenance\": \x7b\"utterance\": \"12345678\"\x7d\x7d, " ++
    py "\x7b\"field_id\": \"p4.address1.city\", \"value\": \"Rome\", " ++
    py "\"provenance\": \x7b\"utterance\": \"Rome\"\x7d\x7d]\x7d"

/-- The number is taken away first, and the record of it when the city is. -/
theorem ssnAndCity_guarded :
    letI := PyRuntime.ascii
    ∃ turn turn', turnOf ssnAndCity = some turn ∧ guardTurn saidShortSsn turn = some turn' ∧
      namedFacts turn = true ∧ Carries turn (py "p2.ssn") ∧ ¬Carries turn' (py "p2.ssn") ∧
        ¬Recorded turn' (py "p2.ssn") := by
  let _ := PyRuntime.ascii
  have lost : ((turnOf ssnAndCity).any fun turn => (guardTurn saidShortSsn turn).any fun turn' =>
      decide (namedFacts turn = true ∧ Carries turn (py "p2.ssn") ∧
        ¬Carries turn' (py "p2.ssn") ∧ ¬Recorded turn' (py "p2.ssn"))) = true := by decide +kernel
  obtain ⟨turn, read, guarded⟩ := (Option.any_eq_true _ _).mp lost
  obtain ⟨turn', run, here⟩ := (Option.any_eq_true _ _).mp guarded
  exact ⟨turn, turn', read, run, of_decide_eq_true here⟩

theorem drops_recorded_iff_ssn :
    letI := PyRuntime.ascii
    ∃ out turn st, guardResponseText saidShortSsn ssnAndCity = some out ∧
      ((∀ turn', turnOf out = some turn' → DropsRecorded turn turn') ↔
        evidenceTakes saidShortSsn st = false ∨ ∀ fid, Carries turn fid → Carries st fid) := by
  let _ := PyRuntime.ascii
  obtain ⟨turn, turn', read, run, _⟩ := ssnAndCity_guarded
  obtain ⟨out, written, _⟩ := guardResponseText_of_guardTurn read run
  obtain ⟨st, _, exactly⟩ := drops_recorded_iff read written
  exact ⟨out, turn, st.response, written, exactly⟩

/-- The number is gone without a record. -/
theorem ssn_dropped_in_silence :
    letI := PyRuntime.ascii
    ¬∀ (input : GuardInput) (text out : PyStr) (turn turn' : Dict), turnOf text = some turn →
      namedFacts turn = true → guardResponseText input text = some out → turnOf out = some turn' →
      DropsRecorded turn turn' := by
  let _ := PyRuntime.ascii
  intro recorded
  obtain ⟨turn, turn', read, run, named, carries, gone, silent⟩ := ssnAndCity_guarded
  obtain ⟨out, written, reads⟩ := guardResponseText_of_guardTurn read run
  have drops := recorded saidShortSsn ssnAndCity out turn turn' read named written reads
  rcases drops _ carries with here | mark
  · exact gone here
  · exact silent mark

end GhostPour.N400
