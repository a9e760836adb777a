/-
Module: GhostPour.N400.Proofs.GuardRuns
Layer: Proofs
Purpose: Runs of the guards. The chain on the text of a response mirrors the chain on its object, step
  by step, and a text that is not an object goes through byte for byte. On the object, a step writes
  only the keys of its guard.
Trusted boundary: none
Main exports: guardResponseText_mirrors, guardResponseText_of_prose, GuardStep.keys, step_edits,
  logged_eq_some, run_get, run_canonical, entriesOf, fieldIdSet_eq_some, keyIn_eq_some
-/
import GhostPour.N400.Proofs.EnvelopeEdits

namespace GhostPour.N400

section

variable [PyRuntime]

/-! ### One guard -/

/-- A guard on the text does what it does on the object. -/
theorem onText_mirrors {ι : Type} {guard : Guard ι} {keys : List String}
    (only : guard.EditsOnly keys) {text : PyStr} {turn : Dict} (read : turnOf text = some turn) :
    Option.Rel (fun a b => turnOf a.1 = some b.1 ∧ a.2 = b.2) (guard.onText text)
      (guard.onTurn turn) := by
  rw [Guard.onText, read, Guard.onTurn]
  dsimp only
  cases outcome : guard turn with
  | none => exact .none
  | some changed =>
      cases changed with
      | none => exact .some ⟨read, rfl⟩
      | some changed =>
          obtain ⟨turn', info⟩ := changed
          exact .some ⟨turnOf_dumps ((only outcome).canonical (canonical_turnOf read)), rfl⟩

/-- The state of the chain on the text and the state of the chain on the object. -/
structure Mirrors (read : GuardState PyStr) (st : GuardState Dict) : Prop where
  response : turnOf read.response = some st.response
  wrongCount : read.wrongCount = st.wrongCount
  notAsSaid : read.notAsSaid = st.notAsSaid

omit [PyRuntime] in
@[simp] theorem GuardState.noteWrongCount_response {σ : Type} (dropped : List (List WrongCount))
    (st : GuardState σ) : (st.noteWrongCount dropped).response = st.response := rfl

omit [PyRuntime] in
@[simp] theorem GuardState.noteNotAsSaid_response {σ : Type} (dropped : List (List NotAsSaid))
    (st : GuardState σ) : (st.noteNotAsSaid dropped).response = st.response := rfl

theorem Mirrors.noteWrongCount (dropped : List (List WrongCount)) (s : GuardState PyStr)
    (t : GuardState Dict) (same : Mirrors s t) :
    Mirrors (s.noteWrongCount dropped) (t.noteWrongCount dropped) :=
  ⟨same.response, rfl, same.notAsSaid⟩

theorem Mirrors.noteNotAsSaid (dropped : List (List NotAsSaid)) (s : GuardState PyStr)
    (t : GuardState Dict) (same : Mirrors s t) :
    Mirrors (s.noteNotAsSaid dropped) (t.noteNotAsSaid dropped) :=
  ⟨same.response, same.wrongCount, rfl⟩

theorem through_mirrors {ι : Type} {guard : Guard ι} {keys : List String}
    (only : guard.EditsOnly keys) {note : List ι → GuardState PyStr → GuardState PyStr}
    {note' : List ι → GuardState Dict → GuardState Dict}
    (noted : ∀ info s t, Mirrors s t → Mirrors (note info s) (note' info t))
    {s : GuardState PyStr} {t : GuardState Dict} (same : Mirrors s t) :
    Option.Rel Mirrors (s.through Guard.onText guard note) (t.through Guard.onTurn guard note') := by
  refine rel_map (onText_mirrors only same.response) fun a b both => ?_
  obtain ⟨text, info⟩ := a
  obtain ⟨turn, info'⟩ := b
  obtain ⟨read, rfl⟩ := both
  exact noted _ _ _ ⟨read, same.wrongCount, same.notAsSaid⟩

theorem logged_mirrors {ι : Type} {guard : Guard ι} {keys : List String}
    (only : guard.EditsOnly keys) {s : GuardState PyStr} {t : GuardState Dict} (same : Mirrors s t) :
    Option.Rel Mirrors (s.logged Guard.onText guard) (t.logged Guard.onTurn guard) :=
  through_mirrors only (fun _ _ _ same => same) same

/-! ### The chain -/

theorem step_mirrors (input : GuardInput) (a : GuardStep) {s : GuardState PyStr}
    {t : GuardState Dict} (same : Mirrors s t) :
    Option.Rel Mirrors ((guardMachine Guard.onText input).step a s) ((turnMachine input).step a t) := by
  cases a with
  | readbacks => exact logged_mirrors editsOnly_correctIdentifierReadbacks same
  | staleAsking => exact logged_mirrors (editsOnly_dropStaleAsking input.agenda) same
  | wrongDigitCount =>
      exact through_mirrors editsOnly_dropIdentifiersWithWrongDigitCount Mirrors.noteWrongCount same
  | notAsSaid =>
      exact through_mirrors (editsOnly_dropIdentifiersNotAsSaid input.locale) Mirrors.noteNotAsSaid
        same
  | reask =>
      have heard : s.reaskFrom = t.reaskFrom := by
        rw [GuardState.reaskFrom, GuardState.reaskFrom, same.wrongCount, same.notAsSaid]
      change Option.Rel Mirrors
        (s.logged Guard.onText (reaskDroppedIdentifier s.reaskFrom input.agenda)) _
      rw [heard]
      exact logged_mirrors (editsOnly_reaskDroppedIdentifier t.reaskFrom input.agenda) same
  | occupations => exact logged_mirrors (editsOnly_fixOccupations input.knownFacts) same
  | probation =>
      exact logged_mirrors (editsOnly_fileProbationNeverHad input.agenda input.userContent) same
  | trips => exact logged_mirrors (editsOnly_closeTripsOnStatedCount input.userContent) same
  | evidence =>
      change Option.Rel Mirrors (guardStepOn _ input .evidence s) (guardStepOn _ input .evidence t)
      rw [guardStepOn, guardStepOn]
      cases input.userContent with
      | none => exact .some same
      | some said => exact logged_mirrors (editsOnly_dropFactsWithoutCurrentEvidence _) same
  | pushedBackNo => exact logged_mirrors (editsOnly_dropNoThatPushedBack input.userContent) same
  | settledQuestion =>
      exact logged_mirrors (editsOnly_replaceSettledQuestion input.agenda input.locale) same
  | strayDeferrals =>
      exact logged_mirrors
        (editsOnly_dropDeferralsOfFiledValues input.knownFacts input.agenda input.userContent) same
  | unknownOrigins => exact logged_mirrors editsOnly_markUnknownDeferralOrigins same
  | alsoDeferred => exact logged_mirrors editsOnly_dropFactsThatAreAlsoDeferred same
  | nonAnswer => exact logged_mirrors editsOnly_markFactsMintedOnANonAnswer same
  | unspokenDays =>
      change Option.Rel Mirrors (guardStepOn _ input .unspokenDays s)
        (guardStepOn _ input .unspokenDays t)
      rw [guardStepOn, guardStepOn]
      cases input.userContent with
      | none => exact .some same
      | some said => exact logged_mirrors (editsOnly_deferDatesWithUnspokenDay _ _ _) same
  | offPartials =>
      change Option.Rel Mirrors (guardStepOn _ input .offPartials s)
        (guardStepOn _ input .offPartials t)
      rw [guardStepOn, guardStepOn]
      cases input.userContent with
      | none => exact .some same
      | some said => exact logged_mirrors (editsOnly_deferDatesOffTheirKnownPartial _ _) same
  | replyShape => exact logged_mirrors editsOnly_normalizeReplyShape same
  | interviewOver =>
      exact logged_mirrors (editsOnly_clearInterviewOverWhileAgendaOpen input.agenda) same
  | options =>
      exact logged_mirrors
        (editsOnly_markValuesOutsideDeclaredOptions input.agenda input.choiceFields) same
  | battery => exact logged_mirrors (editsOnly_markBatteryShortfall input.agenda) same
  | checkpointBesideAsking => exact logged_mirrors editsOnly_dropCheckpointWhenAskingSet same
  | unusableReply => exact logged_mirrors editsOnly_dropUnusableReply same

/-- The chain on the text of a response is the chain on its object: it raises where that one does, and
the text it leaves reads as the object that one leaves. -/
theorem guardResponseText_mirrors (input : GuardInput) {text : PyStr} {turn : Dict}
    (read : turnOf text = some turn) :
    Option.Rel (fun out turn' => turnOf out = some turn') (guardResponseText input text)
      (guardTurn input turn) := by
  have start : Mirrors (.init text) (.init turn) := ⟨read, rfl, rfl⟩
  refine rel_map (Machine.run_rel (fun a _ _ => step_mirrors input a) start) ?_
  exact fun _ _ last => last.response

/-- The object that the text of a guarded response holds. -/
theorem guardTurn_of_guardResponseText {input : GuardInput} {text out : PyStr} {turn : Dict}
    (read : turnOf text = some turn) (run : guardResponseText input text = some out) :
    ∃ turn', turnOf out = some turn' ∧ guardTurn input turn = some turn' := by
  have related := guardResponseText_mirrors input read
  rw [run] at related
  obtain ⟨turn', there, last⟩ := some_of_rel related
  exact ⟨turn', last, there⟩

/-- The text of a response whose guarded object is known. -/
theorem guardResponseText_of_guardTurn {input : GuardInput} {text : PyStr} {turn turn' : Dict}
    (read : turnOf text = some turn) (run : guardTurn input turn = some turn') :
    ∃ out, guardResponseText input text = some out ∧ turnOf out = some turn' := by
  have related := guardResponseText_mirrors input read
  rw [run] at related
  obtain ⟨out, there, last⟩ := some_of_rel_some related
  exact ⟨out, there, last⟩

/-! ### A text that is not an object -/

theorem through_of_prose {ι : Type} (guard : Guard ι)
    {note : List ι → GuardState PyStr → GuardState PyStr}
    (noted : ∀ info s, (note info s).response = s.response) {s : GuardState PyStr}
    (prose : turnOf s.response = none) :
    ∃ s', s.through Guard.onText guard note = some s' ∧ s'.response = s.response := by
  refine ⟨note [] s, ?_, noted [] s⟩
  rw [GuardState.through, Guard.onText, prose]
  rfl

theorem step_of_prose (input : GuardInput) (a : GuardStep) {s : GuardState PyStr}
    (prose : turnOf s.response = none) :
    ∃ s', (guardMachine Guard.onText input).step a s = some s' ∧ s'.response = s.response := by
  have logged : ∀ {ι : Type} (guard : Guard ι),
      ∃ s', s.logged Guard.onText guard = some s' ∧ s'.response = s.response :=
    fun guard => through_of_prose guard (fun _ _ => rfl) prose
  cases a with
  | wrongDigitCount => exact through_of_prose _ GuardState.noteWrongCount_response prose
  | notAsSaid => exact through_of_prose _ GuardState.noteNotAsSaid_response prose
  | evidence =>
      change ∃ s', guardStepOn _ input .evidence s = some s' ∧ _
      rw [guardStepOn]
      cases input.userContent with
      | none => exact ⟨s, rfl, rfl⟩
      | some said => exact logged _
  | unspokenDays =>
      change ∃ s', guardStepOn _ input .unspokenDays s = some s' ∧ _
      rw [guardStepOn]
      cases input.userContent with
      | none => exact ⟨s, rfl, rfl⟩
      | some said => exact logged _
  | offPartials =>
      change ∃ s', guardStepOn _ input .offPartials s = some s' ∧ _
      rw [guardStepOn]
      cases input.userContent with
      | none => exact ⟨s, rfl, rfl⟩
      | some said => exact logged _
  | _ => exact logged _

/-- A text that is not an object goes through byte for byte. -/
theorem guardResponseText_of_prose (input : GuardInput) {text : PyStr} (prose : turnOf text = none) :
    guardResponseText input text = some text := by
  have run : ∀ steps (s : GuardState PyStr), turnOf s.response = none →
      ∃ s', (guardMachine Guard.onText input).run steps s = some s' ∧ s'.response = s.response := by
    intro steps
    induction steps with
    | nil => exact fun s _ => ⟨s, rfl, rfl⟩
    | cons a steps ih =>
        intro s still
        obtain ⟨next, step, same⟩ := step_of_prose input a still
        obtain ⟨last, rest, same'⟩ := ih next (by rw [same]; exact still)
        exact ⟨last, by rw [Machine.run_cons_of_step step, rest], same'.trans same⟩
  obtain ⟨last, through, same⟩ := run guardOrder (.init text) prose
  rw [guardResponseText, through]
  exact congrArg some same

/-! ### One step on the object -/

/-- The keys that the guard of a step writes. -/
def GuardStep.keys : GuardStep → List String
  | .readbacks => ["reply"]
  | .staleAsking => ["asking", "asking_dropped"]
  | .wrongDigitCount | .notAsSaid | .occupations | .pushedBackNo => ["facts", "facts_dropped"]
  | .reask =>
      ["reply", "asking", "section_checkpoint", "interview_over", "complete", "identifier_reask"]
  | .probation | .trips => ["facts"]
  | .evidence => ["facts", "facts_dropped", "facts_pending_support"]
  | .settledQuestion => ["reply", "asking", "asking_dropped"]
  | .strayDeferrals => ["deferred", "deferrals_dropped"]
  | .unknownOrigins => ["deferred_origin_unknown"]
  | .alsoDeferred => ["facts", "facts_dropped", "deferred", "deferred_dropped"]
  | .nonAnswer => ["minted_on_non_answer"]
  | .unspokenDays | .offPartials => ["deferred", "facts", "facts_dropped"]
  | .replyShape => ["reply", "reply_shape_normalized"]
  | .interviewOver => ["interview_over", "interview_over_cleared"]
  | .options => ["values_outside_declared_options"]
  | .battery => ["battery_unspoken"]
  | .checkpointBesideAsking => ["section_checkpoint", "checkpoint_dropped"]
  | .unusableReply => ["reply", "reply_dropped"]

omit [PyRuntime] in
/-- A guard leaves the response alone, or it changes the object. -/
theorem through_eq_some {ι : Type} {guard : Guard ι}
    {note : List ι → GuardState Dict → GuardState Dict}
    (noted : ∀ info s, (note info s).response = s.response) {s s' : GuardState Dict}
    (run : s.through Guard.onTurn guard note = some s') :
    (guard s.response = some none ∧ s'.response = s.response) ∨
      ∃ info, guard s.response = some (some (s'.response, info)) := by
  obtain ⟨⟨turn', info⟩, guarded, rfl⟩ := Option.map_eq_some_iff.mp run
  obtain ⟨changed, outcome, same⟩ := Option.map_eq_some_iff.mp guarded
  cases changed with
  | none =>
      cases same
      exact .inl ⟨outcome, noted _ _⟩
  | some changed =>
      cases same
      right
      rw [noted]
      exact ⟨_, outcome⟩

omit [PyRuntime] in
theorem logged_eq_some {ι : Type} {guard : Guard ι} {s s' : GuardState Dict}
    (run : s.logged Guard.onTurn guard = some s') :
    (guard s.response = some none ∧ s'.response = s.response) ∨
      ∃ info, guard s.response = some (some (s'.response, info)) :=
  through_eq_some (fun _ _ => rfl) run

theorem edits_through {ι : Type} {guard : Guard ι} {keys : List String}
    (only : guard.EditsOnly keys) {note : List ι → GuardState Dict → GuardState Dict}
    (noted : ∀ info s, (note info s).response = s.response) {s s' : GuardState Dict}
    (run : s.through Guard.onTurn guard note = some s') : Edits keys s.response s'.response := by
  rcases through_eq_some noted run with ⟨_, same⟩ | ⟨info, changed⟩
  · rw [same]
    exact Edits.refl keys s.response
  · exact only changed

/-- A step writes only the keys of its guard. -/
theorem step_edits {input : GuardInput} {a : GuardStep} {s s' : GuardState Dict}
    (step : (turnMachine input).step a s = some s') : Edits a.keys s.response s'.response := by
  have logged : ∀ {ι : Type} {guard : Guard ι} {keys : List String}, guard.EditsOnly keys →
      s.logged Guard.onTurn guard = some s' → Edits keys s.response s'.response :=
    fun only run => edits_through only (fun _ _ => rfl) run
  cases a with
  | readbacks => exact logged editsOnly_correctIdentifierReadbacks step
  | staleAsking => exact logged (editsOnly_dropStaleAsking _) step
  | wrongDigitCount =>
      exact edits_through editsOnly_dropIdentifiersWithWrongDigitCount
        GuardState.noteWrongCount_response step
  | notAsSaid =>
      exact edits_through (editsOnly_dropIdentifiersNotAsSaid _) GuardState.noteNotAsSaid_response
        step
  | reask => exact logged (editsOnly_reaskDroppedIdentifier _ _) step
  | occupations => exact logged (editsOnly_fixOccupations _) step
  | probation => exact logged (editsOnly_fileProbationNeverHad _ _) step
  | trips => exact logged (editsOnly_closeTripsOnStatedCount _) step
  | evidence =>
      change guardStepOn _ input .evidence s = some s' at step
      rw [guardStepOn] at step
      split at step
      · exact logged (editsOnly_dropFactsWithoutCurrentEvidence _) step
      · cases step
        exact Edits.refl _ _
  | pushedBackNo => exact logged (editsOnly_dropNoThatPushedBack _) step
  | settledQuestion => exact logged (editsOnly_replaceSettledQuestion _ _) step
  | strayDeferrals => exact logged (editsOnly_dropDeferralsOfFiledValues _ _ _) step
  | unknownOrigins => exact logged editsOnly_markUnknownDeferralOrigins step
  | alsoDeferred => exact logged editsOnly_dropFactsThatAreAlsoDeferred step
  | nonAnswer => exact logged editsOnly_markFactsMintedOnANonAnswer step
  | unspokenDays =>
      change guardStepOn _ input .unspokenDays s = some s' at step
      rw [guardStepOn] at step
      split at step
      · exact logged (editsOnly_deferDatesWithUnspokenDay _ _ _) step
      · cases step
        exact Edits.refl _ _
  | offPartials =>
      change guardStepOn _ input .offPartials s = some s' at step
      rw [guardStepOn] at step
      split at step
      · exact logged (editsOnly_deferDatesOffTheirKnownPartial _ _) step
      · cases step
        exact Edits.refl _ _
  | replyShape => exact logged editsOnly_normalizeReplyShape step
  | interviewOver => exact logged (editsOnly_clearInterviewOverWhileAgendaOpen _) step
  | options => exact logged (editsOnly_markValuesOutsideDeclaredOptions _ _) step
  | battery => exact logged (editsOnly_markBatteryShortfall _) step
  | checkpointBesideAsking => exact logged editsOnly_dropCheckpointWhenAskingSet step
  | unusableReply => exact logged editsOnly_dropUnusableReply step

/-- A key that the guard of a step does not write keeps its value. -/
theorem step_get {input : GuardInput} {a : GuardStep} {s s' : GuardState Dict}
    (step : (turnMachine input).step a s = some s') {key : String}
    (other : py key ∉ a.keys.map py) : s'.response.get (py key) = s.response.get (py key) :=
  (step_edits step).frame (py key) other

/-! ### Runs on the object -/

/-- Over a run of guards that do not write a key, it keeps its value. -/
theorem run_get {input : GuardInput} {key : String} {steps : List GuardStep}
    (others : ∀ a ∈ steps, py key ∉ a.keys.map py) {s last : GuardState Dict}
    (run : (turnMachine input).run steps s = some last) :
    last.response.get (py key) = s.response.get (py key) :=
  Machine.run_transitive (R := fun s s' : GuardState Dict =>
      s'.response.get (py key) = s.response.get (py key))
    (fun _ => rfl) (fun _ _ _ first second => second.trans first)
    (fun a listed _ _ step => step_get step (others a listed)) run

/-- A run leaves a canonical object. -/
theorem run_canonical {input : GuardInput} {steps : List GuardStep} {s last : GuardState Dict}
    (canonical : (Json.obj s.response).Canonical)
    (run : (turnMachine input).run steps s = some last) : (Json.obj last.response).Canonical :=
  Machine.run_invariant (I := fun s : GuardState Dict => (Json.obj s.response).Canonical)
    (fun _ _ _ start step => (step_edits step).canonical start) canonical run

/-! ### Entries of a list -/

/-- The entries of a list. -/
def itemsOf (v : Json) : List Json :=
  match v with
  | .arr items => items
  | _ => []

/-- The entries of a list that are dicts. -/
def entriesOf (v : Json) : List Json :=
  match v with
  | .arr items => items.filter isDict
  | _ => []

theorem canonical_entriesOf {turn : Dict} (canonical : (Json.obj turn).Canonical) {key : PyStr}
    {e : Json} (member : e ∈ entriesOf (turn.get key)) : e.Canonical := by
  rw [entriesOf.eq_def] at member
  split at member
  · next items listed => exact canonical_items canonical listed e (List.mem_of_mem_filter member)
  · cases member

theorem iterateOrEmpty_arr (items : List Json) : (Json.arr items).iterateOrEmpty = some items := by
  cases items with
  | nil => rfl
  | cons _ _ => rfl

theorem mem_entriesOf_of_iterate {v d : Json} {items : List Json}
    (run : v.iterateOrEmpty = some items) (member : d ∈ items) (dict : isDict d = true) :
    d ∈ entriesOf v := by
  rw [Json.iterateOrEmpty] at run
  split at run
  · cases v with
    | arr items =>
        cases run
        exact List.mem_filter.mpr ⟨member, dict⟩
    | str s =>
        cases run
        obtain ⟨_, _, rfl⟩ := List.mem_map.mp member
        cases dict
    | obj members =>
        cases run
        obtain ⟨_, _, rfl⟩ := List.mem_map.mp member
        cases dict
    | _ => cases run
  · cases run
    cases member

/-! ### Sets of field ids -/

omit [PyRuntime] in
theorem fieldIdSet_eq_some {items ids : List Json} (run : fieldIdSet items = some ids) :
    ids = (items.filter isDict).map (Json.field · "field_id") ∧
      ∀ id ∈ ids, id.hashable = true := by
  have each := mapM_eq_some_iff.mp run
  constructor
  · have equal : List.Forall₂ (· = ·) ((items.filter isDict).map (Json.field · "field_id")) ids := by
      refine each.imp fun {v id} here => ?_
      split at here
      · exact Option.some.inj here
      · cases here
    rw [List.forall₂_eq_eq_eq] at equal
    exact equal.symm
  · intro id member
    obtain ⟨v, _, here⟩ := mem_of_mapM run member
    split at here
    · next hashes =>
      cases here
      exact hashes
    · cases here

theorem keyIn_eq_some {v : Json} {keys : List Json} {listed : Bool}
    (run : keyIn v keys = some listed) : v.hashable = true ∧ listed = keys.any (Json.sameKey v) := by
  rw [keyIn] at run
  split at run
  · next hashes => exact ⟨hashes, (Option.some.inj run).symm⟩
  · cases run

end

end GhostPour.N400
