/-
Module: GhostPour.N400.Proofs.GuardsReturn
Layer: Proofs
Purpose: When the guards return. A text that is not an object goes through them; on an object the chain
  returns exactly when each guard finds, in the response that reaches it, values of the shapes it
  assumes, and a response of another shape is lost with an exception.
Trusted boundary: none
Main exports: GuardFits, step_isSome_iff, Returns, guards_return_iff
-/
import GhostPour.N400.Proofs.GuardShapes

namespace GhostPour.N400

open Regex

section

variable [PyRuntime]

/-! ### What each guard assumes -/

/-- The shapes a guard assumes of the object that reaches it. -/
def GuardFits (input : GuardInput) : GuardStep → GuardState Dict → Prop
  | .readbacks, s =>
      hasWords (s.response.get (py "reply")) = true →
        iterable (s.response.get (py "facts")) = true
  | .staleAsking, s =>
      ∀ node ids, askedNode (s.response.get (py "asking")) = some node →
        (agendaFieldIds input.agenda).get node = some ids →
          FieldsRead (s.response.get (py "facts"))
  | .wrongDigitCount, s =>
      hashedIds (s.response.get (py "facts")) = true ∧
        (Condemns wrongCountOf (itemsOf (s.response.get (py "facts"))) →
          extendable (s.response.get (py "facts_dropped")) = true)
  | .notAsSaid, s =>
      (∀ f ∈ itemsOf (s.response.get (py "facts")), filesIdentifier f = true → citable f = true) ∧
        (Condemns (notAsSaidOf input.locale) (itemsOf (s.response.get (py "facts"))) →
          extendable (s.response.get (py "facts_dropped")) = true)
  | .occupations, s =>
      (∃ f ∈ itemsOf (s.response.get (py "facts")),
          (occupationFix (knownOccupations input.knownFacts) f).entry.isSome = true) →
        extendable (s.response.get (py "facts_dropped")) = true
  | .evidence, s =>
      input.userContent.isSome = true →
        ∀ f ∈ itemsOf (s.response.get (py "facts")), citable f = true
  | .pushedBackNo, s =>
      (matchStart pushbackNo (pushbackText (orEmpty input.userContent))).isSome = true →
        (∀ f ∈ itemsOf (s.response.get (py "facts")), citable f = true) ∧
          (Condemns bareNo (itemsOf (s.response.get (py "facts"))) →
            extendable (s.response.get (py "facts_dropped")) = true)
  | .settledQuestion, s =>
      ∀ info, s.response.get (py "asking_dropped") = .obj info →
        (Dict.get info (py "question_still_spoken")).truthy = true →
        (Dict.get info (py "reason")).same (.str dropReason) = true →
          SwapFits input.agenda input.locale s.response info
  | .strayDeferrals, s =>
      filedValues input.knownFacts ≠ [] → hashedIds (s.response.get (py "deferred")) = true ∧
        (Condemns (strayDeferral (filedValues input.knownFacts) (standingFields input.agenda)
            (normText (orEmpty input.userContent))) (itemsOf (s.response.get (py "deferred"))) →
          extendable (s.response.get (py "deferrals_dropped")) = true)
  | .unknownOrigins, s => iterable (s.response.get (py "deferred")) = true
  | .alsoDeferred, s =>
      ∀ deferred facts, s.response.get (py "deferred") = .arr deferred → deferred ≠ [] →
        s.response.get (py "facts") = .arr facts → SeparationFits s.response deferred facts
  | .unspokenDays, s =>
      ∀ said, input.userContent = some said → said ≠ [] →
        ∀ facts, s.response.get (py "facts") = .arr facts →
          DatesFit (unspokenDay said input.knownFacts input.conversation) s.response facts
  | .offPartials, s =>
      ∀ said, input.userContent = some said → orEmpty input.knownFacts ≠ [] →
        ∀ facts, s.response.get (py "facts") = .arr facts →
          DatesFit (offPartial input.knownFacts (fold said)) s.response facts
  | .reask, _ | .probation, _ | .trips, _ | .nonAnswer, _ | .replyShape, _ | .interviewOver, _
  | .options, _ | .battery, _ | .checkpointBesideAsking, _ | .unusableReply, _ => True

omit [PyRuntime] in
/-- Where the fields of the facts can be collected, what is collected of fewer facts can be too. -/
theorem hashedIds_of_shrinks {before after : Json} (shrinks : Shrinks before after)
    (hashed : hashedIds before = true) : hashedIds after = true := by
  rcases shrinks with rfl | ⟨facts, kept, rfl, rfl, sub⟩
  · exact hashed
  · rw [hashedIds_iff] at hashed ⊢
    exact fun f member => hashed f (sub.subset member)

theorem rewritten_field {knownFacts : Option PyStr} {f g : Json} (fix : Rewritten knownFacts f g) :
    g.field "field_id" = f.field "field_id" := by
  cases fix with
  | same => rfl
  | occupation => exact Dict.get_set_of_ne _ _ (by decide)

/-- Fields that can be collected stay so through every guard. -/
theorem step_hashedIds {input : GuardInput} {a : GuardStep} {s s' : GuardState Dict}
    (step : (turnMachine input).step a s = some s')
    (hashed : hashedIds (s.response.get (py "facts")) = true) :
    hashedIds (s'.response.get (py "facts")) = true := by
  have filed : ∀ {facts added : List Json}, s.response.get (py "facts") = .arr facts →
      s'.response.get (py "facts") = .arr (facts ++ added) →
      (∀ f ∈ added, (f.field "field_id").hashable = true) →
      hashedIds (s'.response.get (py "facts")) = true := by
    intro facts added listed left each
    rw [listed, hashedIds_iff] at hashed
    rw [left, hashedIds_iff]
    intro f member
    rcases List.mem_append.mp member with old | new
    · exact hashed f old
    · exact each f new
  by_cases filing : a ∈ filingSteps
  · rcases List.mem_cons.mp filing with rfl | filing
    · rcases step_occupations step with same | ⟨facts, kept, rewritten, listed, left, sub, each⟩
      · rw [same]
        exact hashed
      · rw [listed, hashedIds_iff] at hashed
        rw [left, hashedIds_iff]
        intro g member
        obtain ⟨f, kept_, fix⟩ := exists_left_of_forall₂ each member
        rw [rewritten_field fix]
        exact hashed f (sub.subset kept_)
    rcases List.mem_cons.mp filing with rfl | filing
    · rcases step_probation step with same | ⟨facts, added, listed, left, rfl | ⟨cited, rfl, _⟩⟩
      · rw [same]
        exact hashed
      · exact filed listed left (by simp)
      · refine filed listed left fun f member => ?_
        rw [List.mem_singleton.mp member]
        rfl
    rw [List.mem_singleton.mp filing] at step
    rcases step_trips step with same | ⟨facts, added, listed, left, rfl | ⟨word, count, cited, rfl, _⟩⟩
    · rw [same]
      exact hashed
    · exact filed listed left (by simp)
    · refine filed listed left fun f member => ?_
      rw [List.mem_singleton.mp member]
      rfl
  · exact hashedIds_of_shrinks (step_shrinks filing step) hashed

/-! ### The chain -/

omit [PyRuntime] in
theorem through_isSome {ι : Type} (guard : Guard ι)
    (note : List ι → GuardState Dict → GuardState Dict) (s : GuardState Dict) :
    (s.through Guard.onTurn guard note).isSome = (guard s.response).isSome := by
  rw [GuardState.through, Option.isSome_map, Guard.onTurn, Option.isSome_map]

/-- The guards before the fields of the facts are known to be collected. -/
def stepsBeforeHashing : List GuardStep := [.readbacks, .staleAsking]

/-- The guards after it. -/
def stepsAfterHashing : List GuardStep :=
  [.notAsSaid, .reask, .occupations, .probation, .trips, .evidence, .pushedBackNo, .settledQuestion,
    .strayDeferrals, .unknownOrigins, .alsoDeferred, .nonAnswer, .unspokenDays, .offPartials,
    .replyShape, .interviewOver, .options, .battery, .checkpointBesideAsking, .unusableReply]

theorem wrongDigitCount_isSome (input : GuardInput) (s : GuardState Dict) :
    ((turnMachine input).step .wrongDigitCount s).isSome = true ↔
      GuardFits input .wrongDigitCount s := by
  have items : (∀ f ∈ itemsOf (s.response.get (py "facts")), (wrongCountOf f).isSome = true) ↔
      hashedIds (s.response.get (py "facts")) = true := by
    simp only [wrongCountOf_isSome]
    cases s.response.get (py "facts") with
    | arr facts => exact (hashedIds_iff facts).symm
    | _ => simp [itemsOf, hashedIds, idsOf, entriesOf]
  change Option.isSome (s.through Guard.onTurn _ _) = true ↔ _
  rw [through_isSome, dropIdentifiersWithWrongDigitCount, dropFacts_isSome, items]
  rfl

/-- After the guard that looks their fields up, the fields of the facts can be collected. -/
theorem hashed_of_wrongDigitCount {input : GuardInput} {s s' : GuardState Dict}
    (step : (turnMachine input).step .wrongDigitCount s = some s') :
    hashedIds (s'.response.get (py "facts")) = true := by
  have fits := (wrongDigitCount_isSome input s).mp (by rw [step]; rfl)
  exact step_hashedIds step fits.1

theorem before_isSome_iff (input : GuardInput) {a : GuardStep} (early : a ∈ stepsBeforeHashing)
    (s : GuardState Dict) :
    ((turnMachine input).step a s).isSome = true ↔ GuardFits input a s := by
  rcases List.mem_cons.mp early with rfl | early
  · change Option.isSome (s.logged Guard.onTurn correctIdentifierReadbacks) = true ↔ _
    rw [GuardState.logged, through_isSome, correctIdentifierReadbacks_isSome]
    rfl
  · rw [List.mem_singleton.mp early]
    change Option.isSome (s.logged Guard.onTurn _) = true ↔ _
    rw [GuardState.logged, through_isSome, dropStaleAsking_isSome]
    rfl

/-- A guard returns exactly when it finds the shapes it assumes. -/
theorem step_isSome_iff (input : GuardInput) {a : GuardStep} (late : a ∈ stepsAfterHashing)
    {s : GuardState Dict} (hashed : hashedIds (s.response.get (py "facts")) = true) :
    ((turnMachine input).step a s).isSome = true ↔ GuardFits input a s := by
  have logged : ∀ {ι : Type} (guard : Guard ι),
      (s.logged Guard.onTurn guard).isSome = (guard s.response).isSome :=
    fun guard => through_isSome guard _ s
  cases a with
  | readbacks | staleAsking | wrongDigitCount => exact absurd late (by decide)
  | notAsSaid =>
      change Option.isSome (s.through Guard.onTurn _ _) = true ↔ _
      rw [through_isSome, dropIdentifiersNotAsSaid, dropFacts_isSome, GuardFits]
      refine and_congr_left fun _ => forall₂_congr fun f member => ?_
      rw [notAsSaidOf_isSome, and_iff_right_iff_imp]
      intro _
      cases filed : s.response.get (py "facts") with
      | arr facts =>
          rw [filed] at hashed member
          exact (hashedIds_iff facts).mp hashed f member
      | _ =>
          rw [filed] at member
          cases member
  | occupations =>
      change Option.isSome (s.logged Guard.onTurn _) = true ↔ _
      rw [logged, fixOccupations_isSome]
      rfl
  | evidence =>
      change Option.isSome (guardStepOn _ input .evidence s) = true ↔ _
      rw [guardStepOn, GuardFits]
      cases input.userContent with
      | none => simp
      | some said =>
          rw [logged, dropFactsWithoutCurrentEvidence_isSome _ hashed]
          simp
  | pushedBackNo =>
      change Option.isSome (s.logged Guard.onTurn _) = true ↔ _
      rw [logged, dropNoThatPushedBack_isSome]
      rfl
  | settledQuestion =>
      change Option.isSome (s.logged Guard.onTurn _) = true ↔ _
      rw [logged, replaceSettledQuestion_isSome]
      rfl
  | strayDeferrals =>
      change Option.isSome (s.logged Guard.onTurn _) = true ↔ _
      rw [logged, dropDeferralsOfFiledValues_isSome]
      rfl
  | unknownOrigins =>
      change Option.isSome (s.logged Guard.onTurn _) = true ↔ _
      rw [logged, markUnknownDeferralOrigins_isSome]
      rfl
  | alsoDeferred =>
      change Option.isSome (s.logged Guard.onTurn _) = true ↔ _
      rw [logged, dropFactsThatAreAlsoDeferred_isSome hashed]
      rfl
  | unspokenDays =>
      change Option.isSome (guardStepOn _ input .unspokenDays s) = true ↔ _
      rw [guardStepOn, GuardFits]
      cases input.userContent with
      | none => simp
      | some said =>
          rw [logged, deferDatesWithUnspokenDay]
          by_cases quiet : said = []
          · simp [quiet, orEmpty]
          · have words : orEmpty (some said) = said := rfl
            rw [words, if_neg quiet, deferDates_isSome (unspokenDay_judges _ _ _) _ hashed]
            simp [quiet]
  | offPartials =>
      change Option.isSome (guardStepOn _ input .offPartials s) = true ↔ _
      rw [guardStepOn, GuardFits]
      cases input.userContent with
      | none => simp
      | some said =>
          rw [logged, deferDatesOffTheirKnownPartial]
          by_cases blank : orEmpty input.knownFacts = []
          · simp [blank]
          · have words : orEmpty (some said) = said := rfl
            rw [words, if_neg blank, deferDates_isSome (offPartial_judges _ _) _ hashed]
            simp [blank]
  | options =>
      change Option.isSome (s.logged Guard.onTurn _) = true ↔ _
      rw [logged]
      exact iff_of_true (markValuesOutsideDeclaredOptions_isSome _ _ hashed) trivial
  | battery =>
      change Option.isSome (s.logged Guard.onTurn _) = true ↔ _
      rw [logged]
      exact iff_of_true (markBatteryShortfall_isSome _ hashed) trivial
  | reask =>
      change Option.isSome (s.logged Guard.onTurn _) = true ↔ _
      rw [logged, reaskDroppedIdentifier.eq_def]
      refine iff_of_true ?_ trivial
      split <;> rfl
  | probation =>
      change Option.isSome (s.logged Guard.onTurn (fileProbationNeverHad _ _)) = true ↔ _
      rw [logged]
      exact iff_of_true rfl trivial
  | trips =>
      change Option.isSome (s.logged Guard.onTurn (closeTripsOnStatedCount _)) = true ↔ _
      rw [logged]
      exact iff_of_true rfl trivial
  | nonAnswer =>
      change Option.isSome (s.logged Guard.onTurn _) = true ↔ _
      rw [logged, markFactsMintedOnANonAnswer.eq_def]
      refine iff_of_true ?_ trivial
      split
      · exact isSome_ite rfl rfl
      · rfl
  | replyShape =>
      change Option.isSome (s.logged Guard.onTurn _) = true ↔ _
      rw [logged, normalizeReplyShape.eq_def]
      refine iff_of_true ?_ trivial
      split <;> rfl
  | interviewOver =>
      change Option.isSome (s.logged Guard.onTurn _) = true ↔ _
      rw [logged]
      exact iff_of_true (isSome_ite rfl rfl) trivial
  | checkpointBesideAsking =>
      change Option.isSome (s.logged Guard.onTurn _) = true ↔ _
      rw [logged]
      exact iff_of_true (isSome_ite rfl (isSome_ite rfl (isSome_ite rfl rfl))) trivial
  | unusableReply =>
      change Option.isSome (s.logged Guard.onTurn _) = true ↔ _
      rw [logged]
      exact iff_of_true (isSome_ite rfl rfl) trivial

/-- The chain on an object returns exactly when every guard finds the shapes it assumes. -/
theorem guardTurn_isSome_iff (input : GuardInput) (turn : Dict) :
    (guardTurn input turn).isSome = true ↔
      (turnMachine input).Along (GuardFits input) guardOrder (.init turn) := by
  have order : guardOrder = stepsBeforeHashing ++ (.wrongDigitCount :: stepsAfterHashing) := rfl
  have before (s : GuardState Dict) :
      ((turnMachine input).run stepsBeforeHashing s).isSome = true ↔
        (turnMachine input).Along (GuardFits input) stepsBeforeHashing s :=
    Machine.run_isSome_iff (I := fun _ => True) (fun _ _ _ _ _ => trivial)
      (fun a early s _ => before_isSome_iff input early s) trivial
  have after (s : GuardState Dict) (hashed : hashedIds (s.response.get (py "facts")) = true) :
      ((turnMachine input).run stepsAfterHashing s).isSome = true ↔
        (turnMachine input).Along (GuardFits input) stepsAfterHashing s :=
    Machine.run_isSome_iff
      (I := fun s : GuardState Dict => hashedIds (s.response.get (py "facts")) = true)
      (fun _ _ _ hashed step => step_hashedIds step hashed)
      (fun a late s hashed => step_isSome_iff input late hashed) hashed
  rw [guardTurn, Option.isSome_map, order, Machine.run_append, isSome_bind_iff, before,
    Machine.along_append]
  refine and_congr_right fun _ => forall_congr' fun s => imp_congr_right fun _ => ?_
  rw [Machine.run_cons, isSome_bind_iff, wrongDigitCount_isSome, Machine.Along]
  refine and_congr_right fun _ => forall_congr' fun s' => imp_congr_right fun step => ?_
  exact after s' (hashed_of_wrongDigitCount step)

/-- The guards return on a text, and leave a text that is not an object as it is. -/
def Returns (input : GuardInput) (text : PyStr) : Prop :=
  (guardResponseText input text).isSome = true ∧
    (turnOf text = none → guardResponseText input text = some text)

end

/-! ### A field id that is a list -/

/-- No agenda and no words. -/
def nothingElse : GuardInput where
  agenda := none
  userContent := none
  conversation := none
  choiceFields := .null
  locale := none
  knownFacts := none
  lineIds := none

/-- A response with a fact whose field id is a list. -/
def listForAFieldId : PyStr := py "\x7b\"facts\": [\x7b\"field_id\": []\x7d]\x7d"

end GhostPour.N400
