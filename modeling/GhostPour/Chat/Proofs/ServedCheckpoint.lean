/-
Module: GhostPour.Chat.Proofs.ServedCheckpoint
Layer: Proofs
Purpose: When the checkpoint of the text that is served stands. Each stage of the tail and each guard
  leaves a checkpoint that stands or one that does not, which is read off the text before it; the last
  ones to touch the text decide.
Trusted boundary: none
Main exports: Stands, Refusal.Leaves, stageLeaves, guardLeaves, Leaves, served_checkpoint_iff
-/
import GhostPour.Chat.Proofs.TailObject
import GhostPour.Chat.TurnTail
import GhostPour.N400.Proofs.StandingCheckpoint

namespace GhostPour.Chat

open N400

section

variable [PyRuntime]

/-- The text is no object, or its checkpoint stands. -/
def Stands (input : GuardInput) (text : PyStr) : Prop :=
  ∀ turn, turnOf text = some turn → (countedOf turn).Stands input.agenda input.knownFacts

theorem stands_of_turn {input : GuardInput} {text : PyStr} {turn : Dict}
    (read : turnOf text = some turn) :
    Stands input text ↔ (countedOf turn).Stands input.agenda input.knownFacts := by
  rw [Stands, read]
  simp only [Option.some.injEq, forall_eq']

theorem stands_of_prose {input : GuardInput} {text : PyStr} (prose : turnOf text = none) :
    Stands input text := by
  intro turn read
  rw [prose] at read
  cases read

/-! ### The refusals -/

/-- What a stage leaves of a property: that of the text it passes, that of the retry it accepts, or
what it keeps of the text where it gives up. -/
def Refusal.Leaves {ι : Type} (refusal : Refusal ι) (P : PyStr → Prop) (kept : Prop)
    (retry : Option PyStr) (text : PyStr) : Prop :=
  if refusal.refuses text then
    if refusal.accepts (retryText retry) = some true then P (retryText retry) else kept
  else P text

theorem refuseAndRetry_leaves_iff {ι : Type} {refusal : Refusal ι} {P : PyStr → Prop} {kept : Prop}
    {retry : Option PyStr} {text out : PyStr}
    (marks : ∀ info resolved left, refusal.check text = some (some info) →
      (P (refusal.mark info resolved left) ↔ P left))
    (gives : ∀ info left, refusal.check text = some (some info) →
      refusal.giveUp info text = some left → (P left ↔ kept))
    (run : refuseAndRetry refusal retry text = some out) :
    P out ↔ refusal.Leaves P kept retry text := by
  rw [Refusal.Leaves]
  rcases refuseAndRetry_cases run with ⟨passed, rfl⟩ | ⟨info, found, outcome⟩
  · have quiet : ¬refusal.refuses out = true := by
      rw [refusal.refuses_iff, passed]
      rintro ⟨info, found⟩
      cases found
    rw [if_neg quiet]
  · rw [if_pos ((refusal.refuses_iff text).mpr ⟨info, found⟩)]
    rcases outcome with ⟨accepted, rfl⟩ | ⟨rejected, left, gaveUp, rfl⟩
    · rw [if_pos accepted]
      exact marks info true _ found
    · have unaccepted : ¬refusal.accepts (retryText retry) = some true := by
        rw [rejected]
        decide
      rw [if_neg unaccepted, marks info false left found]
      exact gives info left found gaveUp

/-- A mark under another key leaves the checkpoint as it stands. -/
theorem stands_markTurn_iff {input : GuardInput} {key : String} {mark : Json}
    (canonical : mark.Canonical)
    (other : py key ∉ [py "section_checkpoint", py "facts", py "deferred"]) (text : PyStr) :
    Stands input (markTurn key mark text) ↔ Stands input text := by
  cases read : turnOf text with
  | none => rw [markTurn_of_not_object read]
  | some turn =>
      have same : countedOf (turn.set (py key) mark) = countedOf turn := by
        simp only [List.mem_cons, List.not_mem_nil, or_false, not_or] at other
        rw [countedOf, Dict.get_set_of_ne _ _ other.1, Dict.get_set_of_ne _ _ other.2.1,
          Dict.get_set_of_ne _ _ other.2.2]
        rfl
      rw [stands_of_turn (turnOf_markTurn read canonical), stands_of_turn read, same]

/-- What the tail is tested on once the inverted dates are dropped. -/
def withoutDates (inverted : List PyStr) (turn : Dict) : Counted :=
  { countedOf turn with
    facts := (countedOf turn).facts.map (List.filter fun f => fieldIdIn inverted f != some true) }

/-- What a stage of the tail leaves of the checkpoint. -/
def stageLeaves (input : GuardInput) (stage : TailStage) (retry : Option PyStr) (text : PyStr) :
    Prop :=
  match stage with
  | .checkpoint => (checkpointRefusal (tailInput input)).Leaves (Stands input)
      (∃ info, checkpointContradictsAgenda text input.agenda = some (some info)) retry text
  | .oath => oathRefusal.Leaves (Stands input) (Stands input text) retry text
  | .closing => (closingRefusal (tailInput input)).Leaves (Stands input) (Stands input text) retry text
  | .dates => (dateRefusal (tailInput input)).Leaves (Stands input)
      (∀ turn, turnOf text = some turn →
        (withoutDates ((dateInversions text input.knownFacts).map (·.fieldId)) turn).Stands
          input.agenda input.knownFacts) retry text

/-- A refused checkpoint that is given up on is gone where the agenda contradicts it, and stays
where it reads back nothing. -/
theorem checkpoint_gives {input : GuardInput} {text left : PyStr} {info : Json}
    (refused : (checkpointRefusal (tailInput input)).check text = some (some info))
    (gaveUp : (checkpointRefusal (tailInput input)).giveUp info text = some left) :
    Stands input left ↔
      ∃ info, checkpointContradictsAgenda text input.agenda = some (some info) := by
  obtain ⟨⟨left', dropped⟩, run, rfl⟩ := Option.map_eq_some_iff.mp gaveUp
  rcases dropContradictedCheckpoint_turn run with ⟨_, same, clear⟩ | ⟨info, turn, _, found, _, after⟩
  · have same : (left', dropped).1 = text := same
    have unsound : ¬Stands input text := by
      rw [Stands, ← checkpointIsRefused_none_iff]
      change checkpointIsRefused text input.agenda input.knownFacts = some (some info) at refused
      rw [refused]
      rintro ⟨⟩
    rw [same]
    refine iff_of_false unsound ?_
    rintro ⟨info, found⟩
    cases clear.symm.trans found
  · refine iff_of_true ?_ ⟨info, found⟩
    rw [stands_of_turn after]
    apply Counted.stands_of_null
    rw [countedOf, Dict.get_set_of_ne _ _ (by decide)]
    exact Dict.get_set_self _ _ _

omit [PyRuntime] in
/-- What is kept of a list whose members are judged one by one. -/
theorem keptOf_judged {ids : List PyStr} {facts : List Json} {drops : List Bool}
    (judged : facts.mapM (fieldIdIn ids) = some drops) :
    (((facts.zip drops).filter fun f => !f.2).map Prod.fst) =
      facts.filter fun f => fieldIdIn ids f != some true := by
  rw [filter_zip_of_mapM not judged]
  refine List.filter_congr fun f filed => ?_
  obtain ⟨drop, _, here⟩ := mapM_mem judged filed
  rw [here]
  cases drop <;> rfl

/-- Dropping the inverted dates takes their facts from the test. -/
theorem dates_give {input : GuardInput} {text left : PyStr} {inversions : List Inversion}
    (refused : (dateRefusal (tailInput input)).check text = some (some inversions))
    (gaveUp : (dateRefusal (tailInput input)).giveUp inversions text = some left) :
    Stands input left ↔ ∀ turn, turnOf text = some turn →
      (withoutDates ((dateInversions text input.knownFacts).map (·.fieldId)) turn).Stands
        input.agenda input.knownFacts := by
  obtain ⟨same, some_⟩ := dateRefusal_check refused
  have same : inversions = dateInversions text input.knownFacts := same
  have gaveUp : dropInvertedDates text inversions = some left := gaveUp
  rw [← same]
  -- an inversion was found, so the text is an object with a list of facts
  obtain ⟨turn, facts, read, listed⟩ : ∃ turn facts, turnOf text = some turn ∧
      turn.get (py "facts") = .arr facts := by
    rw [same, dateInversions] at some_
    split at some_
    · next turn read =>
      split at some_
      · next facts listed => exact ⟨turn, facts, read, listed⟩
      · exact absurd rfl some_
    · exact absurd rfl some_
  obtain ⟨drops, judged, after⟩ := dropInvertedDates_of_list read listed gaveUp
  have counted : countedOf (turn.set (py "facts")
      (.arr (((facts.zip drops).filter fun f => !f.2).map Prod.fst))) =
      withoutDates (inversions.map (·.fieldId)) turn := by
    rw [withoutDates, countedOf, countedOf, Dict.get_set_self, Dict.get_set_of_ne _ _ (by decide),
      Dict.get_set_of_ne _ _ (by decide), listed, countedEntries_arr, countedEntries_arr,
      keptOf_judged judged, Option.map_some, List.filter_filter, List.filter_filter]
    simp only [Bool.and_comm]
  rw [stands_of_turn after, counted, read]
  simp only [Option.some.injEq, forall_eq']

theorem tailStep_leaves_iff {input : GuardInput} {stage : TailStage} {retry : Option PyStr}
    {text out : PyStr} (run : tailStep (tailInput input) (stage, retry) text = some out) :
    Stands input out ↔ stageLeaves input stage retry text := by
  cases stage with
  | checkpoint =>
      refine refuseAndRetry_leaves_iff ?_ (fun info left => checkpoint_gives) run
      intro info resolved left refused
      exact stands_markTurn_iff (canonical_refusalMark (canonical_checkpointIsRefused refused)
        (by decide) resolved) (by decide) left
  | oath =>
      refine refuseAndRetry_leaves_iff ?_ ?_ run
      · intro info resolved left refused
        exact stands_markTurn_iff (canonical_refusalMark
          (canonical_offersImpossibleOathModification (Option.some.inj refused)) (by decide)
          resolved) (by decide) left
      · intro info left _ gaveUp
        cases gaveUp
        exact Iff.rfl
  | closing =>
      refine refuseAndRetry_leaves_iff ?_ ?_ run
      · intro info resolved left refused
        exact stands_markTurn_iff (canonical_refusalMark
          (canonical_closesInWords (Option.some.inj refused)) (by decide) resolved) (by decide) left
      · intro info left _ gaveUp
        cases gaveUp
        exact Iff.rfl
  | dates =>
      refine refuseAndRetry_leaves_iff ?_ (fun info left => dates_give) run
      intro inversions resolved left refused
      obtain ⟨same, _⟩ := dateRefusal_check refused
      rw [same]
      exact stands_markTurn_iff (canonical_dateMark text input.knownFacts resolved) (by decide) left

/-! ### The guards -/

/-- What a guard leaves of the checkpoint. -/
def guardLeaves (input : GuardInput) (a : GuardStep) (st : GuardState PyStr) : Prop :=
  ∀ turn, turnOf st.response = some turn →
    (countAfter input a ⟨turn, st.wrongCount, st.notAsSaid⟩).Stands input.agenda input.knownFacts

theorem guardStep_leaves_iff {input : GuardInput} {a : GuardStep} {st st' : GuardState PyStr}
    (step : guardStepOn Guard.onText input a st = some st') :
    Stands input st'.response ↔ guardLeaves input a st := by
  rw [guardLeaves]
  cases read : turnOf st.response with
  | none =>
      obtain ⟨left, same, unchanged⟩ := step_of_prose input a read
      cases step.symm.trans same
      refine iff_of_true ?_ (fun turn found => nomatch found)
      rw [unchanged]
      exact stands_of_prose read
  | some turn =>
      have related := step_mirrors input a (t := ⟨turn, st.wrongCount, st.notAsSaid⟩)
        ⟨read, rfl, rfl⟩
      rw [show (N400.guardMachine Guard.onText input).step a st = some st' from step] at related
      obtain ⟨after, taken, mirrored⟩ := some_of_rel related
      rw [stands_of_turn mirrored.response, step_counts taken]
      simp only [Option.some.injEq, forall_eq']

/-! ### The turn -/

/-- What a step of the tail leaves of the checkpoint. -/
def Leaves (input : GuardInput) : TurnStep → GuardState PyStr → Prop
  | .refusal (stage, retry), st => stageLeaves input stage retry st.response
  | .guard a, st => guardLeaves input a st

/-- The step is the one after which the checkpoint stands. -/
def Settles (input : GuardInput) (step : TurnStep) (st : GuardState PyStr) : Prop :=
  ¬Stands input st.response ∧ Leaves input step st

theorem turnStep_leaves_iff {input : GuardInput} {a : TurnStep} {st st' : GuardState PyStr}
    (step : turnStep input a st = some st') : Stands input st'.response ↔ Leaves input a st := by
  cases a with
  | refusal stage =>
      obtain ⟨text, run, rfl⟩ := Option.map_eq_some_iff.mp step
      exact tailStep_leaves_iff run
  | guard a => exact guardStep_leaves_iff step

/-- The checkpoint that is served is not refused exactly when it stood in the first text and every step
left it so, or a step made it stand and every later one left it so. -/
theorem served_checkpoint_iff (input : GuardInput) (retries : Retries) {text out : PyStr}
    (run : servedText input retries text = some out) :
    checkpointIsRefused out input.agenda input.knownFacts = some none ↔
      Stands input text ∧
        (servingMachine input).Along (Leaves input) (turnSteps retries) (.init text) ∨
      (servingMachine input).Lasts (Settles input) (Leaves input) (turnSteps retries)
        (.init text) := by
  rw [servedText_eq_run] at run
  obtain ⟨last, steps, rfl⟩ := Option.map_eq_some_iff.mp run
  have exactly : ∀ a s s', (servingMachine input).step a s = some s' →
      (Stands input s'.response ↔ Settles input a s ∨ Stands input s.response ∧ Leaves input a s) := by
    intro a s s' step
    rw [turnStep_leaves_iff step, Settles, ← or_and_right]
    exact (and_iff_right (Classical.em _).symm).symm
  rw [checkpointIsRefused_none_iff]
  exact Machine.run_lasts_iff (Q := fun s => Stands input s.response) exactly steps

end

/-! ### Nothing to read back

The agenda does not contradict the claim, so giving up on it leaves it. -/

/-- Only her name is on file. -/
def nameOnFile : GuardInput where
  agenda := none
  userContent := none
  conversation := none
  choiceFields := .null
  locale := none
  knownFacts := some (py "p1.current_name: Ana")
  lineIds := none

/-- No retry brings a text. -/
def noRetries : Retries := ⟨none, none, none, none⟩

/-- The claim of a part with nothing on file, with the mark of its refusal. -/
def unresolvedText : PyStr :=
  py "\x7b\"section_checkpoint\": \x7b\"part\": 9\x7d, \"checkpoint_refused\": \x7b\"part\": 9, " ++
    py "\"code\": \"no_confirmed_fact\", \"reason\": " ++ (dquote :: (nothingRecordedReason ++
    py "\", \"retried\": true, \"resolved\": false\x7d\x7d"))

/-- The refusals hand the claim on, and no guard takes it. -/
theorem unresolved_served :
    letI := PyRuntime.ascii
    servedText nameOnFile noRetries claimsPartNine = some unresolvedText := by
  let _ := PyRuntime.ascii
  have first : tailStep (tailInput nameOnFile) (.checkpoint, none) claimsPartNine =
      some unresolvedText := by decide +kernel
  have oath : tailStep (tailInput nameOnFile) (.oath, none) unresolvedText =
      some unresolvedText := by decide +kernel
  have closing : tailStep (tailInput nameOnFile) (.closing, none) unresolvedText =
      some unresolvedText := by decide +kernel
  have dates : tailStep (tailInput nameOnFile) (.dates, none) unresolvedText =
      some unresolvedText := by decide +kernel
  have guarded : guardResponseText nameOnFile unresolvedText = some unresolvedText := by
    decide +kernel
  have tail : turnTail (tailInput nameOnFile) noRetries claimsPartNine = some unresolvedText :=
    turnTail_of_first first oath closing dates
  rw [servedText, tail, Option.bind_some, guarded]

theorem served_checkpoint_iff_unresolved :
    letI := PyRuntime.ascii
    servedText nameOnFile noRetries claimsPartNine = some unresolvedText ∧
      (checkpointIsRefused unresolvedText none (some (py "p1.current_name: Ana")) = some none ↔
        Stands nameOnFile claimsPartNine ∧
          (servingMachine nameOnFile).Along (Leaves nameOnFile) (turnSteps noRetries)
            (.init claimsPartNine) ∨
        (servingMachine nameOnFile).Lasts (Settles nameOnFile) (Leaves nameOnFile)
          (turnSteps noRetries) (.init claimsPartNine)) := by
  let _ := PyRuntime.ascii
  exact ⟨unresolved_served, served_checkpoint_iff nameOnFile noRetries unresolved_served⟩

/-- The refused claim is served. -/
theorem refused_checkpoint_is_served :
    letI := PyRuntime.ascii
    ¬ ∀ (input : GuardInput) (retries : Retries) (text out : PyStr), HoldsObject text →
      servedText input retries text = some out →
      checkpointIsRefused out input.agenda input.knownFacts = some none := by
  let _ := PyRuntime.ascii
  intro never
  have object : HoldsObject claimsPartNine := by decide +kernel
  have refused : (checkpointIsRefused unresolvedText nameOnFile.agenda nameOnFile.knownFacts).any
      Option.isSome = true := by decide +kernel
  rw [never nameOnFile noRetries claimsPartNine unresolvedText object unresolved_served] at refused
  cases refused

end GhostPour.Chat
