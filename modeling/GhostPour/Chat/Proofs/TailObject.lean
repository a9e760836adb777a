/-
Module: GhostPour.Chat.Proofs.TailObject
Layer: Proofs
Purpose: When the refusals of the tail hand on a JSON object. A check lets every text pass that it
  cannot parse, so a retry in prose is accepted where it is asked for, and no later stage refuses it.
Trusted boundary: none
Main exports: Refusal.Lawful, refuseAndRetry_object_iff, tail_keeps_object_iff
-/
import GhostPour.Chat.TurnTail
import GhostPour.N400.Proofs.RefusalInfo

namespace GhostPour.Chat

open N400

section

variable [PyRuntime]

/-- The text is one JSON object. -/
def HoldsObject (text : PyStr) : Prop := (turnOf text).isSome = true

instance (text : PyStr) : Decidable (HoldsObject text) :=
  inferInstanceAs (Decidable ((turnOf text).isSome = true))

theorem not_holdsObject {text : PyStr} : ¬HoldsObject text ↔ turnOf text = none := by
  rw [HoldsObject, Option.not_isSome_iff_eq_none]

theorem holdsObject_of_turn {text : PyStr} {turn : Dict} (read : turnOf text = some turn) :
    HoldsObject text := by
  rw [HoldsObject, read]
  rfl

/-- A retry that brings no text at all, or a JSON object. -/
def ReadableRetry (retry : Option PyStr) : Prop :=
  retryText retry = [] ∨ HoldsObject (retryText retry)

instance (retry : Option PyStr) : Decidable (ReadableRetry retry) :=
  inferInstanceAs (Decidable (_ ∨ _))

/-! ### One stage -/

/-- What a refusal does to texts that are objects and to texts that are not. -/
structure Refusal.Lawful {ι : Type} (refusal : Refusal ι) : Prop where
  /-- What cannot be parsed is let pass. -/
  passes : ∀ text, ¬HoldsObject text → refusal.check text = some none
  /-- Giving up on an object leaves an object. -/
  keeps : ∀ text info out, refusal.check text = some (some info) →
    refusal.giveUp info text = some out → HoldsObject out
  /-- The mark neither makes nor loses an object. -/
  marks : ∀ text info resolved kept, refusal.check text = some (some info) →
    (HoldsObject (refusal.mark info resolved kept) ↔ HoldsObject kept)

/-- Whether a check refuses a text. -/
def Refusal.refuses {ι : Type} (refusal : Refusal ι) (text : PyStr) : Bool :=
  match refusal.check text with
  | some (some _) => true
  | _ => false

omit [PyRuntime] in
theorem Refusal.refuses_iff {ι : Type} (refusal : Refusal ι) (text : PyStr) :
    refusal.refuses text = true ↔ ∃ info, refusal.check text = some (some info) := by
  rw [refuses]
  split
  · next info found => simp [found]
  · next other => simpa using fun info found => other info found

/-- What is refused is an object. -/
theorem Refusal.Lawful.object {ι : Type} {refusal : Refusal ι} (lawful : refusal.Lawful)
    {text : PyStr} (refused : refusal.refuses text = true) : HoldsObject text := by
  obtain ⟨info, found⟩ := (refusal.refuses_iff text).mp refused
  by_contra prose
  rw [lawful.passes text prose] at found
  cases found

/-- The outcomes of a stage: passed, resolved by the retry, or given up. -/
theorem refuseAndRetry_cases {ι : Type} {refusal : Refusal ι} {retry : Option PyStr}
    {text out : PyStr} (run : refuseAndRetry refusal retry text = some out) :
    (refusal.check text = some none ∧ out = text) ∨
    ∃ info, refusal.check text = some (some info) ∧
      ((refusal.accepts (retryText retry) = some true ∧
          out = refusal.mark info true (retryText retry)) ∨
        (refusal.accepts (retryText retry) = some false ∧
          ∃ left, refusal.giveUp info text = some left ∧ out = refusal.mark info false left)) := by
  rw [refuseAndRetry, Option.bind_eq_bind, Option.bind_eq_some_iff] at run
  obtain ⟨checked, found, rest⟩ := run
  cases checked with
  | none =>
      cases rest
      exact .inl ⟨found, rfl⟩
  | some info =>
      rw [Option.bind_eq_bind, Option.bind_eq_some_iff] at rest
      obtain ⟨accepted, verdict, outcome⟩ := rest
      refine .inr ⟨info, found, ?_⟩
      cases accepted with
      | true =>
          cases outcome
          exact .inl ⟨verdict, rfl⟩
      | false =>
          rw [if_neg Bool.false_ne_true, Option.bind_eq_bind, Option.bind_eq_some_iff] at outcome
          obtain ⟨left, gaveUp, same⟩ := outcome
          cases same
          exact .inr ⟨verdict, left, gaveUp, rfl⟩

/-- A text in prose is accepted. -/
theorem Refusal.Lawful.accepts_prose {ι : Type} {refusal : Refusal ι} (lawful : refusal.Lawful)
    {text : PyStr} (there : text ≠ []) (prose : ¬HoldsObject text) :
    refusal.accepts text = some true := by
  rw [accepts, if_neg there, lawful.passes text prose]
  rfl

/-- A stage hands on an object exactly when it was given one and did not ask for a retry in
prose. -/
theorem refuseAndRetry_object_iff {ι : Type} {refusal : Refusal ι} (lawful : refusal.Lawful)
    {retry : Option PyStr} {text out : PyStr}
    (run : refuseAndRetry refusal retry text = some out) :
    HoldsObject out ↔ HoldsObject text ∧ (refusal.refuses text = true → ReadableRetry retry) := by
  rcases refuseAndRetry_cases run with ⟨passed, rfl⟩ | ⟨info, found, outcome⟩
  · have quiet : ¬refusal.refuses out = true := by
      rw [refusal.refuses_iff, passed]
      rintro ⟨info, found⟩
      cases found
    exact ⟨fun object => ⟨object, fun refused => (quiet refused).elim⟩, And.left⟩
  · have refused : refusal.refuses text = true := (refusal.refuses_iff text).mpr ⟨info, found⟩
    have given : HoldsObject text := lawful.object refused
    rcases outcome with ⟨accepted, rfl⟩ | ⟨rejected, left, gaveUp, rfl⟩
    · have there : retryText retry ≠ [] := by
        intro empty
        rw [Refusal.accepts, if_pos empty] at accepted
        cases accepted
      rw [lawful.marks text info true _ found]
      constructor
      · exact fun object => ⟨given, fun _ => .inr object⟩
      · rintro ⟨_, readable⟩
        exact (readable refused).resolve_left there
    · have readable : ReadableRetry retry := by
        by_cases there : retryText retry = []
        · exact .inl there
        · right
          by_contra prose
          rw [lawful.accepts_prose there prose] at rejected
          cases rejected
      rw [lawful.marks text info false _ found]
      exact ⟨fun _ => ⟨given, fun _ => readable⟩, fun _ => lawful.keeps text info left found gaveUp⟩

/-! ### The four stages are lawful -/

theorem markTurn_holdsObject {key : String} {mark : Json} (canonical : mark.Canonical)
    (text : PyStr) : HoldsObject (markTurn key mark text) ↔ HoldsObject text := by
  rw [HoldsObject, HoldsObject, turnOf_markTurn_isSome canonical]

theorem dropContradictedCheckpoint_turn {text out : PyStr} {agenda : Option PyStr}
    {dropped : Option Json} (run : dropContradictedCheckpoint text agenda = some (out, dropped)) :
    (dropped = none ∧ out = text ∧ checkpointContradictsAgenda text agenda = some none) ∨
    ∃ info turn, dropped = some info ∧ checkpointContradictsAgenda text agenda = some (some info) ∧
      turnOf text = some turn ∧
      turnOf out = some ((turn.set (py "section_checkpoint") .null).set
        (py "checkpoint_dropped") info) := by
  rw [dropContradictedCheckpoint, Option.bind_eq_bind, Option.bind_eq_some_iff] at run
  obtain ⟨checked, found, rest⟩ := run
  cases checked with
  | none =>
      cases rest
      exact .inl ⟨rfl, rfl, found⟩
  | some info =>
      cases read : turnOf text with
      | none => simp [read] at rest
      | some turn =>
          simp only [read, Option.pure_def, Option.some.injEq, Prod.mk.injEq] at rest
          obtain ⟨rfl, rfl⟩ := rest
          have canonical := canonical_set (canonical_set (canonical_turnOf read)
            (py "section_checkpoint") canonical_null) (py "checkpoint_dropped")
            (canonical_checkpointContradictsAgenda found)
          exact .inr ⟨info, turn, rfl, found, rfl, turnOf_dumps canonical⟩

theorem checkpointRefusal_lawful (input : TailInput) : (checkpointRefusal input).Lawful where
  passes text prose := by
    rw [not_holdsObject] at prose
    simp [checkpointRefusal, checkpointIsRefused, checkpointContradictsAgenda,
      checkpointReadsBackNothing, prose]
  keeps text info out refused gaveUp := by
    have object : HoldsObject text := by
      by_contra prose
      rw [not_holdsObject] at prose
      simp [checkpointRefusal, checkpointIsRefused, checkpointContradictsAgenda,
        checkpointReadsBackNothing, prose] at refused
    obtain ⟨⟨out', dropped⟩, run, rfl⟩ := Option.map_eq_some_iff.mp gaveUp
    rcases dropContradictedCheckpoint_turn run with ⟨_, same, _⟩ | ⟨info, turn, _, _, _, after⟩
    · rw [show (out', dropped).1 = text from same]
      exact object
    · exact holdsObject_of_turn after
  marks text info resolved kept refused :=
    markTurn_holdsObject (canonical_refusalMark (canonical_checkpointIsRefused refused) (by decide)
      resolved) kept

theorem offers_none_of_prose {text : PyStr} (prose : ¬HoldsObject text) :
    offersImpossibleOathModification text = none := by
  rw [not_holdsObject, turnOf] at prose
  rw [offersImpossibleOathModification]
  split
  · next turn read =>
    rw [read] at prose
    cases prose
  · rfl

theorem oathRefusal_lawful : oathRefusal.Lawful where
  passes text prose := congrArg some (offers_none_of_prose prose)
  keeps text info out refused gaveUp := by
    cases gaveUp
    by_contra prose
    cases (congrArg some (offers_none_of_prose prose)).symm.trans refused
  marks text info resolved kept refused :=
    markTurn_holdsObject (canonical_refusalMark
      (canonical_offersImpossibleOathModification (Option.some.inj refused)) (by decide)
      resolved) kept

theorem closes_none_of_prose {text : PyStr} (agenda : Option PyStr) (prose : ¬HoldsObject text) :
    closesInWordsWhileAgendaOpen text agenda = none := by
  rw [not_holdsObject, turnOf] at prose
  rw [closesInWordsWhileAgendaOpen]
  split
  · rfl
  · split
    · next turn read =>
      rw [read] at prose
      cases prose
    · rfl

theorem closingRefusal_lawful (input : TailInput) : (closingRefusal input).Lawful where
  passes text prose := congrArg some (closes_none_of_prose input.agenda prose)
  keeps text info out refused gaveUp := by
    cases gaveUp
    by_contra prose
    cases (congrArg some (closes_none_of_prose input.agenda prose)).symm.trans refused
  marks text info resolved kept refused :=
    markTurn_holdsObject (canonical_refusalMark
      (canonical_closesInWords (Option.some.inj refused)) (by decide) resolved) kept

theorem inversions_nil_of_prose {text : PyStr} (knownFacts : Option PyStr)
    (prose : ¬HoldsObject text) : dateInversions text knownFacts = [] := by
  rw [not_holdsObject] at prose
  rw [dateInversions, prose]

/-- Where the facts are a list, those of the inverted fields go. -/
theorem dropInvertedDates_of_list {text out : PyStr} {inversions : List Inversion} {turn : Dict}
    {facts : List Json} (read : turnOf text = some turn) (listed : turn.get (py "facts") = .arr facts)
    (run : dropInvertedDates text inversions = some out) :
    ∃ drops, facts.mapM (fieldIdIn (inversions.map (·.fieldId))) = some drops ∧
      turnOf out = some (turn.set (py "facts")
        (.arr (((facts.zip drops).filter fun f => !f.2).map Prod.fst))) := by
  rw [dropInvertedDates, read] at run
  dsimp only at run
  rw [listed] at run
  obtain ⟨drops, judged, outcome⟩ := Option.bind_eq_some_iff.mp run
  cases outcome
  have each : (Json.arr facts).Canonical := by
    rw [← listed]
    exact canonical_get (canonical_turnOf read) (py "facts")
  have kept : (Json.arr (((facts.zip drops).filter fun f => !f.2).map Prod.fst)).Canonical := by
    rw [canonical_arr_iff] at each ⊢
    intro v member
    obtain ⟨⟨f, dropped⟩, filtered, rfl⟩ := List.mem_map.mp member
    exact each f (List.of_mem_zip (List.mem_of_mem_filter filtered)).1
  exact ⟨drops, judged, turnOf_dumps (canonical_set (canonical_turnOf read) (py "facts") kept)⟩

/-- Dropping inverted dates changes the facts of the response and nothing else. -/
theorem dropInvertedDates_turn {text out : PyStr} {inversions : List Inversion}
    (run : dropInvertedDates text inversions = some out) :
    out = text ∨ ∃ turn facts drops, turnOf text = some turn ∧
      turn.get (py "facts") = .arr facts ∧
      facts.mapM (fieldIdIn (inversions.map (·.fieldId))) = some drops ∧
      turnOf out = some (turn.set (py "facts")
        (.arr (((facts.zip drops).filter fun f => !f.2).map Prod.fst))) := by
  by_cases lists : ∃ turn facts, turnOf text = some turn ∧ turn.get (py "facts") = .arr facts
  · obtain ⟨turn, facts, read, listed⟩ := lists
    obtain ⟨drops, judged, after⟩ := dropInvertedDates_of_list read listed run
    exact .inr ⟨turn, facts, drops, read, listed, judged, after⟩
  · rw [dropInvertedDates] at run
    split at run
    · next turn read =>
      split at run
      · next facts listed => exact (lists ⟨turn, facts, read, listed⟩).elim
      · cases run
        exact .inl rfl
    · cases run
      exact .inl rfl

theorem dateRefusal_check {input : TailInput} {text : PyStr} {inversions : List Inversion}
    (refused : (dateRefusal input).check text = some (some inversions)) :
    inversions = dateInversions text input.knownFacts ∧ inversions ≠ [] := by
  simp only [dateRefusal, Option.some.injEq] at refused
  split at refused
  · cases refused
  · next some_ =>
    rw [← Option.some.inj refused]
    exact ⟨rfl, some_⟩

/-- The mark of a date refusal can be written. -/
theorem canonical_dateMark (text : PyStr) (knownFacts : Option PyStr) (resolved : Bool) :
    (Json.obj [(py "inversions", .arr ((dateInversions text knownFacts).map Inversion.entry)),
      (py "retried", .bool true), (py "resolved", .bool resolved)]).Canonical := by
  rw [canonical_obj_iff]
  refine ⟨by simp only [List.map_cons, List.map_nil]; decide, fun m member => ?_⟩
  simp only [List.mem_cons, List.not_mem_nil, or_false] at member
  rcases member with rfl | rfl | rfl
  · rw [canonical_arr_iff]
    intro v listed
    obtain ⟨inversion, found, rfl⟩ := List.mem_map.mp listed
    exact canonical_dateInversions found
  · exact canonical_bool true
  · exact canonical_bool resolved

theorem dateRefusal_lawful (input : TailInput) : (dateRefusal input).Lawful where
  passes text prose := by
    simp only [dateRefusal, inversions_nil_of_prose input.knownFacts prose, if_true]
  keeps text inversions out refused gaveUp := by
    obtain ⟨same, some_⟩ := dateRefusal_check refused
    rcases dropInvertedDates_turn gaveUp with rfl | ⟨turn, facts, drops, _, _, _, after⟩
    · by_contra prose
      exact some_ (same.trans (inversions_nil_of_prose input.knownFacts prose))
    · exact holdsObject_of_turn after
  marks text inversions resolved kept refused := by
    obtain ⟨same, _⟩ := dateRefusal_check refused
    apply markTurn_holdsObject
    rw [same]
    exact canonical_dateMark text input.knownFacts resolved

/-! ### The tail -/

/-- Whether the check of a stage refuses a text. -/
def stageRefuses (input : TailInput) : TailStage → PyStr → Bool
  | .checkpoint => (checkpointRefusal input).refuses
  | .oath => oathRefusal.refuses
  | .closing => (closingRefusal input).refuses
  | .dates => (dateRefusal input).refuses

/-- A stage that refuses its text is answered by no text or by an object. -/
def RetryReadable (input : TailInput) (stage : TailStage × Option PyStr) (text : PyStr) : Prop :=
  stageRefuses input stage.1 text = true → ReadableRetry stage.2

instance (input : TailInput) (stage : TailStage × Option PyStr) (text : PyStr) :
    Decidable (RetryReadable input stage text) := inferInstanceAs (Decidable (_ → _))

theorem tailStep_object_iff (input : TailInput) (stage : TailStage × Option PyStr)
    (text out : PyStr) (run : tailStep input stage text = some out) :
    HoldsObject out ↔ HoldsObject text ∧ RetryReadable input stage text := by
  obtain ⟨stage, retry⟩ := stage
  cases stage with
  | checkpoint => exact refuseAndRetry_object_iff (checkpointRefusal_lawful input) run
  | oath => exact refuseAndRetry_object_iff oathRefusal_lawful run
  | closing => exact refuseAndRetry_object_iff (closingRefusal_lawful input) run
  | dates => exact refuseAndRetry_object_iff (dateRefusal_lawful input) run

/-- For a first text that is an object, the text the tail hands on is an object exactly when every
stage that refuses its text is answered by no text or by an object. -/
theorem tail_keeps_object_iff (input : TailInput) (retries : Retries) {text last : PyStr}
    (object : HoldsObject text) (run : turnTail input retries text = some last) :
    HoldsObject last ↔ (tailMachine input).Along (RetryReadable input) retries.stages text := by
  have exactly := Machine.run_iff_along (m := tailMachine input) (I := fun _ => True)
    (Q := HoldsObject) (P := RetryReadable input) (fun _ _ _ _ _ => trivial)
    (fun stage text next _ step => tailStep_object_iff input stage text next step) trivial run
  rw [exactly]
  exact and_iff_right object

/-- What no later stage refuses is handed on. -/
theorem turnTail_of_first {input : TailInput} {retries : Retries} {text next : PyStr}
    (first : tailStep input (.checkpoint, retries.checkpoint) text = some next)
    (oath : tailStep input (.oath, retries.oath) next = some next)
    (closing : tailStep input (.closing, retries.closing) next = some next)
    (dates : tailStep input (.dates, retries.dates) next = some next) :
    turnTail input retries text = some next := by
  rw [turnTail, Retries.stages, Machine.run_cons_of_step first, Machine.run_cons_of_step oath,
    Machine.run_cons_of_step closing, Machine.run_cons_of_step dates]
  rfl

/-- Then only the first retry has to be readable. -/
theorem along_of_first {input : TailInput} {retries : Retries} {text next : PyStr}
    (first : tailStep input (.checkpoint, retries.checkpoint) text = some next)
    (oath : tailStep input (.oath, retries.oath) next = some next)
    (closing : tailStep input (.closing, retries.closing) next = some next)
    (dates : tailStep input (.dates, retries.dates) next = some next)
    (readable : ReadableRetry retries.checkpoint)
    (later : stageRefuses input .oath next = false ∧ stageRefuses input .closing next = false ∧
      stageRefuses input .dates next = false) :
    (tailMachine input).Along (RetryReadable input) retries.stages text := by
  rw [Retries.stages, Machine.along_cons_iff first, Machine.along_cons_iff oath,
    Machine.along_cons_iff closing, Machine.along_cons_iff dates]
  refine ⟨fun _ => readable, ?_, ?_, ?_, trivial⟩
  · exact fun refused => nomatch later.1.symm.trans refused
  · exact fun refused => nomatch later.2.1.symm.trans refused
  · exact fun refused => nomatch later.2.2.symm.trans refused

end

/-! ### A retry in prose

The oath is open and the response claims its part. -/

/-- The oath is still open. -/
def openOath : TailInput where
  agenda := some (py "q_p9_oath | Part 9: oath | p9.oath | Do you take the oath?")
  knownFacts := none

/-- A response that claims Part 9. -/
def claimsPartNine : PyStr := py "\x7b\"section_checkpoint\": \x7b\"part\": 9\x7d\x7d"

/-- What the first retry answers; the others are not asked. -/
def firstRetry (answer : String) : Retries := ⟨some (py answer), none, none, none⟩

/-- What is left of an empty object with the mark of the refusal. -/
def answeredText : PyStr :=
  py "\x7b\"checkpoint_refused\": \x7b\"part\": 9, \"code\": \"agenda_open\", \"reason\": " ++
    (dquote :: (checkpointContradictionReason ++ py "\", \"retried\": true, \"resolved\": true\x7d\x7d"))

theorem tail_keeps_object_iff_answered :
    letI := PyRuntime.ascii
    turnTail openOath (firstRetry "\x7b\x7d") claimsPartNine = some answeredText ∧
      HoldsObject answeredText := by
  let _ := PyRuntime.ascii
  have object : HoldsObject claimsPartNine := by decide +kernel
  have readable : ReadableRetry (firstRetry "\x7b\x7d").checkpoint := by decide +kernel
  have first : tailStep openOath (.checkpoint, (firstRetry "\x7b\x7d").checkpoint) claimsPartNine =
      some answeredText := by decide +kernel
  have oath : tailStep openOath (.oath, (firstRetry "\x7b\x7d").oath) answeredText =
      some answeredText := by decide +kernel
  have closing : tailStep openOath (.closing, (firstRetry "\x7b\x7d").closing) answeredText =
      some answeredText := by decide +kernel
  have dates : tailStep openOath (.dates, (firstRetry "\x7b\x7d").dates) answeredText =
      some answeredText := by decide +kernel
  have quiet : stageRefuses openOath .oath answeredText = false ∧
      stageRefuses openOath .closing answeredText = false ∧
      stageRefuses openOath .dates answeredText = false := by decide +kernel
  have run := turnTail_of_first first oath closing dates
  have along := along_of_first first oath closing dates readable quiet
  exact ⟨run, (tail_keeps_object_iff openOath _ object run).mpr along⟩

/-- The refused claim is traded for the prose of its retry. -/
theorem tail_trades_object_for_prose :
    letI := PyRuntime.ascii
    ¬ ∀ (input : TailInput) (retries : Retries) (text last : PyStr), HoldsObject text →
      turnTail input retries text = some last → HoldsObject last := by
  let _ := PyRuntime.ascii
  intro keeps
  have object : HoldsObject claimsPartNine := by decide +kernel
  have prose : ¬HoldsObject (py "Sorry.") := by decide +kernel
  have first : tailStep openOath (.checkpoint, (firstRetry "Sorry.").checkpoint) claimsPartNine =
      some (py "Sorry.") := by decide +kernel
  have oath : tailStep openOath (.oath, (firstRetry "Sorry.").oath) (py "Sorry.") =
      some (py "Sorry.") := by decide +kernel
  have closing : tailStep openOath (.closing, (firstRetry "Sorry.").closing) (py "Sorry.") =
      some (py "Sorry.") := by decide +kernel
  have dates : tailStep openOath (.dates, (firstRetry "Sorry.").dates) (py "Sorry.") =
      some (py "Sorry.") := by decide +kernel
  exact prose (keeps openOath _ claimsPartNine _ object (turnTail_of_first first oath closing dates))

end GhostPour.Chat
