/-
Module: GhostPour.N400.Proofs.StandingCheckpoint
Layer: Proofs
Purpose: Whether the checkpoint of a response stands, and what each guard does to it. The test counts
  the facts and the deferrals of the response, so a guard acts on it by the checkpoint it takes out, the
  facts it takes, files or moves, and the deferrals it drops.
Trusted boundary: none
Main exports: Counted, countedOf, Counted.Stands, checkpointIsRefused_none_iff, countAfter, step_counts
-/
import GhostPour.N400.Proofs.GuardFacts

namespace GhostPour.N400

open Json (sameKey)

section

variable [PyRuntime]

/-! ### What the test counts -/

/-- A deferral that puts a field off: a capture gap does not. -/
def putsOff (d : Json) : Bool :=
  (d.field "field_id").truthy && decide (deferralOrigin d ≠ .captureGap)

/-- The entries of a value that are dicts, where it can be iterated. -/
def countedEntries (v : Json) : Py (List Json) := v.iterateOrEmpty.map (List.filter isDict)

/-- The deferrals of a value that put a field off. -/
def countedDeferrals (v : Json) : Py (List Json) := v.iterateOrEmpty.map (List.filter putsOff)

/-- What a checkpoint is tested on. -/
structure Counted where
  checkpoint : Json
  facts : Py (List Json)
  deferred : Py (List Json)

/-- What the checkpoint of a response is tested on. -/
def countedOf (turn : Dict) : Counted where
  checkpoint := turn.get (py "section_checkpoint")
  facts := countedEntries (turn.get (py "facts"))
  deferred := countedDeferrals (turn.get (py "deferred"))

/-- The fields that are settled. -/
def Counted.ids (counted : Counted) : Py (List PyStr) :=
  counted.facts.bind fun facts => counted.deferred.map fun deferred =>
    (facts.filter (fun f => (f.field "field_id").truthy) ++ deferred).map fun entry =>
      (entry.field "field_id").str'

/-- The nodes that the facts make unaskable. -/
def Counted.moot (agenda : Option PyStr) (counted : Counted) : Py (List PyStr) :=
  counted.facts.bind fun facts => mootNodes [(py "facts", .arr facts)] agenda

/-- Whether something of a part is on file or settled, where anything is on file. -/
def readsBack (knownFacts : Option PyStr) (number : Int) (ids : List PyStr) : Bool :=
  decide ((knownFactParts knownFacts).map Prod.fst = []) ||
    ((knownFactParts knownFacts).map Prod.fst ++ ids.filterMap partOfField).any fun n =>
      decide (Int.ofNat n = number)

/-- No part is claimed, or one that has no open node and something to read back. -/
def Counted.Stands (agenda knownFacts : Option PyStr) (counted : Counted) : Prop :=
  ∀ part number, claimedPart [(py "section_checkpoint", counted.checkpoint)] = some (part, number) →
    ∃ ids moot, counted.ids = some ids ∧ counted.moot agenda = some moot ∧
      openNodes agenda number ids moot = [] ∧ readsBack knownFacts number ids = true

theorem Counted.stands_of_null {agenda knownFacts : Option PyStr} {counted : Counted}
    (none_ : counted.checkpoint = .null) : counted.Stands agenda knownFacts := by
  intro part number claimed
  rw [none_] at claimed
  cases claimed

theorem isDict_of_truthy {f : Json} {key : String} (named : (f.field key).truthy = true) :
    isDict f = true := by
  cases f with
  | obj d => rfl
  | _ => cases named

theorem countedEntries_eq (v : Json) :
    countedEntries v = v.iterateOrEmpty.map fun _ => entriesOf v := by
  rw [countedEntries]
  cases iterated : v.iterateOrEmpty with
  | none => rfl
  | some items =>
      refine congrArg some ?_
      cases v with
      | arr all =>
          rw [iterateOrEmpty_arr] at iterated
          cases iterated
          rfl
      | _ =>
          -- what is no list yields no dict
          refine List.filter_eq_nil_iff.mpr fun e member => ?_
          rintro dict
          exact List.not_mem_nil (mem_entriesOf_of_iterate iterated member dict)

/-! ### The test counts nothing else -/

theorem idsSettled_eq (turn : Dict) : idsSettled turn = (countedOf turn).ids := by
  rw [idsSettled, Counted.ids, countedOf, countedEntries, countedDeferrals]
  cases (turn.get (py "facts")).iterateOrEmpty with
  | none => rfl
  | some facts =>
      cases (turn.get (py "deferred")).iterateOrEmpty with
      | none => rfl
      | some deferred =>
          have dicts : facts.filter (fun f => (f.field "field_id").truthy) =
              (facts.filter isDict).filter fun f => (f.field "field_id").truthy := by
            rw [List.filter_filter]
            refine List.filter_congr fun f _ => ?_
            rw [Bool.eq_iff_iff, Bool.and_eq_true]
            exact ⟨fun named => ⟨named, isDict_of_truthy named⟩, And.left⟩
          change some _ = some _
          rw [dicts]
          rfl

theorem mootNodes_eq (turn : Dict) (agenda : Option PyStr) :
    mootNodes turn agenda = (countedOf turn).moot agenda := by
  rw [mootNodes, Counted.moot, countedOf, countedEntries]
  cases (turn.get (py "facts")).iterateOrEmpty with
  | none => rfl
  | some facts =>
      change _ = mootNodes [(py "facts", .arr (facts.filter isDict))] agenda
      have listed : Dict.get [(py "facts", .arr (facts.filter isDict))] (py "facts") =
          .arr (facts.filter isDict) := rfl
      rw [mootNodes, listed, iterateOrEmpty_arr]
      change _ = (List.foldlM gateStep ([], []) ((facts.filter isDict).filter isDict)).bind _
      rw [List.filter_filter]
      simp only [Bool.and_self]
      rfl

theorem claimedPart_eq (turn : Dict) :
    claimedPart turn = claimedPart [(py "section_checkpoint", (countedOf turn).checkpoint)] := rfl

section

variable {text : PyStr} {turn : Dict} {part : Json} {number : Int} {agenda knownFacts : Option PyStr}
  (read : turnOf text = some turn)
  (claimed : claimedPart [(py "section_checkpoint", (countedOf turn).checkpoint)] =
    some (part, number))

include read claimed

theorem contradictsAgenda_none_iff :
    checkpointContradictsAgenda text agenda = some none ↔
      ∃ ids moot, (countedOf turn).ids = some ids ∧ (countedOf turn).moot agenda = some moot ∧
        openNodes agenda number ids moot = [] := by
  rw [checkpointContradictsAgenda, read]
  dsimp only
  rw [claimedPart_eq, claimed]
  dsimp only
  rw [idsSettled_eq, mootNodes_eq]
  cases (countedOf turn).ids with
  | none => simp
  | some ids =>
      cases (countedOf turn).moot agenda with
      | none => simp
      | some moot =>
          by_cases closed : openNodes agenda number ids moot = []
          · simp [closed]
          · simp [closed]

theorem readsBackNothing_none_iff {ids : List PyStr} (settled : (countedOf turn).ids = some ids) :
    checkpointReadsBackNothing text knownFacts = some none ↔
      readsBack knownFacts number ids = true := by
  rw [checkpointReadsBackNothing, readsBack, read]
  dsimp only
  rw [claimedPart_eq, claimed]
  dsimp only
  rw [idsSettled_eq, settled]
  by_cases nothing : (knownFactParts knownFacts).map Prod.fst = []
  · rw [if_pos nothing, decide_eq_true nothing]
    exact iff_of_true rfl rfl
  · rw [if_neg nothing, decide_eq_false nothing, Bool.false_or, Option.bind_eq_bind,
      Option.bind_some]
    split
    · next recorded => exact iff_of_true rfl recorded
    · next absent => exact iff_of_false (by rintro ⟨⟩) absent

end

/-- A text is not refused exactly when it is no object, or its checkpoint stands. -/
theorem checkpointIsRefused_none_iff {text : PyStr} {agenda knownFacts : Option PyStr} :
    checkpointIsRefused text agenda knownFacts = some none ↔
      ∀ turn, turnOf text = some turn → (countedOf turn).Stands agenda knownFacts := by
  have both : checkpointIsRefused text agenda knownFacts = some none ↔
      checkpointContradictsAgenda text agenda = some none ∧
        checkpointReadsBackNothing text knownFacts = some none := by
    rw [checkpointIsRefused]
    cases checkpointContradictsAgenda text agenda with
    | none => simp
    | some refusal => cases refusal <;> simp
  rw [both]
  cases read : turnOf text with
  | none => simp [checkpointContradictsAgenda, checkpointReadsBackNothing, read]
  | some turn =>
      simp only [Option.some.injEq, forall_eq']
      cases claimed : claimedPart [(py "section_checkpoint", (countedOf turn).checkpoint)] with
      | none =>
          have unclaimed : claimedPart turn = none := claimed
          simp [checkpointContradictsAgenda, checkpointReadsBackNothing, read, unclaimed,
            Counted.Stands, claimed]
      | some claim =>
          obtain ⟨part, number⟩ := claim
          rw [contradictsAgenda_none_iff read claimed]
          constructor
          · rintro ⟨⟨ids, moot, settled, unaskable, closed⟩, recorded⟩ _ _ same
            cases claimed.symm.trans same
            exact ⟨ids, moot, settled, unaskable, closed,
              (readsBackNothing_none_iff read claimed settled).mp recorded⟩
          · intro stands
            obtain ⟨ids, moot, settled, unaskable, closed, recorded⟩ := stands part number claimed
            exact ⟨⟨ids, moot, settled, unaskable, closed⟩,
              (readsBackNothing_none_iff read claimed settled).mpr recorded⟩

/-! ### What a guard leaves of it -/

/-- Whether the guard of a step takes the checkpoint out. -/
def takesCheckpoint (a : GuardStep) (st : GuardState Dict) : Bool :=
  match a with
  | .reask => st.reaskFrom != []
  | .checkpointBesideAsking =>
      let checkpoint := st.response.get (py "section_checkpoint")
      checkpoint.truthy && askingIsSet (st.response.get (py "asking")) &&
        !isFalse (checkpoint.field "awaiting_confirmation") &&
        !(replyTexts (st.response.get (py "reply"))).any asksForConfirmation
  | _ => false

/-- The fact that the guard of a step files, with the words of hers that it cites. -/
def filedFacts (input : GuardInput) (a : GuardStep) (turn : Dict) : List Json :=
  match a with
  | .probation => (filesFact input a turn).toList.map fun fid =>
      filedFact fid [] ((neverHadWords input.agenda (orEmpty input.userContent)).getD [])
  | .trips => (filesFact input a turn).toList.map fun fid =>
      filedFact fid (py "no") (countCitation (orEmpty input.userContent)
        (((statedTripCount (orEmpty input.userContent)).map Prod.fst).getD []))
  | _ => []

/-- What the guard of a step leaves of the facts. -/
def factsAfter (input : GuardInput) (a : GuardStep) (turn : Dict) (facts : List Json) : List Json :=
  match a with
  | .occupations => facts.filterMap fun f =>
      (occupationFix (knownOccupations input.knownFacts) f).fact f
  | _ => facts.filter (fun f => !takesFact input a turn f) ++ filedFacts input a turn

/-- The deferrals that a date guard adds: one for each date it moves, unless its field has one. -/
def newDeferrals (judge : Json → Option MovedDate) (reason : PyStr) (turn : Dict) : List Json :=
  match turn.get (py "facts"), (turn.get (py "deferred")).iterateOrEmpty.bind fieldIdSet with
  | .arr facts, some already =>
      (((facts.filterMap judge).filter fun moved => !already.any (sameKey moved.fieldId)).map
        (MovedDate.deferral reason)).filter putsOff
  | _, _ => []

/-- What the guard of a step leaves of the deferrals. -/
def deferralsLeft (input : GuardInput) (a : GuardStep) (turn : Dict) (deferred : List Json) :
    List Json :=
  match a, input.userContent with
  | .strayDeferrals, _ =>
      deferred.filter fun d => !(strayDeferral (filedValues input.knownFacts)
        (standingFields input.agenda) (normText (orEmpty input.userContent)) d).any Option.isSome
  | .unspokenDays, some said =>
      deferred ++ if said ≠ [] then
        newDeferrals (unspokenDay said input.knownFacts input.conversation) inventedDayReason turn
      else []
  | .offPartials, some said =>
      deferred ++ if orEmpty input.knownFacts ≠ [] then
        newDeferrals (offPartial input.knownFacts (fold said)) offPartialReason turn
      else []
  | _, _ => deferred

/-- What the guard of a step leaves a checkpoint to be tested on. -/
def countAfter (input : GuardInput) (a : GuardStep) (st : GuardState Dict) : Counted where
  checkpoint := if takesCheckpoint a st then .null else st.response.get (py "section_checkpoint")
  facts := (countedOf st.response).facts.map (factsAfter input a st.response)
  deferred := (countedOf st.response).deferred.map (deferralsLeft input a st.response)

/-! ### The checkpoint -/

theorem step_checkpoint {input : GuardInput} {a : GuardStep} {s s' : GuardState Dict}
    (step : (turnMachine input).step a s = some s') :
    s'.response.get (py "section_checkpoint") =
      if takesCheckpoint a s then .null else s.response.get (py "section_checkpoint") := by
  cases a with
  | reask =>
      have step : s.logged Guard.onTurn (reaskDroppedIdentifier s.reaskFrom input.agenda) =
          some s' := step
      cases dropped : s.reaskFrom with
      | nil =>
          rw [dropped] at step
          rw [if_neg (by simp [takesCheckpoint, dropped])]
          rcases logged_eq_some step with ⟨_, same⟩ | ⟨info, changed⟩
          · rw [same]
          · cases changed
      | cons first rest =>
          rw [dropped] at step
          rw [if_pos (by simp [takesCheckpoint, dropped])]
          rcases logged_eq_some step with ⟨quiet, _⟩ | ⟨info, changed⟩
          · cases quiet
          · have written : reaskTurn first.1 first.2 input.agenda s.response = s'.response :=
              congrArg Prod.fst (Option.some.inj (Option.some.inj changed))
            rw [← written, reaskTurn]
            rw [Dict.get_set_of_ne _ _ (by decide), Dict.get_set_of_ne _ _ (by decide),
              Dict.get_set_of_ne _ _ (by decide), Dict.get_set_self]
  | checkpointBesideAsking =>
      have step : s.logged Guard.onTurn dropCheckpointWhenAskingSet = some s' := step
      rw [takesCheckpoint]
      rcases logged_eq_some step with ⟨quiet, same⟩ | ⟨info, changed⟩
      · rw [same, if_neg]
        intro takes
        simp only [Bool.and_eq_true, Bool.not_eq_true'] at takes
        obtain ⟨⟨⟨there, set⟩, review⟩, silent⟩ := takes
        simp [dropCheckpointWhenAskingSet, there, set, review, silent] at quiet
      · obtain ⟨_, left⟩ := dropCheckpointWhenAskingSet_eq_some changed
        rw [left, Dict.get_set_of_ne _ _ (by decide), Dict.get_set_self, if_pos]
        rw [dropCheckpointWhenAskingSet] at changed
        dsimp only at changed
        split at changed
        · cases changed
        split at changed
        · cases changed
        split at changed
        · cases changed
        · next there review silent =>
          simp only [Bool.or_eq_true, Bool.not_eq_true', not_or, Bool.not_eq_false] at there
          simp [there.1, there.2, review, silent]
  | _ => exact step_get step (by decide)

/-! ### The facts -/

theorem countedEntries_arr (items : List Json) :
    countedEntries (.arr items) = some (items.filter isDict) := by
  rw [countedEntries, iterateOrEmpty_arr]
  rfl

/-- What is left of the facts, where a list stays a list and anything else stays. -/
theorem countedEntries_of_leaves {takes : Json → Bool} {before after : Dict}
    (shrinks : Shrinks (before.get (py "facts")) (after.get (py "facts")))
    (leaves : LeavesFacts takes before after) :
    countedEntries (after.get (py "facts")) =
      (countedEntries (before.get (py "facts"))).map (List.filter fun f => !takes f) := by
  rw [countedEntries_eq, countedEntries_eq, leaves, Option.map_map]
  rcases shrinks with same | ⟨facts, kept, listed, left, _⟩
  · rw [same]
    rfl
  · rw [listed, left, iterateOrEmpty_arr, iterateOrEmpty_arr]
    rfl

theorem filedFacts_of_not_filing {input : GuardInput} {a : GuardStep} (other : a ∉ filingSteps)
    (turn : Dict) : filedFacts input a turn = [] := by
  cases a with
  | probation | trips => exact absurd (by decide) other
  | _ => rfl

/-- A fact that is filed is counted after the others. -/
theorem countedEntries_fileFact {fid value cited : PyStr} {turn turn' : Dict}
    (run : fileFact fid value cited turn = some turn') :
    countedEntries (turn'.get (py "facts")) =
      (countedEntries (turn.get (py "facts"))).map (· ++ [filedFact fid value cited]) := by
  obtain ⟨facts, listed, _, rfl⟩ := fileFact_eq_some run
  rw [Dict.get_set_self, listed, countedEntries_arr, countedEntries_arr, List.filter_append]
  rfl

theorem filter_takes_none {input : GuardInput} {a : GuardStep} {turn : Dict} {facts : List Json}
    (none_ : ∀ f, takesFact input a turn f = false) :
    facts.filter (fun f => !takesFact input a turn f) = facts :=
  List.filter_eq_self.mpr fun f _ => by rw [none_ f]; rfl

theorem step_probationFacts {input : GuardInput} {s s' : GuardState Dict}
    (step : (turnMachine input).step .probation s = some s') :
    countedEntries (s'.response.get (py "facts")) =
      (countedEntries (s.response.get (py "facts"))).map
        (· ++ filedFacts input .probation s.response) := by
  have step : s.logged Guard.onTurn (fileProbationNeverHad input.agenda input.userContent) =
      some s' := step
  rw [filedFacts, filesFact]
  rcases logged_eq_some step with ⟨quiet, same⟩ | ⟨field, changed⟩
  · rw [quiet, same]
    simp
  · obtain ⟨rfl, cited, words, filed⟩ := fileProbationNeverHad_eq_some changed
    rw [changed, words]
    exact countedEntries_fileFact filed

theorem step_tripFacts {input : GuardInput} {s s' : GuardState Dict}
    (step : (turnMachine input).step .trips s = some s') :
    countedEntries (s'.response.get (py "facts")) =
      (countedEntries (s.response.get (py "facts"))).map
        (· ++ filedFacts input .trips s.response) := by
  have step : s.logged Guard.onTurn (closeTripsOnStatedCount input.userContent) = some s' := step
  rw [filedFacts, filesFact]
  rcases logged_eq_some step with ⟨quiet, same⟩ | ⟨info, changed⟩
  · rw [quiet, same]
    simp
  · obtain ⟨word, count, facts, rfl, stated, _, _, filed⟩ :=
      closeTripsOnStatedCount_eq_some changed
    rw [changed, stated]
    exact countedEntries_fileFact filed

/-- The occupations that are left, of the dicts. -/
theorem filter_isDict_occupations (known : Assoc PyStr) (facts : List Json) :
    ((facts.zip (facts.map (occupationFix known))).filterMap fun entry =>
        entry.2.fact entry.1).filter isDict =
      (facts.filter isDict).filterMap fun f => (occupationFix known f).fact f := by
  induction facts with
  | nil => rfl
  | cons f facts ih =>
      rw [List.map_cons, List.zip_cons_cons, List.filterMap_cons, List.filter_cons]
      cases stays : (occupationFix known f).fact f with
      | none =>
          dsimp only
          rw [ih]
          split
          · rw [List.filterMap_cons, stays]
          · rfl
      | some g =>
          obtain ⟨dict, _⟩ := occupationFact_field stays
          dsimp only
          rw [List.filter_cons, dict, ih]
          split
          · rw [List.filterMap_cons, stays]
          · rfl

theorem step_occupationFacts {input : GuardInput} {s s' : GuardState Dict}
    (step : (turnMachine input).step .occupations s = some s') :
    countedEntries (s'.response.get (py "facts")) =
      (countedEntries (s.response.get (py "facts"))).map
        (factsAfter input .occupations s.response) := by
  rcases logged_eq_some step with ⟨quiet, same⟩ | ⟨changes, changed⟩
  · -- no occupation is fixed
    rw [same, countedEntries_eq, Option.map_map]
    refine Option.map_congr fun _ _ => ?_
    have kept : (entriesOf (s.response.get (py "facts"))).filterMap
        (fun f => (occupationFix (knownOccupations input.knownFacts) f).fact f) =
          (entriesOf (s.response.get (py "facts"))).filterMap some :=
      List.filterMap_congr fun f member => by
        rw [fixOccupations_quiet quiet f member]
        rfl
    rw [Function.comp_apply, factsAfter, kept, List.filterMap_some]
  · obtain ⟨facts, kept, listed, rfl, outcome⟩ := fixOccupations_eq_some changed
    have left : s'.response.get (py "facts") = .arr ((facts.zip (facts.map
        (occupationFix (knownOccupations input.knownFacts)))).filterMap
          (fun entry => entry.2.fact entry.1)) := by
      rcases outcome with ⟨_, fixed⟩ | added
      · rw [fixed, Dict.get_set_self]
      · rw [appendTo_get_of_ne added (by decide), Dict.get_set_self]
    rw [left, listed, countedEntries_arr, countedEntries_arr, filter_isDict_occupations]
    rfl

theorem step_facts {input : GuardInput} {a : GuardStep} {s s' : GuardState Dict}
    (step : (turnMachine input).step a s = some s') :
    countedEntries (s'.response.get (py "facts")) =
      (countedEntries (s.response.get (py "facts"))).map (factsAfter input a s.response) := by
  by_cases filing : a ∈ filingSteps
  · rcases (by simpa [filingSteps] using filing : a = .occupations ∨ a = .probation ∨ a = .trips)
      with rfl | rfl | rfl
    · exact step_occupationFacts step
    · rw [step_probationFacts step]
      refine Option.map_congr fun facts _ => ?_
      rw [factsAfter, filter_takes_none fun _ => rfl]
      rintro ⟨⟩
    · rw [step_tripFacts step]
      refine Option.map_congr fun facts _ => ?_
      rw [factsAfter, filter_takes_none fun _ => rfl]
      rintro ⟨⟩
  · rw [countedEntries_of_leaves (step_shrinks filing step) (step_leavesFacts filing step)]
    refine Option.map_congr fun facts _ => ?_
    rw [factsAfter, filedFacts_of_not_filing filing, List.append_nil]
    rintro rfl
    exact filing (by decide)

/-! ### The deferrals -/

theorem countedDeferrals_arr (items : List Json) :
    countedDeferrals (.arr items) = some (items.filter putsOff) := by
  rw [countedDeferrals, iterateOrEmpty_arr]
  rfl

theorem putsOff_eq_false {d : Json} (other : isDict d = false) : putsOff d = false := by
  cases d with
  | obj members => cases other
  | _ => rfl

/-- What is no list holds no deferral. -/
theorem countedDeferrals_of_no_list {v : Json} (other : ∀ items, v ≠ .arr items)
    {deferred : List Json} (counted : countedDeferrals v = some deferred) : deferred = [] := by
  obtain ⟨items, iterated, rfl⟩ := Option.map_eq_some_iff.mp counted
  refine List.filter_eq_nil_iff.mpr fun d member off => ?_
  have dict : isDict d = true := by
    by_contra other_
    rw [putsOff_eq_false (by simpa using other_)] at off
    cases off
  have entry := mem_entriesOf_of_iterate iterated member dict
  cases v with
  | arr all => exact other all rfl
  | _ => cases entry

/-- What is left of a list of deferrals that a test has gone over. -/
theorem countedDeferrals_keptOf {ι : Type} {judge : Json → Py (Option ι)} {deferred : List Json}
    {verdicts : List (Option ι)} (judged : deferred.mapM judge = some verdicts) :
    countedDeferrals (.arr (keptOf deferred verdicts)) =
      (countedDeferrals (.arr deferred)).map
        (List.filter fun d => !(judge d).any Option.isSome) := by
  rw [countedDeferrals_arr, countedDeferrals_arr, keptOf_eq_untaken judged, Option.map_some,
    List.filter_filter, List.filter_filter]
  refine congrArg some (List.filter_congr fun d _ => ?_)
  exact Bool.and_comm _ _

theorem strayDeferral_nil (standing : List PyStr) (said : PyStr) (d : Json) :
    (strayDeferral [] standing said d).any Option.isSome = false := by
  rw [strayDeferral]
  split
  · rfl
  · split <;> rfl

/-- A filter that leaves the deferrals of a value as they are. -/
theorem countedDeferrals_filter {p : Json → Bool} {v : Json}
    (all : ∀ items, v = .arr items → ∀ d ∈ items, p d = true) :
    (countedDeferrals v).map (List.filter p) = countedDeferrals v := by
  cases counted : countedDeferrals v with
  | none => rfl
  | some deferred =>
      refine congrArg some (List.filter_eq_self.mpr fun d member => ?_)
      by_cases listed : ∃ items, v = .arr items
      · obtain ⟨items, rfl⟩ := listed
        rw [countedDeferrals_arr, Option.some.injEq] at counted
        rw [← counted] at member
        exact all items rfl d (List.mem_of_mem_filter member)
      · rw [countedDeferrals_of_no_list (fun items same => listed ⟨items, same⟩) counted] at member
        cases member

theorem step_strayDeferrals {input : GuardInput} {s s' : GuardState Dict}
    (step : (turnMachine input).step .strayDeferrals s = some s') :
    countedDeferrals (s'.response.get (py "deferred")) =
      (countedDeferrals (s.response.get (py "deferred"))).map
        (deferralsLeft input .strayDeferrals s.response) := by
  have step : s.logged Guard.onTurn
      (dropDeferralsOfFiledValues input.knownFacts input.agenda input.userContent) = some s' := step
  rcases logged_eq_some step with ⟨quiet, same⟩ | ⟨info, changed⟩
  · rw [same]
    refine (countedDeferrals_filter fun deferred listed d member => ?_).symm
    rw [Bool.not_eq_true']
    rw [dropDeferralsOfFiledValues] at quiet
    split at quiet
    · next nothing =>
      rw [nothing]
      exact strayDeferral_nil _ _ d
    · rw [listed] at quiet
      obtain ⟨verdicts, judged, quiet⟩ := Option.bind_eq_some_iff.mp quiet
      dsimp only at quiet
      split at quiet
      · next none_ =>
        rw [List.isEmpty_iff, List.filterMap_eq_nil_iff] at none_
        obtain ⟨verdict, reached, here⟩ := mapM_mem judged member
        rw [here, show verdict = none from none_ verdict reached]
        rfl
      · obtain ⟨_, _, impossible⟩ := Option.bind_eq_some_iff.mp quiet
        cases impossible
  · obtain ⟨deferred, verdicts, listed, judged, entries, some_, _, taken⟩ :=
      dropDeferralsOfFiledValues_eq_some changed
    rw [takeAway_get taken some_ (by decide), listed]
    exact countedDeferrals_keptOf judged

/-- A deferral that puts a field off is no capture gap that a fact resolves. -/
theorem putsOff_stays {deferred stands gaps captured factIds : List Json}
    {gapVerdicts : List (Option Json)} (applicant : deferredIds false deferred = some stands)
    (left : captured = gaps.filter fun fid => !stands.any (sameKey fid))
    (resolved : deferred.mapM (resolvedGap captured factIds) = some gapVerdicts) {d : Json}
    (member : d ∈ deferred) (off : putsOff d = true) :
    (resolvedGap captured factIds d).any Option.isSome = false := by
  rw [putsOff, Bool.and_eq_true, decide_eq_true_eq] at off
  obtain ⟨named, origin⟩ := off
  obtain ⟨standing, _⟩ := fieldIdSet_eq_some applicant
  have stands_ : d.field "field_id" ∈ stands := by
    rw [standing]
    refine List.mem_map_of_mem (List.mem_filter.mpr ⟨List.mem_filter.mpr ⟨member, ?_⟩,
      isDict_of_truthy named⟩)
    simp [origin]
  obtain ⟨verdict, _, here⟩ := mapM_mem resolved member
  rw [here]
  cases verdict with
  | none => rfl
  | some entry =>
      obtain ⟨listed, found, rest⟩ := Option.bind_eq_some_iff.mp here
      obtain ⟨_, rfl⟩ := keyIn_eq_some found
      split at rest
      · next captured_ =>
        obtain ⟨g, gap, same⟩ := List.any_eq_true.mp captured_
        rw [left] at gap
        have apart := (List.mem_filter.mp gap).2
        rw [Bool.not_eq_true', List.any_eq_false] at apart
        exact absurd (by rw [Json.sameKey_symm]; exact same) (apart _ stands_)
      · cases rest

theorem step_alsoDeferred {input : GuardInput} {s s' : GuardState Dict}
    (step : (turnMachine input).step .alsoDeferred s = some s') :
    countedDeferrals (s'.response.get (py "deferred")) =
      countedDeferrals (s.response.get (py "deferred")) := by
  have step : s.logged Guard.onTurn dropFactsThatAreAlsoDeferred = some s' := step
  rcases logged_eq_some step with ⟨_, same⟩ | ⟨info, changed⟩
  · rw [same]
  · obtain ⟨deferred, facts, stands, gaps, captured, verdicts, factIds, gapVerdicts, marked, listed, _,
      applicant, left, _, resolved, first, second⟩ := dropFactsThatAreAlsoDeferred_changes changed
    have before : marked.get (py "deferred") = .arr deferred := by
      rw [takeAway_get_of_ne first (by decide) (by decide), listed]
    have after : s'.response.get (py "deferred") = .arr (keptOf deferred gapVerdicts) := by
      rcases takeAway_eq_some second with ⟨none_, same⟩ | ⟨some_, _⟩
      · rw [same, before, keptOf_eq_self resolved none_]
      · exact takeAway_get second some_ (by decide)
    rw [after, countedDeferrals_keptOf resolved, listed, countedDeferrals_arr]
    refine congrArg some (List.filter_eq_self.mpr fun d member => ?_)
    obtain ⟨member, off⟩ := List.mem_filter.mp member
    rw [putsOff_stays applicant left resolved member off]
    rfl

theorem notDeferredYet_fresh {already : List Json} {moved : List MovedDate}
    {verdicts : List (Option MovedDate)} (run : moved.mapM (notDeferredYet already) = some verdicts) :
    verdicts.filterMap id = moved.filter fun m => !already.any (sameKey m.fieldId) := by
  have each := mapM_eq_some_iff.mp run
  clear run
  induction each with
  | nil => rfl
  | @cons m verdict moved verdicts here _ ih =>
      have later : verdicts.filterMap id =
        moved.filter fun m => !already.any (sameKey m.fieldId) := ih
      obtain ⟨deferred, found, rfl⟩ := Option.map_eq_some_iff.mp here
      obtain ⟨_, rfl⟩ := keyIn_eq_some found
      rw [List.filterMap_cons, List.filter_cons, later]
      cases already.any (sameKey m.fieldId) <;> rfl

/-- The dates that move are deferred, unless their field is. -/
theorem countedDeferrals_deferDates {judge : Json → Option MovedDate} {reason : PyStr}
    {turn turn' : Dict} {info : Option (List Json)}
    (run : (deferDates judge reason).onTurn turn = some (turn', info)) :
    countedDeferrals (turn'.get (py "deferred")) =
      (countedDeferrals (turn.get (py "deferred"))).map (· ++ newDeferrals judge reason turn) := by
  obtain ⟨outcome, guarded, same⟩ := Option.map_eq_some_iff.mp run
  cases outcome with
  | some changed =>
      obtain ⟨changed, entries⟩ := changed
      cases same
      obtain ⟨facts, items, already, deferrals, deferred, listed, held, named, fresh, added, _, _,
        marked⟩ := deferDates_eq_some guarded
      have new : newDeferrals judge reason turn =
          ((deferrals.filterMap id).map (MovedDate.deferral reason)).filter putsOff := by
        rw [newDeferrals.eq_def, listed, held, Option.bind_some, named, notDeferredYet_fresh fresh]
      rw [appendTo_get_of_ne marked (by decide), Dict.get_set_of_ne _ _ (by decide), new]
      rcases appendDeferred_eq_some added with ⟨none_, rfl⟩ | ⟨_, items', rfl, before⟩
      · rw [none_]
        simp
      · rw [Dict.get_set_self, countedDeferrals_arr, List.filter_append]
        rcases before with before | ⟨absent, rfl⟩
        · rw [before, countedDeferrals_arr]
          rfl
        · rw [Dict.get_of_not_has absent]
          rfl
  | none =>
      cases same
      have none_ : newDeferrals judge reason turn = [] := by
        rw [newDeferrals.eq_def]
        split
        · next facts already listed named =>
          rw [deferDates, listed] at guarded
          obtain ⟨items, _, guarded⟩ := Option.bind_eq_some_iff.mp guarded
          obtain ⟨already', _, guarded⟩ := Option.bind_eq_some_iff.mp guarded
          obtain ⟨deferrals, _, guarded⟩ := Option.bind_eq_some_iff.mp guarded
          obtain ⟨deferred, _, guarded⟩ := Option.bind_eq_some_iff.mp guarded
          split at guarded
          · next unmoved =>
            rw [List.isEmpty_iff, List.filterMap_map] at unmoved
            rw [show facts.filterMap judge = [] from unmoved]
            rfl
          · obtain ⟨_, _, impossible⟩ := Option.bind_eq_some_iff.mp guarded
            cases impossible
        · rfl
      rw [none_]
      simp

/-- The same for a date guard that is at work only where its inputs are there. -/
theorem countedDeferrals_logged {guard : Guard (List Json)} (active : Prop) [Decidable active]
    (judge : Json → Option MovedDate) (reason : PyStr)
    (quiet : ¬active → ∀ turn, guard turn = some none)
    (works : active → ∀ turn, guard turn = deferDates judge reason turn)
    {s s' : GuardState Dict} (run : s.logged Guard.onTurn guard = some s') :
    countedDeferrals (s'.response.get (py "deferred")) =
      (countedDeferrals (s.response.get (py "deferred"))).map
        (· ++ if active then newDeferrals judge reason s.response else []) := by
  obtain ⟨⟨turn', info⟩, guarded, rfl⟩ := Option.map_eq_some_iff.mp run
  by_cases working : active
  · have guarded : (deferDates judge reason).onTurn s.response = some (turn', info) := by
      rw [Guard.onTurn, ← works working]
      exact guarded
    rw [if_pos working]
    exact countedDeferrals_deferDates guarded
  · obtain ⟨outcome, here, same⟩ := Option.map_eq_some_iff.mp guarded
    rw [quiet working, Option.some.injEq] at here
    rw [← here] at same
    cases same
    rw [if_neg working]
    simp

theorem step_deferred {input : GuardInput} {a : GuardStep} {s s' : GuardState Dict}
    (step : (turnMachine input).step a s = some s') :
    countedDeferrals (s'.response.get (py "deferred")) =
      (countedDeferrals (s.response.get (py "deferred"))).map
        (deferralsLeft input a s.response) := by
  cases a with
  | strayDeferrals => exact step_strayDeferrals step
  | alsoDeferred =>
      rw [step_alsoDeferred step]
      exact Option.map_id'.symm
  | unspokenDays =>
      change guardStepOn _ input .unspokenDays s = some s' at step
      rw [guardStepOn] at step
      rw [show deferralsLeft input .unspokenDays s.response = _ from
        funext fun deferred => deferralsLeft.eq_def input .unspokenDays s.response deferred]
      split at step
      · next said given =>
        rw [given]
        exact countedDeferrals_logged (said ≠ []) _ _ (fun silent _ => if_pos (not_not.mp silent))
          (fun spoken _ => if_neg spoken) step
      · next absent =>
        cases step
        rw [absent]
        exact Option.map_id'.symm
  | offPartials =>
      change guardStepOn _ input .offPartials s = some s' at step
      rw [guardStepOn] at step
      rw [show deferralsLeft input .offPartials s.response = _ from
        funext fun deferred => deferralsLeft.eq_def input .offPartials s.response deferred]
      split at step
      · next said given =>
        rw [given]
        exact countedDeferrals_logged (orEmpty input.knownFacts ≠ []) _ _
          (fun absent _ => if_pos (not_not.mp absent)) (fun known _ => if_neg known) step
      · next absent =>
        cases step
        rw [absent]
        exact Option.map_id'.symm
  | _ =>
      rw [step_get step (by decide)]
      exact Option.map_id'.symm

/-- What a step leaves a checkpoint to be tested on. -/
theorem step_counts {input : GuardInput} {a : GuardStep} {s s' : GuardState Dict}
    (step : (turnMachine input).step a s = some s') :
    countedOf s'.response = countAfter input a s := by
  rw [countedOf, countAfter, step_checkpoint step, step_facts step, step_deferred step]
  rfl

end

end GhostPour.N400
