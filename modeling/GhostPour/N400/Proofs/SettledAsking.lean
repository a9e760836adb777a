/-
Module: GhostPour.N400.Proofs.SettledAsking
Layer: Proofs
Purpose: When a guarded response asks a settled node. After the stale-asking guard no response does; a
  later guard brings it about by pointing `asking` at a node whose fields all have facts, or by filing
  the last missing fact of the node that is asked, and it lasts while the guards after it leave the
  asking and a fact for each of its fields.
Trusted boundary: none
Main exports: AsksSettled, asksInstead, Settles, Keeps, asking_settled_iff
-/
import GhostPour.N400.Proofs.GuardFacts

namespace GhostPour.N400

section

variable [PyRuntime]

/-! ### A settled node -/

/-- The fields of the agenda node that an `asking` names. -/
def askedFields (agenda : Option PyStr) (asking : Json) : Option (List PyStr) :=
  (askedNode asking).bind (agendaFieldIds agenda).get

/-- The response asks a node of the agenda, and files a fact for each of its fields. -/
def AsksSettled (agenda : Option PyStr) (turn : Dict) : Prop :=
  ∃ ids, askedFields agenda (turn.get (py "asking")) = some ids ∧ ∀ id ∈ ids, Carries turn id

instance (agenda : Option PyStr) (turn : Dict) : Decidable (AsksSettled agenda turn) :=
  decidable_of_iff ((askedFields agenda (turn.get (py "asking"))).any
      fun ids => decide (∀ id ∈ ids, Carries turn id)) <| by
    rw [Option.any_eq_true]
    exact exists_congr fun ids => and_congr_right fun _ => decide_eq_true_iff

/-- The `asking` that the guard of a step writes in place of the one that is there. -/
def asksInstead (input : GuardInput) (a : GuardStep) (st : GuardState Dict) : Option Json :=
  match a with
  | .reask =>
      st.reaskFrom.head?.bind fun dropped =>
        ((agendaFieldIds input.agenda).find? fun node => decide (dropped.1 ∈ node.2)).map fun node =>
          .obj [(py "node_id", .str node.1), (py "field_ids", .arr [.str dropped.1])]
  | .settledQuestion =>
      ((replaceSettledQuestion input.agenda input.locale st.response).join).map
        fun changed => changed.1.get (py "asking")
  | _ => none

/-- The guard of a step brings it about that a settled node is asked. -/
inductive Settles (input : GuardInput) (a : GuardStep) (st : GuardState Dict) : Prop where
  | asks {asking : Json} {ids : List PyStr} (written : asksInstead input a st = some asking)
      (named : askedFields input.agenda asking = some ids)
      (filled : ∀ id ∈ ids, Carries st.response id)
  | files {fid : PyStr} {ids : List PyStr} (filed : filesFact input a st.response = some fid)
      (named : askedFields input.agenda (st.response.get (py "asking")) = some ids)
      (filled : ∀ id ∈ ids, fid = id ∨ Carries st.response id)

/-- The guard of a step leaves a settled node asked: it does not look for one, it asks nothing else, and
a fact stays for each field of the node. -/
structure Keeps (input : GuardInput) (a : GuardStep) (st : GuardState Dict) : Prop where
  looksAway : a ≠ .staleAsking
  asks : asksInstead input a st = none
  stays : ∀ ids, askedFields input.agenda (st.response.get (py "asking")) = some ids →
    ∀ id ∈ ids, Stays input a st.response id

/-- A guard that files a fact takes none. -/
theorem stays_of_files {input : GuardInput} {a : GuardStep} {turn : Dict} {fid id : PyStr}
    (filed : filesFact input a turn = some fid) : Stays input a turn id ↔ Carries turn id := by
  refine stays_of_takes_none fun f _ => ?_
  cases a with
  | probation | trips => rfl
  | _ => cases filed

theorem reaskTurn_asking (fid : PyStr) (heard : Nat) (agenda : Option PyStr) (turn : Dict) :
    (reaskTurn fid heard agenda turn).get (py "asking") =
      (((agendaFieldIds agenda).find? fun node => decide (fid ∈ node.2)).map fun node =>
        .obj [(py "node_id", .str node.1), (py "field_ids", .arr [.str fid])]).getD
        (turn.get (py "asking")) := by
  rw [reaskTurn]
  rw [Dict.get_set_of_ne _ _ (by decide), Dict.get_set_of_ne _ _ (by decide),
    Dict.get_set_of_ne _ _ (by decide), Dict.get_set_of_ne _ _ (by decide)]
  cases (agendaFieldIds agenda).find? fun node => decide (fid ∈ node.2) with
  | some node => exact Dict.get_set_self _ _ _
  | none => exact Dict.get_set_of_ne _ _ (by decide)

/-! ### The stale-asking guard -/

theorem mem_iterate_of_entriesOf {v e : Json} {items : List Json}
    (run : v.iterateOrEmpty = some items) (member : e ∈ entriesOf v) :
    e ∈ items ∧ isDict e = true := by
  cases v with
  | arr all =>
      obtain ⟨listed, dict⟩ := List.mem_filter.mp member
      have some_ : (Json.arr all).truthy = true := by
        cases all with
        | nil => cases listed
        | cons _ _ => rfl
      rw [Json.iterateOrEmpty, if_pos some_] at run
      cases run
      exact ⟨listed, dict⟩
  | _ => cases member

theorem allFilled_of_carries {turn : Dict} {facts filled : List Json} {ids : List PyStr}
    (listed : (turn.get (py "facts")).iterateOrEmpty = some facts)
    (named : fieldIdSet facts = some filled) (carries : ∀ id ∈ ids, Carries turn id) :
    allFilled ids filled = true := by
  refine List.all_eq_true.mpr fun id member => ?_
  obtain ⟨f, entry, field⟩ := carries id member
  obtain ⟨filed, dict⟩ := mem_iterate_of_entriesOf listed entry
  obtain ⟨same, _⟩ := fieldIdSet_eq_some named
  refine List.any_eq_true.mpr ⟨f.field "field_id", ?_, ?_⟩
  · rw [same]
    exact List.mem_map_of_mem (List.mem_filter.mpr ⟨filed, dict⟩)
  · rw [field, Json.sameKey_str]

/-- After the stale-asking guard no settled node is asked. -/
theorem not_asksSettled_dropStaleAsking {agenda : Option PyStr} {s s' : GuardState Dict}
    (run : s.logged Guard.onTurn (dropStaleAsking agenda) = some s') :
    ¬AsksSettled agenda s'.response := by
  rintro ⟨ids, named, carries⟩
  rcases logged_eq_some run with ⟨quiet, same⟩ | ⟨info, changed⟩
  · rw [same] at named carries
    obtain ⟨node, asked, fields⟩ := Option.bind_eq_some_iff.mp named
    rw [dropStaleAsking, asked] at quiet
    dsimp only at quiet
    rw [fields] at quiet
    obtain ⟨facts, listed, quiet⟩ := Option.bind_eq_some_iff.mp quiet
    obtain ⟨filled, filed, quiet⟩ := Option.bind_eq_some_iff.mp quiet
    rw [if_pos (allFilled_of_carries listed filed carries)] at quiet
    cases quiet
  · obtain ⟨entry, _, _, left⟩ := dropStaleAsking_eq_some changed
    rw [left, Dict.get_set_of_ne _ _ (by decide), Dict.get_set_self] at named
    cases named

/-! ### What a step does to the asking -/

/-- A step other than the stale-asking guard leaves the asking, or writes the one it asks instead. -/
theorem step_asking {input : GuardInput} {a : GuardStep} (other : a ≠ .staleAsking)
    {s s' : GuardState Dict} (step : (turnMachine input).step a s = some s') :
    s'.response.get (py "asking") =
      (asksInstead input a s).getD (s.response.get (py "asking")) := by
  cases a with
  | staleAsking => exact absurd rfl other
  | reask =>
      have step : s.logged Guard.onTurn (reaskDroppedIdentifier s.reaskFrom input.agenda) =
          some s' := step
      rw [asksInstead]
      rcases logged_eq_some step with ⟨quiet, same⟩ | ⟨info, changed⟩
      · rw [same]
        cases dropped : s.reaskFrom with
        | nil => rfl
        | cons first rest =>
            rw [dropped] at quiet
            cases quiet
      · cases dropped : s.reaskFrom with
        | nil =>
            rw [dropped] at changed
            cases changed
        | cons first rest =>
            rw [dropped] at changed
            have written : reaskTurn first.1 first.2 input.agenda s.response = s'.response :=
              congrArg Prod.fst (Option.some.inj (Option.some.inj changed))
            rw [← written, reaskTurn_asking]
            rfl
  | settledQuestion =>
      have step : s.logged Guard.onTurn (replaceSettledQuestion input.agenda input.locale) =
          some s' := step
      rw [asksInstead]
      rcases logged_eq_some step with ⟨quiet, same⟩ | ⟨info, changed⟩
      · rw [quiet, same]
        rfl
      · rw [changed]
        rfl
  | _ => exact step_get step (by decide)

theorem asksInstead_facts {input : GuardInput} {a : GuardStep} {s s' : GuardState Dict}
    {asking : Json} (written : asksInstead input a s = some asking)
    (step : (turnMachine input).step a s = some s') :
    s'.response.get (py "facts") = s.response.get (py "facts") := by
  cases a with
  | reask | settledQuestion => exact step_get step (by decide)
  | _ => cases written

/-! ### The chain -/

/-- What a step makes of it. -/
theorem step_asksSettled {input : GuardInput} {a : GuardStep} {s s' : GuardState Dict}
    (step : (turnMachine input).step a s = some s') :
    AsksSettled input.agenda s'.response ↔
      Settles input a s ∨ AsksSettled input.agenda s.response ∧ Keeps input a s := by
  by_cases stale : a = .staleAsking
  · subst stale
    refine iff_of_false (not_asksSettled_dropStaleAsking step) ?_
    rintro ((⟨written, _, _⟩ | ⟨filed, _, _⟩) | ⟨_, keeps⟩)
    · cases written
    · cases filed
    · exact keeps.looksAway rfl
  · rw [AsksSettled, step_asking stale step]
    cases written : asksInstead input a s with
    | some asking =>
        have carries : ∀ id, Carries s'.response id ↔ Carries s.response id := fun id => by
          rw [Carries, Carries, asksInstead_facts written step]
        have files : filesFact input a s.response = none := by
          cases a with
          | probation | trips => cases written
          | _ => rfl
        constructor
        · rintro ⟨ids, named, filled⟩
          exact .inl (.asks written named fun id member => (carries id).mp (filled id member))
        · rintro ((⟨written', named, filled⟩ | ⟨filed, _, _⟩) | ⟨_, keeps⟩)
          · cases written.symm.trans written'
            exact ⟨_, named, fun id member => (carries id).mpr (filled id member)⟩
          · cases files.symm.trans filed
          · cases written.symm.trans keeps.asks
    | none =>
        rw [Option.getD_none]
        constructor
        · rintro ⟨ids, named, filled⟩
          cases filed : filesFact input a s.response with
          | some fid =>
              refine .inl (.files filed named fun id member => ?_)
              rcases (step_carries step).mp (filled id member) with new | ⟨f, entry, field, _⟩
              · exact .inl (Option.some.inj (filed.symm.trans new))
              · exact .inr ⟨f, entry, field⟩
          | none =>
              have stays : ∀ id ∈ ids, Stays input a s.response id := fun id member => by
                rcases (step_carries step).mp (filled id member) with new | stays
                · cases filed.symm.trans new
                · exact stays
              refine .inr ⟨⟨ids, named, fun id member => ?_⟩, stale, written, fun ids' named' => ?_⟩
              · obtain ⟨f, entry, field, _⟩ := stays id member
                exact ⟨f, entry, field⟩
              · cases named.symm.trans named'
                exact stays
        · rintro ((⟨written', _, _⟩ | ⟨filed, named, filled⟩) | ⟨⟨ids, named, _⟩, keeps⟩)
          · cases written.symm.trans written'
          · refine ⟨_, named, fun id member => (step_carries step).mpr ?_⟩
            rcases filled id member with rfl | carries
            · exact .inl filed
            · exact .inr ((stays_of_files filed).mpr carries)
          · exact ⟨ids, named, fun id member =>
              (step_carries step).mpr (.inr (keeps.stays ids named id member))⟩

/-- A guarded response asks no settled node exactly when no guard brings it about that one is asked and
every guard after that one keeps it so. -/
theorem asking_settled_iff {input : GuardInput} {text out : PyStr} {turn : Dict}
    (read : turnOf text = some turn) (run : guardResponseText input text = some out) :
    (∀ turn', turnOf out = some turn' → ¬AsksSettled input.agenda turn') ↔
      ¬(turnMachine input).Lasts (Settles input) (Keeps input) guardOrder (.init turn) := by
  obtain ⟨turn', written, guarded⟩ := guardTurn_of_guardResponseText read run
  obtain ⟨last, chain, rfl⟩ := Option.map_eq_some_iff.mp guarded
  have exactly := Machine.run_lasts_iff (Q := fun s => AsksSettled input.agenda s.response)
    (fun a s s' => step_asksSettled) chain
  -- the stale-asking guard keeps nothing asked
  have never : ¬(turnMachine input).Along (Keeps input) guardOrder (.init turn) := by
    have parts : guardOrder = .readbacks :: .staleAsking :: guardOrder.drop 2 := rfl
    rw [parts] at chain ⊢
    obtain ⟨next, first, rest⟩ := Machine.run_cons_eq_some.mp chain
    rw [Machine.along_cons_iff first]
    rintro ⟨_, here, _⟩
    exact here.looksAway rfl
  rw [or_iff_right fun both => never both.2] at exactly
  rw [← exactly]
  constructor
  · exact fun none_ => none_ _ written
  · intro none_ turn' written'
    rw [written, Option.some.injEq] at written'
    rw [← written']
    exact none_

end

/-! ### A probation she never had -/

/-- She is asked whether she completed a probation, and never had one. -/
def justTheTicket : GuardInput where
  agenda := some (py "q_prob | Part 9 | p9.probation_completed | Did you complete probation?")
  userContent := some (py "Never had any of that, just the ticket.")
  conversation := none
  choiceFields := .null
  locale := some (py "en")
  knownFacts := none
  lineIds := none

/-- The response asks the question again. -/
def asksProbationAgain : PyStr :=
  py "\x7b\"reply\": \x7b\"en\": \"Did you complete probation?\"\x7d, " ++
    py "\"asking\": \x7b\"node_id\": \"q_prob\", \"field_ids\": [\"p9.probation_completed\"]\x7d, " ++
    py "\"facts\": []\x7d"

/-- The guard files the probation she never had, and the question stays. -/
theorem asksProbationAgain_guarded :
    letI := PyRuntime.ascii
    ∃ turn turn', turnOf asksProbationAgain = some turn ∧
      guardTurn justTheTicket turn = some turn' ∧ AsksSettled justTheTicket.agenda turn' := by
  let _ := PyRuntime.ascii
  have settled : ((turnOf asksProbationAgain).any fun turn =>
      (guardTurn justTheTicket turn).any fun turn' =>
        decide (AsksSettled justTheTicket.agenda turn')) = true := by decide +kernel
  obtain ⟨turn, read, guarded⟩ := (Option.any_eq_true _ _).mp settled
  obtain ⟨turn', run, here⟩ := (Option.any_eq_true _ _).mp guarded
  exact ⟨turn, turn', read, run, of_decide_eq_true here⟩

theorem asking_settled_iff_probation :
    letI := PyRuntime.ascii
    ∃ out turn, turnOf asksProbationAgain = some turn ∧
      guardResponseText justTheTicket asksProbationAgain = some out ∧
      ((∀ turn', turnOf out = some turn' → ¬AsksSettled justTheTicket.agenda turn') ↔
        ¬(turnMachine justTheTicket).Lasts (Settles justTheTicket) (Keeps justTheTicket) guardOrder
          (.init turn)) := by
  let _ := PyRuntime.ascii
  obtain ⟨turn, turn', read, run, _⟩ := asksProbationAgain_guarded
  obtain ⟨out, written, _⟩ := guardResponseText_of_guardTurn read run
  exact ⟨out, turn, read, written, asking_settled_iff read written⟩

/-- The probation is asked and filed at once. -/
theorem probation_asked_and_filed :
    letI := PyRuntime.ascii
    ¬∀ (input : GuardInput) (text out : PyStr) (turn turn' : Dict), turnOf text = some turn →
      guardResponseText input text = some out → turnOf out = some turn' →
      ¬AsksSettled input.agenda turn' := by
  let _ := PyRuntime.ascii
  intro never
  obtain ⟨turn, turn', read, run, settled⟩ := asksProbationAgain_guarded
  obtain ⟨out, written, reads⟩ := guardResponseText_of_guardTurn read run
  exact never justTheTicket asksProbationAgain out turn turn' read written reads settled

end GhostPour.N400
