/-
Module: GhostPour.N400.Proofs.EnvelopeEdits
Layer: Proofs
Purpose: What the guards on the reply, the asking, the deferrals and the marks of a response can write.
Trusted boundary: none
Main exports: dropStaleAsking_eq_some, replaceSettledQuestion_eq_some, deferDates_eq_some,
  dropFactsThatAreAlsoDeferred_eq_some and one `editsOnly` lemma for each guard
-/
import GhostPour.N400.Proofs.GuardEdits

namespace GhostPour.N400

section

variable [PyRuntime]

/-! ### The reply -/

theorem canonical_correctMember {facts : Json} {member : PyStr × Json}
    {fixed : (PyStr × Json) × List (PyStr × Nat)} (canonical : member.2.Canonical)
    (run : correctMember facts member = some fixed) :
    fixed.1.1 = member.1 ∧ fixed.1.2.Canonical := by
  rw [correctMember] at run
  split at run
  · obtain ⟨spoken, _, rfl⟩ := Option.map_eq_some_iff.mp run
    split
    · exact ⟨rfl, canonical⟩
    · exact ⟨rfl, canonical_str _⟩
  · obtain ⟨_, _, rfl⟩ := Option.map_eq_some_iff.mp run
    exact ⟨rfl, canonical⟩

theorem keys_correctMembers {facts : Json} {reply : List (PyStr × Json)}
    {fixed : List ((PyStr × Json) × List (PyStr × Nat))}
    (run : reply.mapM (correctMember facts) = some fixed) :
    (fixed.map Prod.fst).map Prod.fst = reply.map Prod.fst := by
  have each := mapM_eq_some_iff.mp run
  clear run
  induction each with
  | nil => rfl
  | @cons member result reply fixed here _ ih =>
      rw [List.map_cons, List.map_cons, List.map_cons, ih]
      congr 1
      rw [correctMember] at here
      split at here
      · obtain ⟨spoken, _, rfl⟩ := Option.map_eq_some_iff.mp here
        split <;> rfl
      · obtain ⟨_, _, rfl⟩ := Option.map_eq_some_iff.mp here
        rfl

theorem editsOnly_correctIdentifierReadbacks :
    correctIdentifierReadbacks.EditsOnly ["reply"] := by
  intro turn turn' changes run
  rw [correctIdentifierReadbacks] at run
  split at run
  · next reply spoken =>
    obtain ⟨fixed, corrected, rest⟩ := Option.bind_eq_some_iff.mp run
    dsimp only at rest
    split at rest
    · cases rest
    · cases rest
      refine (Edits.refl _ turn).set (by simp) fun start => ?_
      have before : (Json.obj reply).Canonical := by
        rw [← spoken]
        exact canonical_get start (py "reply")
      rw [canonical_obj_iff] at before ⊢
      refine ⟨by rw [keys_correctMembers corrected]; exact before.1, fun m member => ?_⟩
      obtain ⟨result, listed, rfl⟩ := List.mem_map.mp member
      obtain ⟨original, found, here⟩ := mem_of_mapM corrected listed
      exact (canonical_correctMember (before.2 original found) here).2
  · obtain ⟨⟨fixed, changed⟩, _, rest⟩ := Option.bind_eq_some_iff.mp run
    dsimp only at rest
    split at rest
    · cases rest
    · cases rest
      exact (Edits.refl _ turn).set (by simp) fun _ => canonical_str _
  · cases run

theorem canonical_reaskReply (fid : PyStr) (heard : Nat) {reply : Json}
    (canonical : reply.Canonical) : (Json.obj (reaskReply fid heard reply)).Canonical := by
  rw [reaskReply.eq_def]
  split
  · next member members =>
    rw [canonical_obj_iff] at canonical ⊢
    constructor
    · rw [List.map_map]
      exact canonical.1
    · intro m member
      obtain ⟨original, _, rfl⟩ := List.mem_map.mp member
      exact canonical_str _
  · simp +decide [canonical_obj_iff]

theorem editsOnly_reaskDroppedIdentifier (dropped : List (PyStr × Nat)) (agenda : Option PyStr) :
    (reaskDroppedIdentifier dropped agenda).EditsOnly
      ["reply", "asking", "section_checkpoint", "interview_over", "complete", "identifier_reask"] := by
  intro turn turn' info run
  rw [reaskDroppedIdentifier.eq_def] at run
  split at run
  · cases run
  · next fid heard rest =>
    cases run
    rw [reaskTurn]
    have spoken : Edits ["reply", "asking", "section_checkpoint", "interview_over", "complete",
        "identifier_reask"] turn
        (turn.set (py "reply") (.obj (reaskReply fid heard (turn.get (py "reply"))))) :=
      (Edits.refl _ turn).set (by simp) fun start =>
        canonical_reaskReply fid heard (canonical_get start (py "reply"))
    refine (((Edits.set ?_ (by simp) fun _ => canonical_null).set (by simp)
      fun _ => canonical_bool _).set (by simp) fun _ => canonical_bool _).set (by simp) fun _ => ?_
    · split
      · next node ids _ =>
        refine spoken.set (by simp) fun _ => ?_
        simp +decide [canonical_obj_iff, canonical_arr_iff]
      · exact spoken
    · simp +decide [canonical_obj_iff]

/-! ### What is asked -/

/-- An `asking` that is dropped named a node off the agenda, or one whose fields are all filled. -/
theorem dropStaleAsking_eq_some {agenda : Option PyStr} {turn turn' : Dict} {info : Json}
    (run : dropStaleAsking agenda turn = some (some (turn', info))) :
    ∃ entry, info = .obj entry ∧ (Json.obj entry).Canonical ∧
      turn' = (turn.set (py "asking") .null).set (py "asking_dropped") info := by
  rw [dropStaleAsking] at run
  split at run
  · cases run
  · next node _ =>
    dsimp only at run
    split at run
    · split at run
      · cases run
      · cases run
        refine ⟨_, rfl, ?_, rfl⟩
        simp +decide [canonical_obj_iff, canonical_arr_iff]
    · next ids _ =>
      obtain ⟨facts, _, rest⟩ := Option.bind_eq_some_iff.mp run
      obtain ⟨filled, _, outcome⟩ := Option.bind_eq_some_iff.mp rest
      split at outcome
      · cases outcome
        refine ⟨_, rfl, ?_, rfl⟩
        simp +decide [canonical_obj_iff]
      · cases outcome

theorem editsOnly_dropStaleAsking (agenda : Option PyStr) :
    (dropStaleAsking agenda).EditsOnly ["asking", "asking_dropped"] := by
  intro turn turn' info run
  obtain ⟨entry, rfl, canonical, rfl⟩ := dropStaleAsking_eq_some run
  exact ((Edits.refl _ turn).set (by simp) fun _ => canonical_null).set (by simp) fun _ => canonical

/-- The question that is spoken instead is the one of an open line, and `asking` points at it. -/
theorem replaceSettledQuestion_eq_some {agenda locale : Option PyStr} {turn turn' : Dict}
    {info : Json} (run : replaceSettledQuestion agenda locale turn = some (some (turn', info))) :
    ∃ entry facts filled moot node fieldIds question text,
      turn.get (py "asking_dropped") = .obj entry ∧
      (turn.get (py "facts")).iterateOrEmpty = some facts ∧ fieldIdSet facts = some filled ∧
      mootNodes turn agenda = some moot ∧
      nextOpenLine agenda (Dict.get entry (py "node_id")) filled moot =
        some (node, fieldIds, question) ∧
      turn' = ((turn.set (py "reply") (speakInstead (turn.get (py "reply")) locale text)).set
          (py "asking") (.obj [(py "node_id", .str node),
            (py "field_ids", .arr ((sortStrs fieldIds).map .str))])).set (py "asking_dropped")
          (.obj (Dict.set entry (py "question_replaced_with") (.str node))) := by
  rw [replaceSettledQuestion] at run
  split at run
  · next entry dropped =>
    split at run
    · cases run
    · obtain ⟨facts, listed, run⟩ := Option.bind_eq_some_iff.mp run
      obtain ⟨filled, named, run⟩ := Option.bind_eq_some_iff.mp run
      obtain ⟨settled, _, run⟩ := Option.bind_eq_some_iff.mp run
      obtain ⟨ids, _, run⟩ := Option.bind_eq_some_iff.mp run
      split at run
      · cases run
      · obtain ⟨moot, unaskable, run⟩ := Option.bind_eq_some_iff.mp run
        split at run
        · cases run
        · next node fieldIds question chosen =>
          obtain ⟨spoken, _, run⟩ := Option.bind_eq_some_iff.mp run
          split at run
          · cases run
          · next front back _ =>
            cases run
            exact ⟨entry, facts, filled, moot, node, fieldIds, question, strip (front ++ question),
              dropped, listed, named, unaskable, chosen, rfl⟩
  · cases run

theorem canonical_speakInstead {reply : Json} (canonical : reply.Canonical) (locale : Option PyStr)
    (text : PyStr) : (speakInstead reply locale text).Canonical := by
  cases reply with
  | obj members => exact canonical_set canonical _ (canonical_str text)
  | _ => exact canonical_str text

theorem editsOnly_replaceSettledQuestion (agenda locale : Option PyStr) :
    (replaceSettledQuestion agenda locale).EditsOnly ["reply", "asking", "asking_dropped"] := by
  intro turn turn' info run
  obtain ⟨entry, _, _, _, node, fieldIds, _, text, dropped, _, _, _, _, rfl⟩ :=
    replaceSettledQuestion_eq_some run
  refine (((Edits.refl _ turn).set (by simp) fun start =>
    canonical_speakInstead (canonical_get start (py "reply")) locale text).set (by simp)
    fun _ => ?_).set (by simp) fun start => ?_
  · simp +decide [canonical_obj_iff]
  · have before : (Json.obj entry).Canonical := by
      rw [← dropped]
      exact canonical_get start (py "asking_dropped")
    exact canonical_set before _ (canonical_str node)

theorem dropCheckpointWhenAskingSet_eq_some {turn turn' : Dict} {info : Json}
    (run : dropCheckpointWhenAskingSet turn = some (some (turn', info))) :
    ((Json.obj turn).Canonical → info.Canonical) ∧
      turn' = (turn.set (py "section_checkpoint") .null).set (py "checkpoint_dropped") info := by
  rw [dropCheckpointWhenAskingSet] at run
  dsimp only at run
  split at run
  · cases run
  split at run
  · cases run
  split at run
  · cases run
  cases run
  refine ⟨fun start => ?_, rfl⟩
  have part := canonical_field (canonical_get start (py "section_checkpoint")) "part"
  have asking := canonical_get start (py "asking")
  split <;> simp +decide [canonical_obj_iff, part, asking, canonical_field asking]

theorem editsOnly_dropCheckpointWhenAskingSet :
    dropCheckpointWhenAskingSet.EditsOnly ["section_checkpoint", "checkpoint_dropped"] := by
  intro turn turn' info run
  obtain ⟨canonical, rfl⟩ := dropCheckpointWhenAskingSet_eq_some run
  exact ((Edits.refl _ turn).set (by simp) fun _ => canonical_null).set (by simp) canonical

theorem editsOnly_clearInterviewOverWhileAgendaOpen (agenda : Option PyStr) :
    (clearInterviewOverWhileAgendaOpen agenda).EditsOnly
      ["interview_over", "interview_over_cleared"] := by
  intro turn turn' info run
  rw [clearInterviewOverWhileAgendaOpen] at run
  dsimp only at run
  split at run
  · cases run
  · cases run
    refine ((Edits.refl _ turn).set (by simp) fun _ => canonical_bool _).set (by simp) fun _ => ?_
    simp +decide [canonical_obj_iff]

/-! ### Deferrals -/

theorem dropDeferralsOfFiledValues_eq_some {knownFacts agenda userContent : Option PyStr}
    {turn turn' : Dict} {dropped : List (PyStr × PyStr)}
    (run : dropDeferralsOfFiledValues knownFacts agenda userContent turn =
      some (some (turn', dropped))) :
    ∃ deferred verdicts, turn.get (py "deferred") = .arr deferred ∧
      deferred.mapM (strayDeferral (filedValues knownFacts) (standingFields agenda)
        (normText (orEmpty userContent))) = some verdicts ∧
      ∃ entries, entries ≠ [] ∧ (∀ v ∈ entries, v.Canonical) ∧
        takeAway turn "deferred" (keptOf deferred verdicts) "deferrals_dropped" entries =
          some turn' := by
  rw [dropDeferralsOfFiledValues] at run
  dsimp only at run
  split at run
  · cases run
  split at run
  · next deferred listed =>
    obtain ⟨verdicts, judged, run⟩ := Option.bind_eq_some_iff.mp run
    split at run
    · cases run
    · next some_ =>
      obtain ⟨last, taken, outcome⟩ := Option.bind_eq_some_iff.mp run
      cases outcome
      refine ⟨deferred, verdicts, listed, judged, _, ?_, ?_, taken⟩
      · simpa using some_
      intro v member
      obtain ⟨⟨fid, value⟩, _, rfl⟩ := List.mem_map.mp member
      simp +decide [canonical_obj_iff]
  · cases run

theorem editsOnly_dropDeferralsOfFiledValues (knownFacts agenda userContent : Option PyStr) :
    (dropDeferralsOfFiledValues knownFacts agenda userContent).EditsOnly
      ["deferred", "deferrals_dropped"] := by
  intro turn turn' dropped run
  obtain ⟨deferred, verdicts, listed, _, entries, _, canonical, taken⟩ :=
    dropDeferralsOfFiledValues_eq_some run
  exact (Edits.refl _ turn).takeAway (by simp) (by simp)
    (fun start => canonical_keptOf (canonical_items start listed) verdicts) (fun _ => canonical) taken

theorem canonical_iterateOrEmpty {v : Json} (canonical : v.Canonical) {items : List Json}
    (run : v.iterateOrEmpty = some items) : ∀ w ∈ items, w.Canonical := by
  rw [Json.iterateOrEmpty] at run
  split at run
  · rw [Json.iterate.eq_def] at run
    split at run
    · cases run
      exact canonical_entries (fun c => canonical_str [c]) _
    · cases run
      rw [canonical_arr_iff] at canonical
      exact canonical
    · cases run
      exact canonical_entries (fun m : PyStr × Json => canonical_str m.1) _
    · cases run
  · cases run
    exact fun _ member => nomatch member

theorem editsOnly_markUnknownDeferralOrigins :
    markUnknownDeferralOrigins.EditsOnly ["deferred_origin_unknown"] := by
  intro turn turn' unknown run
  obtain ⟨deferred, listed, run⟩ := Option.bind_eq_some_iff.mp run
  dsimp only at run
  split at run
  · cases run
  · cases run
    refine (Edits.refl _ turn).set (by simp) fun start => ?_
    rw [canonical_arr_iff]
    intro v member
    obtain ⟨d, found, rfl⟩ := List.mem_map.mp member
    have canonical := canonical_iterateOrEmpty (canonical_get start (py "deferred")) listed d
      (List.mem_of_mem_filter found)
    simp +decide [canonical_obj_iff, canonical_field canonical]

theorem canonical_deferredFact {stands : List Json} {f entry : Json} (canonical : f.Canonical)
    (run : deferredFact stands f = some (some entry)) : entry.Canonical := by
  obtain ⟨deferred, _, run⟩ := Option.bind_eq_some_iff.mp run
  split at run
  · split at run
    · cases run
      simp +decide [canonical_obj_iff, canonical_field canonical]
    · cases run
  · cases run

theorem canonical_resolvedGap {captured factIds : List Json} {d entry : Json}
    (canonical : d.Canonical) (run : resolvedGap captured factIds d = some (some entry)) :
    entry.Canonical := by
  obtain ⟨gap, _, run⟩ := Option.bind_eq_some_iff.mp run
  split at run
  · obtain ⟨filed, _, run⟩ := Option.bind_eq_some_iff.mp run
    split at run
    · cases run
      simp +decide [canonical_obj_iff, canonical_field canonical]
    · cases run
  · cases run

/-- The facts whose deferral stands go, and so do the capture gaps that a fact resolves. -/
theorem dropFactsThatAreAlsoDeferred_eq_some {turn : Dict} {outcome : Option (Dict × List Json)}
    {deferred facts : List Json} (some_ : deferred ≠ [])
    (listed : turn.get (py "deferred") = .arr deferred) (filed : turn.get (py "facts") = .arr facts)
    (run : dropFactsThatAreAlsoDeferred turn = some outcome) :
    ∃ stands gaps captured verdicts factIds gapVerdicts,
      deferredIds false deferred = some stands ∧ deferredIds true deferred = some gaps ∧
      captured = gaps.filter (fun fid => !stands.any (Json.sameKey fid)) ∧
      facts.mapM (deferredFact stands) = some verdicts ∧
      fieldIdSet (keptOf facts verdicts) = some factIds ∧
      deferred.mapM (resolvedGap captured factIds) = some gapVerdicts ∧
      ((outcome = none ∧ verdicts.filterMap id = [] ∧ gapVerdicts.filterMap id = []) ∨
        ∃ marked settled,
          takeAway turn "facts" (keptOf facts verdicts) "facts_dropped" (verdicts.filterMap id) =
            some marked ∧
          takeAway marked "deferred" (keptOf deferred gapVerdicts) "deferred_dropped"
            (gapVerdicts.filterMap id) = some settled ∧
          outcome = some (settled, verdicts.filterMap id ++ gapVerdicts.filterMap id)) := by
  have full : deferred.isEmpty = false := by simpa using some_
  rw [dropFactsThatAreAlsoDeferred, listed, filed] at run
  dsimp only at run
  rw [full, if_neg Bool.false_ne_true] at run
  obtain ⟨stands, applicant, run⟩ := Option.bind_eq_some_iff.mp run
  obtain ⟨gaps, gap, run⟩ := Option.bind_eq_some_iff.mp run
  obtain ⟨verdicts, judged, run⟩ := Option.bind_eq_some_iff.mp run
  obtain ⟨factIds, named, run⟩ := Option.bind_eq_some_iff.mp run
  obtain ⟨gapVerdicts, resolved, run⟩ := Option.bind_eq_some_iff.mp run
  refine ⟨stands, gaps, _, verdicts, factIds, gapVerdicts, applicant, gap, rfl, judged, named,
    resolved, ?_⟩
  split at run
  · next quiet =>
    rw [Bool.and_eq_true, List.isEmpty_iff, List.isEmpty_iff] at quiet
    cases run
    exact .inl ⟨rfl, quiet⟩
  · obtain ⟨marked, first, run⟩ := Option.bind_eq_some_iff.mp run
    obtain ⟨settled, second, run⟩ := Option.bind_eq_some_iff.mp run
    exact .inr ⟨marked, settled, first, second, (Option.some.inj run).symm⟩

/-- When the guard changes the response, both keys are lists. -/
theorem dropFactsThatAreAlsoDeferred_changes {turn turn' : Dict} {info : List Json}
    (run : dropFactsThatAreAlsoDeferred turn = some (some (turn', info))) :
    ∃ deferred facts stands gaps captured verdicts factIds gapVerdicts marked,
      turn.get (py "deferred") = .arr deferred ∧ turn.get (py "facts") = .arr facts ∧
      deferredIds false deferred = some stands ∧
      captured = List.filter (fun fid => !stands.any (Json.sameKey fid)) gaps ∧
      facts.mapM (deferredFact stands) = some verdicts ∧
      deferred.mapM (resolvedGap captured factIds) = some gapVerdicts ∧
      takeAway turn "facts" (keptOf facts verdicts) "facts_dropped" (verdicts.filterMap id) =
        some marked ∧
      takeAway marked "deferred" (keptOf deferred gapVerdicts) "deferred_dropped"
        (gapVerdicts.filterMap id) = some turn' := by
  by_cases lists : ∃ deferred facts, deferred ≠ [] ∧ turn.get (py "deferred") = .arr deferred ∧
      turn.get (py "facts") = .arr facts
  · obtain ⟨deferred, facts, some_, listed, filed⟩ := lists
    obtain ⟨stands, gaps, captured, verdicts, factIds, gapVerdicts, applicant, _, left, judged, _,
      resolved, none_ | ⟨marked, settled, first, second, outcome⟩⟩ :=
      dropFactsThatAreAlsoDeferred_eq_some some_ listed filed run
    · cases none_.1
    · cases outcome
      exact ⟨deferred, facts, stands, gaps, captured, verdicts, factIds, gapVerdicts, marked, listed,
        filed, applicant, left, judged, resolved, first, second⟩
  · rw [dropFactsThatAreAlsoDeferred.eq_def] at run
    split at run
    · next deferred facts listed filed =>
      split at run
      · cases run
      · next some_ =>
        exact (lists ⟨deferred, facts, fun none_ => some_ (List.isEmpty_iff.mpr none_), listed,
          filed⟩).elim
    · cases run

theorem canonical_verdicts {items : List Json} {verdicts : List (Option Json)}
    {judge : Json → Py (Option Json)}
    (test : ∀ {v entry}, v.Canonical → judge v = some (some entry) → entry.Canonical)
    (each : ∀ v ∈ items, v.Canonical) (judged : items.mapM judge = some verdicts) :
    ∀ entry ∈ verdicts.filterMap id, entry.Canonical := by
  intro entry member
  obtain ⟨verdict, reached, same⟩ := List.mem_filterMap.mp member
  obtain ⟨v, found, here⟩ := mem_of_mapM judged reached
  rw [show verdict = some entry from same] at here
  exact test (each v found) here

theorem editsOnly_dropFactsThatAreAlsoDeferred :
    dropFactsThatAreAlsoDeferred.EditsOnly
      ["facts", "facts_dropped", "deferred", "deferred_dropped"] := by
  intro turn turn' info run
  obtain ⟨deferred, facts, stands, gaps, captured, verdicts, factIds, gapVerdicts, marked, listed,
    filed, _, _, judged, resolved, first, second⟩ := dropFactsThatAreAlsoDeferred_changes run
  refine ((Edits.refl _ turn).takeAway (by simp) (by simp) (fun start => ?_) (fun start => ?_)
    first).takeAway (by simp) (by simp) (fun start => ?_) (fun start => ?_) second
  · exact canonical_keptOf (canonical_items start filed) verdicts
  · exact canonical_verdicts canonical_deferredFact (canonical_items start filed) judged
  · exact canonical_keptOf (canonical_items start listed) gapVerdicts
  · exact canonical_verdicts canonical_resolvedGap (canonical_items start listed) resolved

omit [PyRuntime] in
/-- What `appendDeferred` writes. -/
theorem appendDeferred_eq_some {turn turn' : Dict} {entries : List Json}
    (run : appendDeferred turn entries = some turn') :
    (entries = [] ∧ turn' = turn) ∨ entries ≠ [] ∧
      ∃ items, turn' = turn.set (py "deferred") (.arr (items ++ entries)) ∧
        (turn.get (py "deferred") = .arr items ∨ turn.has (py "deferred") = false ∧ items = []) := by
  rw [appendDeferred] at run
  split at run
  · next none_ => exact .inl ⟨List.isEmpty_iff.mp none_, (Option.some.inj run).symm⟩
  · next some_ =>
    refine .inr ⟨fun none_ => some_ (List.isEmpty_iff.mpr none_), ?_⟩
    split at run
    · split at run
      · next items listed => exact ⟨items, (Option.some.inj run).symm, .inl listed⟩
      · cases run
    · next absent =>
      refine ⟨[], ?_, .inr ⟨by simpa using absent, rfl⟩⟩
      rw [List.nil_append]
      exact (Option.some.inj run).symm

theorem Edits.appendDeferred {keys : List String} {before after last : Dict}
    (edits : Edits keys before after) (listed : "deferred" ∈ keys) {entries : List Json}
    (values : (Json.obj before).Canonical → ∀ v ∈ entries, v.Canonical)
    (run : N400.appendDeferred after entries = some last) : Edits keys before last := by
  rcases appendDeferred_eq_some run with ⟨_, rfl⟩ | ⟨_, items, rfl, held⟩
  · exact edits
  refine edits.set listed fun start => canonical_append ?_ (values start)
  rcases held with held | ⟨_, rfl⟩
  · rw [← held]
    exact canonical_get (edits.canonical start) (py "deferred")
  · rw [canonical_arr_iff]
    exact fun v member => nomatch member

/-- The dates that move: their deferrals are appended, and the facts that stay are the others. -/
theorem deferDates_eq_some {judge : Json → Option MovedDate} {reason : PyStr} {turn turn' : Dict}
    {entries : List Json} (run : deferDates judge reason turn = some (some (turn', entries))) :
    ∃ facts items already deferrals deferred,
      turn.get (py "facts") = .arr facts ∧
      (turn.get (py "deferred")).iterateOrEmpty = some items ∧ fieldIdSet items = some already ∧
      (facts.filterMap judge).mapM (notDeferredYet already) = some deferrals ∧
      appendDeferred turn ((deferrals.filterMap id).map (MovedDate.deferral reason)) =
        some deferred ∧
      facts.filterMap judge ≠ [] ∧ entries = (facts.filterMap judge).map (MovedDate.entry reason) ∧
      appendTo (deferred.set (py "facts") (.arr (keptOf facts (facts.map judge)))) "facts_dropped"
        entries = some turn' := by
  rw [deferDates] at run
  split at run
  · next facts listed =>
    have moved : (facts.map judge).filterMap id = facts.filterMap judge := by
      rw [List.filterMap_map]
      rfl
    obtain ⟨items, held, run⟩ := Option.bind_eq_some_iff.mp run
    obtain ⟨already, named, run⟩ := Option.bind_eq_some_iff.mp run
    dsimp only at run
    rw [moved] at run
    obtain ⟨deferrals, fresh, run⟩ := Option.bind_eq_some_iff.mp run
    obtain ⟨deferred, added, run⟩ := Option.bind_eq_some_iff.mp run
    split at run
    · cases run
    · next some_ =>
      obtain ⟨last, marked, outcome⟩ := Option.bind_eq_some_iff.mp run
      cases outcome
      exact ⟨facts, items, already, deferrals, deferred, listed, held, named, fresh, added,
        fun none_ => some_ (List.isEmpty_iff.mpr none_), rfl, marked⟩
  · cases run

theorem notDeferredYet_eq_some {already : List Json} {moved fresh : MovedDate}
    (run : notDeferredYet already moved = some (some fresh)) :
    fresh = moved ∧ keyIn moved.fieldId already = some false := by
  obtain ⟨deferred, listed, outcome⟩ := Option.map_eq_some_iff.mp run
  cases deferred with
  | true => cases outcome
  | false => exact ⟨(Option.some.inj outcome).symm, listed⟩

/-- The dates a test moves are canonical values of a canonical fact. -/
def MovedDate.Canonical (moved : MovedDate) : Prop :=
  moved.fieldId.Canonical ∧ moved.value.Canonical ∧ moved.partialValue.Canonical

theorem editsOnly_deferDates {judge : Json → Option MovedDate} (reason : PyStr)
    (test : ∀ {f moved}, f.Canonical → judge f = some moved → moved.Canonical) :
    (deferDates judge reason).EditsOnly ["deferred", "facts", "facts_dropped"] := by
  intro turn turn' entries run
  obtain ⟨facts, items, already, deferrals, deferred, listed, _, _, fresh, added, _, rfl, marked⟩ :=
    deferDates_eq_some run
  have moved : (Json.obj turn).Canonical → ∀ m ∈ facts.filterMap judge, m.Canonical := by
    intro start m member
    obtain ⟨f, filed, condemned⟩ := List.mem_filterMap.mp member
    exact test (canonical_items start listed f filed) condemned
  refine (((Edits.refl _ turn).appendDeferred (by simp) (fun start v member => ?_) added).set
    (by simp) fun start => ?_).appendTo (by simp) (fun start v member => ?_) marked
  · obtain ⟨m, found, rfl⟩ := List.mem_map.mp member
    obtain ⟨verdict, reached, same⟩ := List.mem_filterMap.mp found
    obtain ⟨original, listed_, here⟩ := mem_of_mapM fresh reached
    rw [show verdict = some m from same] at here
    obtain ⟨rfl, _⟩ := notDeferredYet_eq_some here
    obtain ⟨fid, _, part⟩ := moved start m listed_
    simp +decide [MovedDate.deferral, canonical_obj_iff, fid, part]
  · exact canonical_keptOf (canonical_items start listed) _
  · obtain ⟨m, found, rfl⟩ := List.mem_map.mp member
    obtain ⟨fid, value, part⟩ := moved start m found
    simp +decide [MovedDate.entry, canonical_obj_iff, fid, value, part]

theorem editsOnly_deferDatesWithUnspokenDay (userContent knownFacts conversation : Option PyStr) :
    (deferDatesWithUnspokenDay userContent knownFacts conversation).EditsOnly
      ["deferred", "facts", "facts_dropped"] := by
  intro turn turn' entries run
  rw [deferDatesWithUnspokenDay] at run
  split at run
  · cases run
  · refine editsOnly_deferDates _ (fun {f moved} canonical condemned => ?_) run
    rw [unspokenDay] at condemned
    split at condemned
    · cases condemned
    split at condemned
    · cases condemned
    · dsimp only at condemned
      split at condemned
      · cases condemned
      · cases condemned
        refine ⟨canonical_field canonical _, canonical_field canonical _, ?_⟩
        rw [optionalText]
        cases spokenPartial _ _ _ _ with
        | none => exact canonical_null
        | some part => exact canonical_str part

theorem editsOnly_deferDatesOffTheirKnownPartial (knownFacts userContent : Option PyStr) :
    (deferDatesOffTheirKnownPartial knownFacts userContent).EditsOnly
      ["deferred", "facts", "facts_dropped"] := by
  intro turn turn' entries run
  rw [deferDatesOffTheirKnownPartial] at run
  split at run
  · cases run
  · refine editsOnly_deferDates _ (fun {f moved} canonical condemned => ?_) run
    obtain ⟨_, none_⟩ | ⟨_, condemned⟩ := ite_eq_iff.mp condemned
    · cases none_
    split at condemned
    · cases condemned
    · obtain ⟨_, none_⟩ | ⟨_, outcome⟩ := ite_eq_iff.mp condemned
      · cases none_
      · cases outcome
        exact ⟨canonical_field canonical _, canonical_str _, canonical_str _⟩

/-! ### Marks and the reply -/

theorem editsOnly_markFactsMintedOnANonAnswer :
    markFactsMintedOnANonAnswer.EditsOnly ["minted_on_non_answer"] := by
  intro turn turn' info run
  rw [markFactsMintedOnANonAnswer] at run
  split at run
  · dsimp only at run
    split at run
    · cases run
    · cases run
      refine (Edits.refl _ turn).set (by simp) fun _ => ?_
      simp +decide [canonical_obj_iff]
  · cases run

theorem editsOnly_normalizeReplyShape :
    normalizeReplyShape.EditsOnly ["reply", "reply_shape_normalized"] := by
  intro turn turn' info run
  rw [normalizeReplyShape] at run
  split at run
  · cases run
    refine ((Edits.refl _ turn).set (by simp) fun _ => ?_).set (by simp) fun _ => ?_
    · simp +decide [canonical_obj_iff]
    · simp +decide [canonical_obj_iff]
  · cases run

theorem editsOnly_dropUnusableReply : dropUnusableReply.EditsOnly ["reply", "reply_dropped"] := by
  intro turn turn' info run
  obtain ⟨_, none_⟩ | ⟨_, outcome⟩ := ite_eq_iff.mp run
  · cases none_
  · cases outcome
    refine ((Edits.refl _ turn).del (by simp)).set (by simp) fun _ => ?_
    simp +decide [canonical_obj_iff]

theorem canonical_outsideEntry {fieldOptions : Assoc (List PyStr)} {reason : PyStr} {f entry : Json}
    (canonical : f.Canonical) (run : outsideEntry fieldOptions reason f = some (some entry)) :
    entry.Canonical := by
  have shape : ∀ options : List PyStr, (Json.obj [(py "field_id", f.field "field_id"),
      (py "value", f.field "value"), (py "declared", .arr ((sortStrs options).map .str)),
      (py "reason", .str reason)]).Canonical := by
    intro options
    simp +decide [canonical_obj_iff, canonical_field canonical]
  rw [outsideEntry] at run
  dsimp only at run
  split at run
  · split at run
    · split at run
      · cases run
      · obtain ⟨allowed, _, outcome⟩ := Option.map_eq_some_iff.mp run
        split at outcome
        · cases outcome
        · cases outcome
          exact shape _
    · split at run
      · cases run
      · cases run
        exact shape _
    · cases run
      exact shape _
  · cases run

theorem editsOnly_markOutside (fieldOptions : Assoc (List PyStr)) (reason : PyStr) :
    (markOutside fieldOptions reason).EditsOnly ["values_outside_declared_options"] := by
  intro turn turn' off run
  rw [markOutside] at run
  split at run
  · next facts listed =>
    obtain ⟨entries, judged, run⟩ := Option.bind_eq_some_iff.mp run
    dsimp only at run
    split at run
    · cases run
    · cases run
      refine (Edits.refl _ turn).set (by simp) fun start => ?_
      rw [canonical_arr_iff]
      exact canonical_verdicts canonical_outsideEntry (canonical_items start listed) judged
  · cases run

theorem editsOnly_markValuesOutsideDeclaredOptions (agenda : Option PyStr) (choiceFields : Json) :
    (markValuesOutsideDeclaredOptions agenda choiceFields).EditsOnly
      ["values_outside_declared_options"] := by
  intro turn turn' off run
  rw [markValuesOutsideDeclaredOptions] at run
  split at run
  · exact editsOnly_markOutside _ _ run
  split at run
  · cases run
  · exact editsOnly_markOutside _ _ run

theorem canonical_batteryInfo {agenda : Option PyStr} {facts minted : List Json} {spoken : Nat}
    {entry : PyStr × List PyStr} {info : Json}
    (run : batteryInfo agenda facts minted spoken entry = some info) : info.Canonical := by
  obtain ⟨_, none_⟩ | ⟨_, outcome⟩ := ite_eq_iff.mp run
  · cases none_
  · cases outcome
    simp +decide [canonical_obj_iff]

theorem editsOnly_markBatteryShortfall (agenda : Option PyStr) :
    (markBatteryShortfall agenda).EditsOnly ["battery_unspoken"] := by
  intro turn turn' info run
  rw [markBatteryShortfall] at run
  split at run
  · obtain ⟨minted, _, run⟩ := Option.bind_eq_some_iff.mp run
    obtain ⟨found, chosen, outcome⟩ := Option.map_eq_some_iff.mp (Option.some.inj run)
    cases outcome
    obtain ⟨entry, _, here⟩ := List.exists_of_findSome?_eq_some chosen
    exact (Edits.refl _ turn).set (by simp) fun _ => canonical_batteryInfo here
  · cases run

end

end GhostPour.N400
