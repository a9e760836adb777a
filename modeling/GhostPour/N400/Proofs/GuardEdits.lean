/-
Module: GhostPour.N400.Proofs.GuardEdits
Layer: Proofs
Purpose: What each guard can write. A guard edits a few keys of the response and leaves every other
  one alone, and what it writes is canonical where the response was, so the chain on the text is the
  chain on the object.
Trusted boundary: none
Main exports: Edits, Guard.EditsOnly, editsOnly_dropFacts, editsOnly_deferDates and one lemma for each
  guard
-/
import GhostPour.N400.GuardChain
import GhostPour.N400.Proofs.TurnText

namespace GhostPour.N400

section

variable [PyRuntime]

/-! ### Edits of an object -/

/-- Only the keys of a list have changed, and the object is canonical if it was. -/
structure Edits (keys : List String) (before after : Dict) : Prop where
  frame : ∀ key, key ∉ keys.map py → after.get key = before.get key
  canonical : (Json.obj before).Canonical → (Json.obj after).Canonical

theorem Edits.refl (keys : List String) (turn : Dict) : Edits keys turn turn :=
  ⟨fun _ _ => rfl, id⟩

theorem Edits.set {keys : List String} {before after : Dict} (edits : Edits keys before after)
    {key : String} (listed : key ∈ keys) {v : Json}
    (value : (Json.obj before).Canonical → v.Canonical) : Edits keys before (after.set (py key) v) where
  frame k fresh := by
    have other : py key ≠ k := by
      rintro rfl
      exact fresh (List.mem_map_of_mem listed)
    rw [Dict.get_set_of_ne _ _ other, edits.frame k fresh]
  canonical start := canonical_set (edits.canonical start) (py key) (value start)

theorem canonical_del {d : Dict} (canonical : (Json.obj d).Canonical) (key : PyStr) :
    (Json.obj (d.del key)).Canonical := by
  rw [canonical_obj_iff] at canonical ⊢
  constructor
  · exact List.Nodup.sublist (List.filter_sublist.map Prod.fst) canonical.1
  · exact fun m member => canonical.2 m (List.mem_of_mem_filter member)

theorem Edits.del {keys : List String} {before after : Dict} (edits : Edits keys before after)
    {key : String} (listed : key ∈ keys) : Edits keys before (after.del (py key)) where
  frame k fresh := by
    have other : py key ≠ k := by
      rintro rfl
      exact fresh (List.mem_map_of_mem listed)
    rw [Dict.get_del, if_neg other, edits.frame k fresh]
  canonical start := canonical_del (edits.canonical start) (py key)

/-- What `appendTo` writes. -/
theorem appendTo_eq_some {turn turn' : Dict} {key : String} {more : List Json}
    (run : appendTo turn key more = some turn') :
    ∃ items, turn' = turn.set (py key) (.arr (items ++ more)) ∧
      (turn.get (py key) = .arr items ∨ (turn.get (py key)).truthy = false ∧ items = []) := by
  rw [appendTo] at run
  split at run
  · split at run
    · next items listed =>
      exact ⟨items, (Option.some.inj run).symm, .inl listed⟩
    · cases run
  · next empty =>
    refine ⟨[], ?_, .inr ⟨by simpa using empty, rfl⟩⟩
    rw [List.nil_append]
    exact (Option.some.inj run).symm

theorem canonical_append {front back : List Json} (first : (Json.arr front).Canonical)
    (second : ∀ v ∈ back, v.Canonical) : (Json.arr (front ++ back)).Canonical := by
  rw [canonical_arr_iff] at first ⊢
  intro v member
  rcases List.mem_append.mp member with old | new
  · exact first v old
  · exact second v new

theorem Edits.appendTo {keys : List String} {before after last : Dict}
    (edits : Edits keys before after) {key : String} (listed : key ∈ keys) {more : List Json}
    (values : (Json.obj before).Canonical → ∀ v ∈ more, v.Canonical)
    (run : N400.appendTo after key more = some last) : Edits keys before last := by
  obtain ⟨items, rfl, held⟩ := appendTo_eq_some run
  refine edits.set listed fun start => canonical_append ?_ (values start)
  rcases held with held | ⟨_, rfl⟩
  · rw [← held]
    exact canonical_get (edits.canonical start) (py key)
  · rw [canonical_arr_iff]
    exact fun v member => nomatch member

theorem takeAway_eq_some {turn turn' : Dict} {key mark : String} {kept dropped : List Json}
    (run : takeAway turn key kept mark dropped = some turn') :
    (dropped = [] ∧ turn' = turn) ∨
      dropped ≠ [] ∧ appendTo (turn.set (py key) (.arr kept)) mark dropped = some turn' := by
  rw [takeAway] at run
  split at run
  · next none_ => exact .inl ⟨List.isEmpty_iff.mp none_, (Option.some.inj run).symm⟩
  · next some_ => exact .inr ⟨fun none_ => some_ (List.isEmpty_iff.mpr none_), run⟩

theorem Edits.takeAway {keys : List String} {before after last : Dict}
    (edits : Edits keys before after) {key mark : String} (listed : key ∈ keys) (marked : mark ∈ keys)
    {kept dropped : List Json} (keeps : (Json.obj before).Canonical → (Json.arr kept).Canonical)
    (entries : (Json.obj before).Canonical → ∀ v ∈ dropped, v.Canonical)
    (run : N400.takeAway after key kept mark dropped = some last) : Edits keys before last := by
  rcases takeAway_eq_some run with ⟨_, rfl⟩ | ⟨_, added⟩
  · exact edits
  · exact (edits.set listed keeps).appendTo marked entries added

/-- A guard that only edits the keys of a list. -/
def Guard.EditsOnly {ι : Type} (guard : Guard ι) (keys : List String) : Prop :=
  ∀ {turn turn' : Dict} {info : ι}, guard turn = some (some (turn', info)) → Edits keys turn turn'

/-! ### Values of the response -/

theorem canonical_items {turn : Dict} (canonical : (Json.obj turn).Canonical) {key : PyStr}
    {items : List Json} (listed : turn.get key = .arr items) : ∀ v ∈ items, v.Canonical := by
  rw [← canonical_arr_iff, ← listed]
  exact canonical_get canonical key

theorem canonical_keptOf {ι : Type} {items : List Json} (each : ∀ v ∈ items, v.Canonical)
    (verdicts : List (Option ι)) : (Json.arr (keptOf items verdicts)).Canonical := by
  rw [canonical_arr_iff]
  exact fun v member => each v ((keptOf_sublist items verdicts).subset member)

theorem canonical_entries {α : Type} {entry : α → Json} (each : ∀ a, (entry a).Canonical)
    (entries : List α) : ∀ v ∈ entries.map entry, v.Canonical := by
  intro v member
  obtain ⟨a, _, rfl⟩ := List.mem_map.mp member
  exact each a

/-! ### Guards that take facts away -/

theorem dropFacts_eq_some {ι : Type} {judge : Json → Py (Option ι)} {entry : ι → Json}
    {turn turn' : Dict} {dropped : List ι}
    (run : dropFacts judge entry turn = some (some (turn', dropped))) :
    ∃ facts verdicts, turn.get (py "facts") = .arr facts ∧ facts.mapM judge = some verdicts ∧
      dropped = verdicts.filterMap id ∧ dropped ≠ [] ∧
      takeAway turn "facts" (keptOf facts verdicts) "facts_dropped" (dropped.map entry) =
        some turn' := by
  rw [dropFacts] at run
  split at run
  · next facts listed =>
    simp only [Option.bind_eq_bind, Option.bind_eq_some_iff] at run
    obtain ⟨verdicts, judged, rest⟩ := run
    split at rest
    · cases rest
    · next some_ =>
      obtain ⟨last, added, outcome⟩ := Option.bind_eq_some_iff.mp rest
      cases outcome
      refine ⟨facts, verdicts, listed, judged, rfl, ?_, added⟩
      rintro empty
      exact some_ (List.isEmpty_iff.mpr empty)
  · cases run

theorem editsOnly_dropFacts {ι : Type} {judge : Json → Py (Option ι)} {entry : ι → Json}
    (entries : ∀ {facts : List Json} {verdicts : List (Option ι)}, (∀ f ∈ facts, f.Canonical) →
      facts.mapM judge = some verdicts → ∀ v ∈ (verdicts.filterMap id).map entry, v.Canonical) :
    (dropFacts judge entry).EditsOnly ["facts", "facts_dropped"] := by
  intro turn turn' dropped run
  obtain ⟨facts, verdicts, listed, judged, rfl, _, taken⟩ := dropFacts_eq_some run
  exact (Edits.refl _ turn).takeAway (by simp) (by simp)
    (fun start => canonical_keptOf (canonical_items start listed) verdicts)
    (fun start => entries (canonical_items start listed) judged) taken

theorem editsOnly_dropIdentifiersWithWrongDigitCount :
    dropIdentifiersWithWrongDigitCount.EditsOnly ["facts", "facts_dropped"] := by
  refine editsOnly_dropFacts fun {facts verdicts} _ _ => canonical_entries (fun dropped => ?_) _
  have counts : (Json.arr (dropped.expected.map fun (n : Nat) => .int n)).Canonical := by
    rw [canonical_arr_iff]
    exact canonical_entries (fun n : Nat => canonical_int n) dropped.expected
  simp +decide [WrongCount.entry, canonical_obj_iff, counts]

theorem editsOnly_dropIdentifiersNotAsSaid (locale : Option PyStr) :
    (dropIdentifiersNotAsSaid locale).EditsOnly ["facts", "facts_dropped"] := by
  refine editsOnly_dropFacts fun {facts verdicts} _ _ => canonical_entries (fun dropped => ?_) _
  simp +decide [NotAsSaid.entry, canonical_obj_iff]

theorem canonical_bareNo {f entry : Json} (canonical : f.Canonical)
    (run : bareNo f = some (some entry)) : entry.Canonical := by
  obtain ⟨utt, _, outcome⟩ := Option.map_eq_some_iff.mp run
  split at outcome
  · cases outcome
    simp +decide [canonical_obj_iff, canonical_field canonical]
  · cases outcome

theorem editsOnly_dropNoThatPushedBack (userContent : Option PyStr) :
    (dropNoThatPushedBack userContent).EditsOnly ["facts", "facts_dropped"] := by
  intro turn turn' dropped run
  rw [dropNoThatPushedBack] at run
  split at run
  · cases run
  · refine editsOnly_dropFacts (fun {facts verdicts} each judged v member => ?_) run
    rw [List.map_id] at member
    obtain ⟨verdict, listed, same⟩ := List.mem_filterMap.mp member
    obtain ⟨f, filed, found⟩ := mem_of_mapM judged listed
    rw [show verdict = some v from same] at found
    exact canonical_bareNo (each f filed) found

/-! ### Guards that file or rewrite facts -/

theorem canonical_occupationFact {f g : Json} (canonical : f.Canonical) {fix : OccupationFix}
    (stays : fix.fact f = some g) : g.Canonical := by
  rw [OccupationFix.fact.eq_def] at stays
  split at stays
  · cases stays
    exact canonical
  · cases stays
  · cases stays
    exact canonical_set canonical (py "value") (canonical_str _)
  · cases stays
    exact canonical

theorem canonical_occupationEntry {fix : OccupationFix} {entry : Json}
    (dropped : fix.entry = some entry) : entry.Canonical := by
  cases fix with
  | dropped fid reason =>
      cases dropped
      simp +decide [canonical_obj_iff]
  | kept => cases dropped
  | rewritten fid value => cases dropped

/-- The facts that are left, and the entries of the ones that go. -/
theorem fixOccupations_eq_some {knownFacts : Option PyStr} {turn turn' : Dict}
    {changes : List OccupationFix} (run : fixOccupations knownFacts turn = some (some (turn', changes))) :
    ∃ facts kept, turn.get (py "facts") = .arr facts ∧
      kept = (facts.zip (facts.map (occupationFix (knownOccupations knownFacts)))).filterMap
        (fun entry => entry.2.fact entry.1) ∧
      ((facts.map (occupationFix (knownOccupations knownFacts))).filterMap OccupationFix.entry = [] ∧
          turn' = turn.set (py "facts") (.arr kept) ∨
        appendTo (turn.set (py "facts") (.arr kept)) "facts_dropped"
          ((facts.map (occupationFix (knownOccupations knownFacts))).filterMap OccupationFix.entry) =
            some turn') := by
  rw [fixOccupations] at run
  split at run
  · next facts listed =>
    dsimp only at run
    split at run
    · cases run
    · refine ⟨facts, _, listed, rfl, ?_⟩
      split at run
      · next none_ =>
        cases run
        exact .inl ⟨List.isEmpty_iff.mp none_, rfl⟩
      · obtain ⟨marked, added, outcome⟩ := Option.bind_eq_some_iff.mp run
        cases outcome
        exact .inr added
  · cases run

theorem editsOnly_fixOccupations (knownFacts : Option PyStr) :
    (fixOccupations knownFacts).EditsOnly ["facts", "facts_dropped"] := by
  intro turn turn' changes run
  obtain ⟨facts, kept, listed, rfl, outcome⟩ := fixOccupations_eq_some run
  have fixed : Edits ["facts", "facts_dropped"] turn (turn.set (py "facts")
      (.arr ((facts.zip (facts.map (occupationFix (knownOccupations knownFacts)))).filterMap
        (fun entry => entry.2.fact entry.1)))) := by
    refine (Edits.refl _ turn).set (by simp) fun start => ?_
    rw [canonical_arr_iff]
    intro v member
    obtain ⟨⟨f, fix⟩, zipped, stays⟩ := List.mem_filterMap.mp member
    exact canonical_occupationFact
      (canonical_items start listed f (List.of_mem_zip zipped).1) stays
  rcases outcome with ⟨_, rfl⟩ | added
  · exact fixed
  · refine fixed.appendTo (by simp) (fun _ v member => ?_) added
    obtain ⟨fix, _, dropped⟩ := List.mem_filterMap.mp member
    exact canonical_occupationEntry dropped

theorem canonical_confidence : (Json.float (py "0.9")).Canonical := by
  have short : PyRuntime.floatText (py "0.9") = py "0.9" :=
    PyRuntime.floatText_short 48 57 rfl rfl
  have number : numberToken (py "0.9") = some true := by decide
  rw [Json.Canonical, classify_numberToken number, if_pos rfl, short]

theorem canonical_filedFact (fid value cited : PyStr) : (filedFact fid value cited).Canonical := by
  simp +decide [filedFact, canonical_obj_iff, canonical_confidence]

/-- A fact is filed at the end of the list. -/
theorem fileFact_eq_some {fid value cited : PyStr} {turn turn' : Dict}
    (run : fileFact fid value cited turn = some turn') :
    ∃ facts, turn.get (py "facts") = .arr facts ∧ facts.any (isFor fid) = false ∧
      turn' = turn.set (py "facts") (.arr (facts ++ [filedFact fid value cited])) := by
  rw [fileFact] at run
  split at run
  · next facts listed =>
    split at run
    · cases run
    · next absent =>
      exact ⟨facts, listed, by simpa using absent, (Option.some.inj run).symm⟩
  · cases run

theorem edits_fileFact {fid value cited : PyStr} {turn turn' : Dict}
    (run : fileFact fid value cited turn = some turn') : Edits ["facts"] turn turn' := by
  obtain ⟨facts, listed, _, rfl⟩ := fileFact_eq_some run
  refine (Edits.refl _ turn).set (by simp) fun start => ?_
  refine canonical_append ?_ fun v member => ?_
  · rw [← listed]
    exact canonical_get start (py "facts")
  · rw [List.mem_singleton.mp member]
    exact canonical_filedFact fid value cited

theorem fileProbationNeverHad_eq_some {agenda userContent : Option PyStr} {turn turn' : Dict}
    {fid : PyStr} (run : fileProbationNeverHad agenda userContent turn = some (some (turn', fid))) :
    fid = probationField ∧ ∃ cited, neverHadWords agenda (orEmpty userContent) = some cited ∧
      fileFact probationField [] cited turn = some turn' := by
  obtain ⟨cited, words, rest⟩ := Option.bind_eq_some_iff.mp (Option.some.inj run)
  obtain ⟨filed, added, outcome⟩ := Option.bind_eq_some_iff.mp rest
  cases outcome
  exact ⟨rfl, cited, words, added⟩

theorem editsOnly_fileProbationNeverHad (agenda userContent : Option PyStr) :
    (fileProbationNeverHad agenda userContent).EditsOnly ["facts"] := by
  intro turn turn' fid run
  obtain ⟨_, cited, _, filed⟩ := fileProbationNeverHad_eq_some run
  exact edits_fileFact filed

theorem closeTripsOnStatedCount_eq_some {userContent : Option PyStr} {turn turn' : Dict}
    {info : PyStr × Nat} (run : closeTripsOnStatedCount userContent turn = some (some (turn', info))) :
    ∃ word count facts, info = (tripGate (count + 1), count) ∧
      statedTripCount (orEmpty userContent) = some (word, count) ∧
      turn.get (py "facts") = .arr facts ∧ count ∈ tripRows facts ∧
      fileFact (tripGate (count + 1)) (py "no") (countCitation (orEmpty userContent) word) turn =
        some turn' := by
  obtain ⟨⟨word, count⟩, stated, rest⟩ := Option.bind_eq_some_iff.mp (Option.some.inj run)
  dsimp only at rest
  split at rest
  · next facts listed =>
    split at rest
    · cases rest
    · next rows =>
      obtain ⟨filed, added, outcome⟩ := Option.bind_eq_some_iff.mp rest
      cases outcome
      exact ⟨word, count, facts, rfl, stated, listed, not_not.mp rows, added⟩
  · cases rest

theorem editsOnly_closeTripsOnStatedCount (userContent : Option PyStr) :
    (closeTripsOnStatedCount userContent).EditsOnly ["facts"] := by
  intro turn turn' info run
  obtain ⟨word, count, facts, _, _, _, _, filed⟩ := closeTripsOnStatedCount_eq_some run
  exact edits_fileFact filed

/-! ### The evidence floor -/

theorem dropFactsWithoutCurrentEvidence_eq_some {input : EvidenceInput} {turn turn' : Dict}
    {dropped : List Json}
    (run : dropFactsWithoutCurrentEvidence input turn = some (some (turn', dropped))) :
    ∃ facts verdicts kept, turn.get (py "facts") = .arr facts ∧
      facts.mapM (unsupportedOf input) = some verdicts ∧
      dropped = (verdicts.filterMap id).map Prod.fst ∧ dropped ≠ [] ∧
      kept = (turn.set (py "facts") (.arr (keptOf facts verdicts))).set (py "facts_dropped")
        (.arr dropped) ∧
      (turn' = kept ∨ turn' = kept.set (py "facts_pending_support")
        (.arr ((verdicts.filterMap id).filterMap Prod.snd))) := by
  rw [dropFactsWithoutCurrentEvidence] at run
  split at run
  · next facts listed =>
    obtain ⟨verdicts, judged, rest⟩ := Option.bind_eq_some_iff.mp run
    dsimp only at rest
    split at rest
    · cases rest
    · next some_ =>
      cases rest
      refine ⟨facts, verdicts, _, listed, judged, rfl, ?_, rfl, ?_⟩
      · rintro empty
        exact some_ (List.isEmpty_iff.mpr empty)
      · split
        · exact .inl rfl
        · exact .inr rfl
  · cases run

theorem canonical_unsupported {input : EvidenceInput} {f entry : Json} {pending : Option Json}
    (canonical : f.Canonical) (run : unsupportedOf input f = some (some (entry, pending))) :
    entry.Canonical ∧ ∀ p, pending = some p → p.Canonical := by
  obtain ⟨evidence, _, outcome⟩ := Option.map_eq_some_iff.mp run
  split at outcome
  · cases outcome
  · next utterance pendingLine =>
    simp only [Option.some.injEq, Prod.mk.injEq] at outcome
    obtain ⟨rfl, waits⟩ := outcome
    constructor
    · rw [unsupportedEntry]
      split <;> simp +decide [canonical_obj_iff, canonical_field canonical]
    · rintro p rfl
      split at waits
      · cases waits
        exact canonical_set canonical (py "_cited_line") (canonical_str _)
      · cases waits

theorem editsOnly_dropFactsWithoutCurrentEvidence (input : EvidenceInput) :
    (dropFactsWithoutCurrentEvidence input).EditsOnly
      ["facts", "facts_dropped", "facts_pending_support"] := by
  intro turn turn' dropped run
  obtain ⟨facts, verdicts, kept, listed, judged, rfl, _, rfl, outcome⟩ :=
    dropFactsWithoutCurrentEvidence_eq_some run
  have judgedCanonical : (Json.obj turn).Canonical → ∀ entry pending,
      (entry, pending) ∈ verdicts.filterMap id →
        entry.Canonical ∧ ∀ p, pending = some p → p.Canonical := by
    intro start entry pending member
    obtain ⟨verdict, from_, same⟩ := List.mem_filterMap.mp member
    obtain ⟨f, filed, found⟩ := mem_of_mapM judged from_
    rw [show verdict = some (entry, pending) from same] at found
    exact canonical_unsupported (canonical_items start listed f filed) found
  have marked : Edits ["facts", "facts_dropped", "facts_pending_support"] turn
      ((turn.set (py "facts") (.arr (keptOf facts verdicts))).set (py "facts_dropped")
        (.arr ((verdicts.filterMap id).map Prod.fst))) := by
    refine ((Edits.refl _ turn).set (by simp) fun start =>
      canonical_keptOf (canonical_items start listed) verdicts).set (by simp) fun start => ?_
    rw [canonical_arr_iff]
    intro v member
    obtain ⟨⟨entry, pending⟩, from_, rfl⟩ := List.mem_map.mp member
    exact (judgedCanonical start entry pending from_).1
  rcases outcome with rfl | rfl
  · exact marked
  · refine marked.set (by simp) fun start => ?_
    rw [canonical_arr_iff]
    intro v member
    obtain ⟨⟨entry, pending⟩, from_, rfl⟩ := List.mem_filterMap.mp member
    exact (judgedCanonical start entry _ from_).2 v rfl

end

end GhostPour.N400
