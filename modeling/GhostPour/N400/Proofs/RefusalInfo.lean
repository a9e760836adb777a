/-
Module: GhostPour.N400.Proofs.RefusalInfo
Layer: Proofs
Purpose: What the checks of a turn return about a refused response can be written on it: it is
  canonical JSON, taken from the response that was read or from texts.
Trusted boundary: none
Main exports: canonical_checkpointIsRefused, canonical_offersImpossibleOathModification,
  canonical_closesInWords, canonical_dateInversions
-/
import GhostPour.Library.Dicts
import GhostPour.N400.Proofs.TurnText
import GhostPour.N400.Refusals

namespace GhostPour.N400

section

variable [PyRuntime]

/-! ### What the checks return is JSON that can be written -/

theorem canonical_claimedPart {turn : Dict} (canonical : (Json.obj turn).Canonical) {part : Json}
    {number : Int} (claimed : claimedPart turn = some (part, number)) : part.Canonical := by
  rw [claimedPart] at claimed
  split at claimed
  · next cp checkpoint =>
    obtain ⟨n, _, pair⟩ := Option.map_eq_some_iff.mp claimed
    cases pair
    have object : (Json.obj cp).Canonical := by
      rw [← checkpoint]
      exact canonical_get canonical (py "section_checkpoint")
    exact canonical_get object (py "part")
  · cases claimed

/-- An object of four members under the keys of a checkpoint refusal. -/
theorem canonical_checkpointInfo {part listed : Json} {key : String} {code reason : PyStr}
    (first : part.Canonical) (second : listed.Canonical)
    (distinct : [py "part", py key, py "code", py "reason"].Nodup) :
    (Json.obj [(py "part", part), (py key, listed), (py "code", .str code),
      (py "reason", .str reason)]).Canonical := by
  rw [canonical_obj_iff]
  refine ⟨distinct, fun m member => ?_⟩
  simp only [List.mem_cons, List.not_mem_nil, or_false] at member
  rcases member with rfl | rfl | rfl | rfl
  · exact first
  · exact second
  · exact canonical_str code
  · exact canonical_str reason

theorem canonical_checkpointContradictsAgenda {text : PyStr} {agenda : Option PyStr} {info : Json}
    (refused : checkpointContradictsAgenda text agenda = some (some info)) : info.Canonical := by
  rw [checkpointContradictsAgenda] at refused
  cases read : turnOf text with
  | none => simp [read] at refused
  | some turn =>
      cases claimed : claimedPart turn with
      | none => simp [read, claimed] at refused
      | some claim =>
          obtain ⟨part, number⟩ := claim
          simp only [read, claimed, Option.bind_eq_bind, Option.bind_eq_some_iff] at refused
          obtain ⟨settled, _, moot, _, outcome⟩ := refused
          split at outcome
          · cases outcome
          · cases outcome
            exact canonical_checkpointInfo (canonical_claimedPart (canonical_turnOf read) claimed)
              (canonical_strs _) (by decide)

theorem canonical_checkpointReadsBackNothing {text : PyStr} {knownFacts : Option PyStr}
    {info : Json} (refused : checkpointReadsBackNothing text knownFacts = some (some info)) :
    info.Canonical := by
  rw [checkpointReadsBackNothing] at refused
  split at refused
  · cases refused
  cases read : turnOf text with
  | none => simp [read] at refused
  | some turn =>
      cases claimed : claimedPart turn with
      | none => simp [read, claimed] at refused
      | some claim =>
          obtain ⟨part, number⟩ := claim
          simp only [read, claimed, Option.bind_eq_bind, Option.bind_eq_some_iff] at refused
          obtain ⟨settled, _, outcome⟩ := refused
          split at outcome
          · cases outcome
          · cases outcome
            refine canonical_checkpointInfo
              (canonical_claimedPart (canonical_turnOf read) claimed) ?_ (by decide)
            rw [canonical_arr_iff]
            intro v member
            obtain ⟨n, _, rfl⟩ := List.mem_map.mp member
            exact canonical_int n

theorem canonical_checkpointIsRefused {text : PyStr} {agenda knownFacts : Option PyStr}
    {info : Json} (refused : checkpointIsRefused text agenda knownFacts = some (some info)) :
    info.Canonical := by
  rw [checkpointIsRefused, Option.bind_eq_bind, Option.bind_eq_some_iff] at refused
  obtain ⟨outcome, agendaSays, rest⟩ := refused
  cases outcome with
  | some found =>
      cases rest
      exact canonical_checkpointContradictsAgenda agendaSays
  | none => exact canonical_checkpointReadsBackNothing rest

theorem canonical_offersImpossibleOathModification {text : PyStr} {info : Json}
    (refused : offersImpossibleOathModification text = some info) : info.Canonical := by
  rw [offersImpossibleOathModification] at refused
  split at refused
  · obtain ⟨spoken, _, inReply⟩ := List.exists_of_findSome?_eq_some refused
    obtain ⟨sentence, _, inSentence⟩ := List.exists_of_findSome?_eq_some inReply
    obtain ⟨rule, _, byRule⟩ := List.exists_of_findSome?_eq_some inSentence
    obtain ⟨m, _, rfl⟩ := Option.map_eq_some_iff.mp byRule
    rw [offerInfo, canonical_obj_iff]
    refine ⟨by simp only [List.map_cons, List.map_nil]; decide, fun member found => ?_⟩
    simp only [List.mem_cons, List.not_mem_nil, or_false] at found
    rcases found with rfl | rfl | rfl | rfl <;> exact canonical_str _
  · cases refused

theorem canonical_closesInWords {text : PyStr} {agenda : Option PyStr} {info : Json}
    (refused : closesInWordsWhileAgendaOpen text agenda = some info) : info.Canonical := by
  rw [closesInWordsWhileAgendaOpen] at refused
  split at refused
  · cases refused
  split at refused
  · obtain ⟨spoken, _, inReply⟩ := List.exists_of_findSome?_eq_some refused
    obtain ⟨⟨locale, pattern⟩, _, found⟩ := List.exists_of_findSome?_eq_some inReply
    obtain ⟨m, _, rfl⟩ := Option.map_eq_some_iff.mp found
    rw [closingInfo, canonical_obj_iff]
    refine ⟨by simp only [List.map_cons, List.map_nil]; decide, fun member listed => ?_⟩
    simp only [List.mem_cons, List.not_mem_nil, or_false] at listed
    rcases listed with rfl | rfl | rfl | rfl
    · exact canonical_str _
    · exact canonical_str _
    · exact canonical_strs _
    · exact canonical_str _
  · cases refused

/-! ### Dated rows -/

theorem canonical_noteDate {out : Assoc Json} {f : Json} (kept : ∀ m ∈ out, m.2.Canonical)
    (canonical : f.Canonical) : ∀ m ∈ noteDate out f, m.2.Canonical := by
  rw [noteDate]
  split
  · split
    · rintro ⟨k, w⟩ member
      rcases Assoc.mem_set member with old | rfl
      · exact kept _ old
      · exact canonical_field canonical "value"
    · exact kept
  · exact kept

theorem canonical_mintedDates {facts : List Json} (canonical : ∀ f ∈ facts, f.Canonical) :
    ∀ m ∈ mintedDates facts, m.2.Canonical := by
  suffices ∀ out : Assoc Json, (∀ m ∈ out, m.2.Canonical) →
      ∀ m ∈ facts.foldl noteDate out, m.2.Canonical from this [] (fun _ member => nomatch member)
  induction facts with
  | nil => exact fun out kept => kept
  | cons f facts ih =>
      intro out kept
      exact ih (fun g member => canonical g (by simp [member])) _
        (canonical_noteDate kept (canonical f (by simp)))

theorem canonical_otherSide {minted : Assoc Json} {known : Assoc PyStr} {other source : PyStr}
    {value : Json} (kept : ∀ m ∈ minted, m.2.Canonical)
    (found : otherSide minted known other = some (value, source)) : value.Canonical := by
  rw [otherSide] at found
  split at found
  · next here =>
    cases found
    exact kept _ (Assoc.mem_of_get here)
  · obtain ⟨known, _, pair⟩ := Option.map_eq_some_iff.mp found
    cases pair
    exact canonical_str known

theorem canonical_entry {inversion : Inversion} (value : inversion.value.Canonical)
    (other : inversion.otherValue.Canonical) : inversion.entry.Canonical := by
  rw [Inversion.entry, canonical_obj_iff]
  refine ⟨by simp only [List.map_cons, List.map_nil]; decide, fun entry listed => ?_⟩
  simp only [List.mem_cons, List.not_mem_nil, or_false] at listed
  rcases listed with rfl | rfl | rfl | rfl | rfl | rfl
  · exact canonical_str _
  · exact value
  · exact canonical_str _
  · exact other
  · exact canonical_str _
  · exact canonical_str _

theorem inversionOf_values {minted : Assoc Json} {known : Assoc PyStr} {fid : PyStr} {value : Json}
    {inversion : Inversion} (found : inversionOf minted known fid value = some inversion) :
    inversion.value = value ∧ ∃ source,
      otherSide minted known inversion.otherFieldId = some (inversion.otherValue, source) := by
  obtain ⟨m, _, inRow⟩ := Option.bind_eq_some_iff.mp found
  obtain ⟨⟨otherValue, source⟩, other, outcome⟩ := Option.bind_eq_some_iff.mp inRow
  dsimp only at outcome
  by_cases inverted : (if (groupText m 2 == py "from") = true then certainlyInverted value otherValue
      else certainlyInverted otherValue value) = true
  · rw [if_pos inverted] at outcome
    cases outcome
    exact ⟨rfl, source, other⟩
  · rw [if_neg inverted] at outcome
    cases outcome

theorem canonical_dateInversions {text : PyStr} {knownFacts : Option PyStr} {inversion : Inversion}
    (found : inversion ∈ dateInversions text knownFacts) : inversion.entry.Canonical := by
  rw [dateInversions] at found
  split at found
  · next turn read =>
    split at found
    · next facts listed =>
      obtain ⟨⟨fid, value⟩, member, rest⟩ := List.mem_filterMap.mp found
      have each : ∀ f ∈ facts, f.Canonical := by
        rw [← canonical_arr_iff, ← listed]
        exact canonical_get (canonical_turnOf read) (py "facts")
      have minted := canonical_mintedDates each
      obtain ⟨same, source, other⟩ := inversionOf_values rest
      apply canonical_entry
      · rw [same]
        exact minted _ member
      · exact canonical_otherSide minted other
    · cases found
  · cases found

end

end GhostPour.N400
