/-
Module: GhostPour.N400.Proofs.CarriedFacts
Layer: Proofs
Purpose: When putting back the facts of the floor keeps the books: each fact that was set aside is filed
  once and has no drop record, or is not filed and has its own. The facts are appended one at a time and
  the records filtered by field afterwards, so two facts for one field, and an exception in between,
  leave the two lists apart.
Trusted boundary: none
Main exports: IsRecordOf, Settled, KeepsBooks, confirmedFrom, ConfirmedSettle, restore_keeps_books_iff
-/
import GhostPour.Library.Pieces
import GhostPour.Library.PyEquality
import GhostPour.N400.EvidenceSupport
import GhostPour.N400.Proofs.GuardRuns

namespace GhostPour.N400

open Json (sameKey)

section

variable [PyRuntime]

/-! ### The books -/

/-- A drop record of a pending fact. -/
def IsRecordOf (f d : Json) : Prop :=
  isDict f = true ∧ isDict d = true ∧ (d.field "pending_support").truthy = true ∧
    d.field "field_id" = f.field "field_id"

/-- The pending facts are those that are filed, with no record left that is not of another one, and
those that are not, each with its own record. -/
def Settled (pending facts records : List Json) : Prop :=
  ∃ filed left own rest, pending.Perm (filed ++ left) ∧ OwnRecords IsRecordOf left records own rest ∧
    (∀ f ∈ filed, withoutCitedLine f ∈ facts ∧ ∀ d ∈ rest, ¬IsRecordOf f d) ∧
    ∀ f ∈ left, withoutCitedLine f ∉ facts

omit [PyRuntime] in
/-- No field has two facts. -/
def Single (facts : List Json) : Prop :=
  facts.Pairwise fun g h => g.field "field_id" = .null ∨ g.field "field_id" ≠ h.field "field_id"

/-- No fact of the response is for a field that is pending. -/
def Fresh (pending facts : List Json) : Prop :=
  ∀ g ∈ facts, isDict g = true → ∀ f ∈ pending, g.field "field_id" ≠ f.field "field_id"

/-- Whether an entry is for a field. -/
def isEntryFor (fid : PyStr) (v : Json) : Bool :=
  match v.field "field_id" with
  | .str s => s == fid
  | _ => false

omit [PyRuntime] in
theorem isEntryFor_iff {fid : PyStr} {v : Json} : isEntryFor fid v = true ↔ v.field "field_id" = .str fid := by
  rw [isEntryFor]
  split
  · next s same => rw [same, beq_iff_eq, Json.str.injEq]
  · next other => exact iff_of_false Bool.false_ne_true (other fid)

/-- Whether an entry is a record of a pending fact for a field. -/
def isPendingRecord (fid : PyStr) (d : Json) : Bool :=
  isDict d && (d.field "pending_support").truthy && isEntryFor fid d

theorem isPendingRecord_agrees (fid : PyStr) (f d : Json) (record : IsRecordOf f d) :
    isEntryFor fid f = isPendingRecord fid d := by
  rw [isPendingRecord, record.2.1, record.2.2.1, isEntryFor, isEntryFor, record.2.2.2]
  rfl

theorem isRecordOf_of_isPendingRecord {fid : PyStr} {f d : Json} (dict : isDict f = true)
    (named : f.field "field_id" = .str fid) (record : isPendingRecord fid d = true) :
    IsRecordOf f d := by
  rw [isPendingRecord, Bool.and_eq_true, Bool.and_eq_true, isEntryFor_iff] at record
  exact ⟨dict, record.1.1, record.1.2, record.2.trans named.symm⟩

/-! ### The fact without its line -/

omit [PyRuntime] in
theorem isDict_withoutCitedLine (f : Json) : isDict (withoutCitedLine f) = isDict f := by
  cases f <;> rfl

omit [PyRuntime] in
theorem get_filter_of_ne {d : Dict} {key k : PyStr} (other : key ≠ k) :
    Dict.get (d.filter fun m => m.1 ≠ k) key = d.get key := by
  have deleted := Dict.get_del d k key
  rw [if_neg (Ne.symm other)] at deleted
  exact deleted

omit [PyRuntime] in
theorem fieldId_withoutCitedLine (f : Json) :
    (withoutCitedLine f).field "field_id" = f.field "field_id" := by
  cases f with
  | obj members => exact get_filter_of_ne (by decide)
  | _ => rfl

section

variable {pending facts records confirmed : List Json}

omit [PyRuntime] in
/-- A pending fact is not among the facts of the response. -/
theorem not_filed_of_fresh (fresh : Fresh pending facts) {f : Json} (waits : f ∈ pending)
    (dict : isDict f = true) : withoutCitedLine f ∉ facts := by
  intro filed
  refine fresh _ filed ?_ f waits (fieldId_withoutCitedLine f)
  rw [isDict_withoutCitedLine]
  exact dict

/-- Nothing is put back: the books are as they were. -/
theorem settled_of_none {own rest : List Json} (owned : OwnRecords IsRecordOf pending records own rest)
    (fresh : Fresh pending facts) : Settled pending facts records := by
  refine ⟨[], pending, own, rest, List.Perm.refl _, owned, ?_, ?_⟩
  · exact fun f member => nomatch member
  · intro f waits
    obtain ⟨d, _, record⟩ := owned.exists_record waits
    exact not_filed_of_fresh fresh waits record.1

/-- A fact that is put back while the records stay has one record too many. -/
theorem not_settled_of_records_kept {own rest : List Json}
    (owned : OwnRecords IsRecordOf pending records own rest) {f : Json} {fid : PyStr}
    (waits : f ∈ pending) (named : f.field "field_id" = .str fid)
    (filed : withoutCitedLine f ∈ facts) : ¬Settled pending facts records := by
  rintro ⟨filed_, left, own', rest', split, owned', settled, absent⟩
  have agrees := isPendingRecord_agrees fid
  obtain ⟨d, _, record⟩ := owned.exists_record waits
  have here : f ∈ filed_ := by
    rcases List.mem_append.mp (split.mem_iff.mp waits) with here | there
    · exact here
    · exact absurd filed (absent f there)
  have some_ : 0 < filed_.countP (isEntryFor fid) :=
    List.countP_pos_iff.mpr ⟨f, here, isEntryFor_iff.mpr named⟩
  have none_ : rest'.countP (isPendingRecord fid) = 0 := by
    rw [List.countP_eq_zero]
    exact fun d' member found =>
      (settled f here).2 d' member (isRecordOf_of_isPendingRecord record.1 named found)
  have before := owned.countP agrees
  have after := owned'.countP agrees
  rw [split.countP_eq, List.countP_append] at before
  omega

/-- Whether the field of an entry is that of a fact that is put back. -/
def isBack (confirmed : List Json) (v : Json) : Bool :=
  (confirmed.map (Json.field · "field_id")).any (sameKey (v.field "field_id"))

/-- The record of a fact that is put back. -/
def goesBack (confirmed : List Json) (d : Json) : Bool :=
  (d.field "pending_support").truthy && isBack confirmed d

theorem isBack_iff (named : ∀ f ∈ confirmed, ∃ fid, f.field "field_id" = .str fid) {v : Json} :
    isBack confirmed v = true ↔ ∃ f ∈ confirmed, v.field "field_id" = f.field "field_id" := by
  rw [isBack, List.any_eq_true]
  constructor
  · rintro ⟨k, listed, same⟩
    obtain ⟨f, member, rfl⟩ := List.mem_map.mp listed
    obtain ⟨fid, name⟩ := named f member
    rw [name, Json.sameKey_symm, Json.sameKey_str] at same
    exact ⟨f, member, by rw [same, name]⟩
  · rintro ⟨f, member, same⟩
    obtain ⟨fid, name⟩ := named f member
    refine ⟨_, List.mem_map_of_mem member, ?_⟩
    rw [same, name]
    exact Json.sameKey_str.mpr rfl

/-- Everything that could be put back is: a field of it has no other fact waiting, but copies. -/
theorem settled_of_all_back {own rest : List Json}
    (owned : OwnRecords IsRecordOf pending records own rest) (fresh : Fresh pending facts)
    (named : ∀ f ∈ confirmed, ∃ fid, f.field "field_id" = .str fid)
    (alone : ∀ f ∈ confirmed, ∀ g ∈ pending, g.field "field_id" = f.field "field_id" →
      withoutCitedLine g = withoutCitedLine f) :
    Settled pending (facts ++ confirmed.map withoutCitedLine)
      (records.filter fun d => !goesBack confirmed d) := by
  have agrees : ∀ f d, IsRecordOf f d → (!isBack confirmed f) = !goesBack confirmed d := by
    intro f d record
    rw [goesBack, record.2.2.1, Bool.true_and, isBack, isBack, record.2.2.2]
  refine ⟨pending.filter (isBack confirmed), pending.filter fun f => !isBack confirmed f, _, _,
    (List.filter_append_perm _ _).symm, owned.filter agrees, ?_, ?_⟩
  · intro f member
    obtain ⟨waits, back⟩ := List.mem_filter.mp member
    obtain ⟨c, listed, same⟩ := (isBack_iff named).mp back
    constructor
    · rw [alone c listed f waits same]
      exact List.mem_append_right _ (List.mem_map_of_mem listed)
    · intro d stays record
      obtain ⟨_, stays⟩ := List.mem_filter.mp stays
      rw [← agrees f d record, back] at stays
      cases stays
  · intro f member filed
    obtain ⟨waits, back⟩ := List.mem_filter.mp member
    obtain ⟨d, _, record⟩ := owned.exists_record waits
    rcases List.mem_append.mp filed with before | new
    · exact not_filed_of_fresh fresh waits record.1 before
    · obtain ⟨c, listed, same⟩ := List.mem_map.mp new
      have field := congrArg (Json.field · "field_id") same
      rw [fieldId_withoutCitedLine, fieldId_withoutCitedLine] at field
      rw [(isBack_iff named).mpr ⟨c, listed, field.symm⟩] at back
      cases back

/-- A fact that waits for a field that is back has lost its record, so it is back itself. -/
theorem filed_of_settled {own rest : List Json}
    (owned : OwnRecords IsRecordOf pending records own rest) (fresh : Fresh pending facts)
    (named : ∀ f ∈ confirmed, ∃ fid, f.field "field_id" = .str fid)
    (settled : Settled pending (facts ++ confirmed.map withoutCitedLine)
      (records.filter fun d => !goesBack confirmed d)) {c : Json} (listed : c ∈ confirmed) {g : Json}
    (waits : g ∈ pending) (same : g.field "field_id" = c.field "field_id") :
    ∃ c' ∈ confirmed, withoutCitedLine c' = withoutCitedLine g := by
  obtain ⟨filed, left, own', rest', split, owned', settled, _⟩ := settled
  obtain ⟨d, _, record⟩ := owned.exists_record waits
  rcases List.mem_append.mp (split.mem_iff.mp waits) with here | there
  · rcases List.mem_append.mp (settled g here).1 with before | new
    · exact absurd before (not_filed_of_fresh fresh waits record.1)
    · exact List.mem_map.mp new
  · obtain ⟨d', kept, record'⟩ := owned'.exists_record there
    obtain ⟨_, stays⟩ := List.mem_filter.mp kept
    have back : isBack confirmed d' = true :=
      (isBack_iff named).mpr ⟨c, listed, record'.2.2.2.trans same⟩
    rw [goesBack, record'.2.2.1, back] at stays
    cases stays

omit [PyRuntime] in
/-- No field has two facts after some are put back exactly when none had before and none is put back
twice. -/
theorem single_append_iff (fresh : Fresh pending facts) (waits : ∀ f ∈ confirmed, f ∈ pending)
    (named : ∀ f ∈ confirmed, ∃ fid, f.field "field_id" = .str fid) :
    Single (facts ++ confirmed.map withoutCitedLine) ↔
      Single facts ∧ (confirmed.map (Json.field · "field_id")).Nodup := by
  have across : ∀ g ∈ facts, ∀ h ∈ confirmed.map withoutCitedLine,
      g.field "field_id" = .null ∨ g.field "field_id" ≠ h.field "field_id" := by
    intro g filed h new
    obtain ⟨f, listed, rfl⟩ := List.mem_map.mp new
    rw [fieldId_withoutCitedLine]
    cases g with
    | obj members => exact .inr (fresh _ filed rfl f (waits f listed))
    | _ => exact .inl rfl
  have distinct : Single (confirmed.map withoutCitedLine) ↔
      (confirmed.map (Json.field · "field_id")).Nodup := by
    rw [Single, List.Nodup, List.pairwise_map, List.pairwise_map]
    refine List.Pairwise.iff_of_mem fun {f g} first _ => ?_
    obtain ⟨fid, name⟩ := named f first
    rw [fieldId_withoutCitedLine, fieldId_withoutCitedLine, name]
    simp
  rw [← distinct, Single, List.pairwise_append]
  exact ⟨fun all => ⟨all.1, all.2.1⟩, fun both => ⟨both.1, both.2, across⟩⟩

end

/-! ### What may go back -/

omit [PyRuntime] in
/-- A field id that is no text is on no node and has no options. -/
theorem options_of_no_text {fields catalogue options : Assoc (List PyStr)} {fid : Json}
    (other : ∀ s, fid ≠ .str s) {node : Option PyStr} {declared : List PyStr}
    (place : nodeOfField fields fid = some node)
    (known : optionsOf catalogue options fid node = some declared) : declared = [] := by
  have nowhere : node = none := by
    rw [nodeOfField.eq_def] at place
    split at place
    · exact (Option.some.inj place).symm
    · split at place
      · next s => exact absurd rfl (other s)
      · split at place
        · exact (Option.some.inj place).symm
        · cases place
  rw [optionsOf.eq_def, nowhere] at known
  split at known
  · exact (Option.some.inj known).symm
  · split at known
    · next s => exact absurd rfl (other s)
    · split at known
      · exact (Option.some.inj known).symm
      · cases known

/-- A candidate is an object with a text for its field, which the response does not defer. -/
theorem candidate_eq_true {agenda : Option PyStr} {choiceFields : Json} {deferred : List Json}
    {f : Json} (judged : isCandidate agenda choiceFields deferred f = some true) :
    isDict f = true ∧ ∃ fid, f.field "field_id" = .str fid ∧
      deferred.any (sameKey (.str fid)) = false := by
  cases f with
  | obj members =>
      refine ⟨rfl, ?_⟩
      change ∃ fid, Dict.get members (py "field_id") = .str fid ∧ _
      rw [isCandidate] at judged
      dsimp only at judged
      obtain ⟨node, place, judged⟩ := Option.bind_eq_some_iff.mp judged
      obtain ⟨options, known, judged⟩ := Option.bind_eq_some_iff.mp judged
      split at judged
      · cases judged
      · next put =>
        rw [not_or, not_or] at put
        by_cases text : ∃ fid, Dict.get members (py "field_id") = .str fid
        · obtain ⟨fid, name⟩ := text
          rw [name] at put
          exact ⟨fid, name, by simpa using put.2.2⟩
        · exact absurd (options_of_no_text (not_exists.mp text) place known) put.1
  | _ => cases judged

theorem mem_candidatesOf {agenda : Option PyStr} {choiceFields pending : Json} {turn : Dict}
    {candidates : List Json} (run : candidatesOf agenda choiceFields turn pending = some candidates)
    {f : Json} (member : f ∈ candidates) :
    f ∈ itemsOf pending ∧ isDict f = true ∧ ∃ fid, f.field "field_id" = .str fid ∧
      ∀ d ∈ entriesOf (turn.get (py "deferred")), d.field "field_id" ≠ .str fid := by
  rw [candidatesOf, Option.bind_eq_bind] at run
  obtain ⟨deferred, known, run⟩ := Option.bind_eq_some_iff.mp run
  cases pending with
  | arr facts =>
      obtain ⟨verdicts, judged, outcome⟩ := Option.bind_eq_some_iff.mp run
      cases outcome
      have kept := filter_zip_of_mapM id judged
      rw [show (fun e : Json × Bool => id e.2) = Prod.snd from rfl] at kept
      rw [kept] at member
      obtain ⟨first, verdict⟩ := List.mem_filter.mp member
      obtain ⟨stays, here, yes⟩ := (Option.any_eq_true _ _).mp verdict
      rw [show stays = true from yes] at here
      obtain ⟨dict, fid, name, apart⟩ := candidate_eq_true here
      refine ⟨List.mem_of_mem_take first, dict, fid, name, fun d entry same => ?_⟩
      obtain ⟨items, iterated, ids⟩ := Option.bind_eq_some_iff.mp known
      rw [(fieldIdSet_eq_some ids).1, List.any_eq_false] at apart
      have listed : d ∈ items.filter isDict := by
        rw [entriesOf.eq_def] at entry
        split at entry
        · next all deferral =>
          rw [deferral, Json.iterateOrEmpty] at iterated
          split at iterated
          · cases iterated
            exact entry
          · next empty =>
            cases all with
            | nil => cases entry
            | cons _ _ => exact absurd rfl empty
        · cases entry
      exact apart _ (List.mem_map_of_mem listed) (by rw [same]; exact Json.sameKey_str.mpr rfl)
  | _ => cases run

variable [PyFloats]

/-- The candidates that the judge confirms, up to the first answer that cannot be read. -/
def confirmedFrom (answers : Json) : Nat → List Json → List Json
  | _, [] => []
  | i, f :: candidates =>
      match readAnswer answers i with
      | none => []
      | some none => confirmedFrom answers (i + 1) candidates
      | some (some _) => f :: confirmedFrom answers (i + 1) candidates

/-- Every answer can be read. -/
def allRead (answers : Json) : Nat → List Json → Bool
  | _, [] => true
  | i, _ :: candidates => (readAnswer answers i).isSome && allRead answers (i + 1) candidates

theorem confirmedFrom_sublist (answers : Json) (i : Nat) (candidates : List Json) :
    (confirmedFrom answers i candidates).Sublist candidates := by
  induction candidates generalizing i with
  | nil => exact List.Sublist.refl _
  | cons f candidates ih =>
      rw [confirmedFrom]
      split
      · exact List.nil_sublist _
      · exact (ih (i + 1)).cons f
      · exact (ih (i + 1)).cons_cons f

/-! ### What the loop leaves -/

/-- The facts of the response can be added to. -/
def Appendable (turn : Dict) : Prop :=
  turn.has (py "facts") = true → ∃ items, turn.get (py "facts") = .arr items

/-- The response with facts added. -/
def withFacts (turn : Dict) (added : List Json) : Dict :=
  if added = [] then turn
  else turn.set (py "facts") (.arr (itemsOf (turn.get (py "facts")) ++ added))

omit [PyRuntime] [PyFloats] in
theorem appendFact_eq {turn : Dict} (appendable : Appendable turn) (fact : Json) :
    appendFact turn fact = some (withFacts turn [fact]) := by
  rw [appendFact, withFacts, if_neg (List.cons_ne_nil fact [])]
  split
  · next there =>
    obtain ⟨items, listed⟩ := appendable there
    rw [listed]
    rfl
  · next absent =>
    rw [Dict.get_of_not_has (by simpa using absent)]
    rfl

omit [PyRuntime] [PyFloats] in
theorem appendFact_none {turn : Dict} (stuck : ¬Appendable turn) (fact : Json) :
    appendFact turn fact = none := by
  rw [Appendable, Classical.not_imp] at stuck
  rw [appendFact, if_pos stuck.1]
  split
  · next items listed => exact absurd ⟨items, listed⟩ stuck.2
  · rfl

omit [PyRuntime] [PyFloats] in
theorem facts_withFacts (turn : Dict) (added : List Json) :
    itemsOf ((withFacts turn added).get (py "facts")) =
      itemsOf (turn.get (py "facts")) ++ added := by
  rw [withFacts]
  split
  · next none_ => rw [none_, List.append_nil]
  · rw [Dict.get_set_self]
    rfl

omit [PyRuntime] [PyFloats] in
theorem appendable_withFacts {turn : Dict} (appendable : Appendable turn) (added : List Json) :
    Appendable (withFacts turn added) := by
  rw [withFacts]
  split
  · exact appendable
  · exact fun _ => ⟨_, Dict.get_set_self _ _ _⟩

omit [PyRuntime] [PyFloats] in
theorem withFacts_withFacts (turn : Dict) (first : Json) (rest : List Json) :
    withFacts (withFacts turn [first]) rest = withFacts turn (first :: rest) := by
  by_cases more : rest = []
  · rw [more, withFacts, if_pos rfl]
  · have items := facts_withFacts turn [first]
    have once : withFacts turn [first] = turn.set (py "facts")
        (.arr (itemsOf (turn.get (py "facts")) ++ [first])) := if_neg (List.cons_ne_nil first [])
    have all : withFacts turn (first :: rest) = turn.set (py "facts")
        (.arr (itemsOf (turn.get (py "facts")) ++ first :: rest)) := if_neg (List.cons_ne_nil first rest)
    rw [withFacts, if_neg more, items, once, all, Dict.set_set, List.append_assoc]
    rfl

/-- The loop appends what is confirmed, and notes it. -/
theorem restoreEach_eq (answers : Json) {candidates : List Json} :
    ∀ {i : Nat} {turn : Dict} {restored : List Json}, Appendable turn →
      ∃ entries : List Json, entries.map (Json.field · "field_id") =
          (confirmedFrom answers i candidates).map (Json.field · "field_id") ∧
        restoreEach answers i candidates (turn, restored) =
          ((withFacts turn ((confirmedFrom answers i candidates).map withoutCitedLine),
            restored ++ entries), allRead answers i candidates) := by
  induction candidates with
  | nil =>
      intro i turn restored _
      exact ⟨[], rfl, by rw [restoreEach, List.append_nil]; rfl⟩
  | cons f candidates ih =>
      intro i turn restored appendable
      rw [restoreEach, confirmedFrom, allRead]
      cases readAnswer answers i with
      | none => exact ⟨[], rfl, by rw [List.append_nil]; rfl⟩
      | some verdict =>
          cases verdict with
          | none => exact ih appendable
          | some confidence =>
              dsimp only
              rw [appendFact_eq appendable]
              obtain ⟨entries, ids, run⟩ := @ih (i + 1) _
                (restored ++ [restoredEntry f confidence])
                (appendable_withFacts appendable [withoutCitedLine f])
              refine ⟨restoredEntry f confidence :: entries, ?_, ?_⟩
              · rw [List.map_cons, List.map_cons, ids]
                rfl
              · dsimp only
                rw [run, withFacts_withFacts, List.append_assoc]
                rfl

/-- Where the facts cannot be added to, nothing is put back. -/
theorem restoreEach_of_stuck (answers : Json) {candidates : List Json} {i : Nat} {turn : Dict}
    {restored : List Json} (stuck : ¬Appendable turn) :
    (restoreEach answers i candidates (turn, restored)).1 = (turn, restored) := by
  induction candidates generalizing i with
  | nil => rfl
  | cons f candidates ih =>
      rw [restoreEach]
      cases readAnswer answers i with
      | none => rfl
      | some verdict =>
          cases verdict with
          | none => exact ih
          | some confidence =>
              dsimp only
              rw [appendFact_none stuck]

/-! ### What the filter leaves -/

/-- The filter can read a drop record. -/
def Readable (d : Json) : Prop :=
  isDict d = true ∧
    ((d.field "pending_support").truthy = true → (d.field "field_id").hashable = true)

omit [PyFloats] in
theorem recordStays_of_readable {confirmed : List Json} {d : Json} (readable : Readable d) :
    recordStays (confirmed.map (Json.field · "field_id")) d = some (!goesBack confirmed d) := by
  cases d with
  | obj members =>
      rw [recordStays, goesBack]
      change (if ((Json.obj members).field "pending_support").truthy = true then _ else _) = _
      split
      · next waits =>
        have hashes : (Dict.get members (py "field_id")).hashable = true := readable.2 waits
        rw [keyIn, if_pos hashes, waits, Bool.true_and]
        rfl
      · next other => simp [other]
  | _ => cases readable.1

omit [PyFloats] in
theorem readable_of_recordStays {back : List Json} {d : Json}
    (read : (recordStays back d).isSome = true) : Readable d := by
  cases d with
  | obj members =>
      refine ⟨rfl, fun waits => ?_⟩
      have waits : (Dict.get members (py "pending_support")).truthy = true := waits
      rw [recordStays, if_pos waits, keyIn] at read
      by_contra unhashable
      have unhashable : ¬(Dict.get members (py "field_id")).hashable = true := unhashable
      rw [if_neg unhashable] at read
      cases read
  | _ => cases read

omit [PyFloats] in
theorem keptRecords_of_readable {confirmed records : List Json}
    (readable : ∀ d ∈ records, Readable d) :
    keptRecords (confirmed.map (Json.field · "field_id")) records =
      some (records.filter fun d => !goesBack confirmed d) := by
  have some_ : (records.mapM (recordStays (confirmed.map (Json.field · "field_id")))).isSome = true :=
    mapM_isSome_iff.mpr fun d member => by
      rw [recordStays_of_readable (readable d member)]
      rfl
  obtain ⟨verdicts, judged⟩ := Option.isSome_iff_exists.mp some_
  have kept := filter_zip_of_mapM id judged
  rw [show (fun e : Json × Bool => id e.2) = Prod.snd from rfl] at kept
  rw [keptRecords, judged, Option.map_some, kept]
  refine congrArg some (List.filter_congr fun d member => ?_)
  rw [recordStays_of_readable (readable d member)]
  rfl

omit [PyFloats] in
theorem keptRecords_of_unreadable {back records : List Json}
    (unreadable : ¬∀ d ∈ records, Readable d) : keptRecords back records = none := by
  rw [keptRecords, Option.map_eq_none_iff, ← Option.not_isSome_iff_eq_none, mapM_isSome_iff]
  exact fun read => unreadable fun d member => readable_of_recordStays (read d member)

/-- The facts and the drop records of a response, whose pending facts are gone. -/
structure Remains (facts records : List Json) (after : Dict) : Prop where
  facts : itemsOf (after.get (py "facts")) = facts
  records : itemsOf (after.get (py "facts_dropped")) = records
  gone : after.has (py "facts_pending_support") = false

omit [PyRuntime] [PyFloats] in
theorem Remains.withFacts {facts records : List Json} {turn : Dict} (leaves : Remains facts records turn)
    (added : List Json) : Remains (facts ++ added) records (withFacts turn added) where
  facts := by rw [facts_withFacts, leaves.facts]
  records := by
    rw [N400.withFacts]
    split
    · exact leaves.records
    · rw [Dict.get_set_of_ne _ _ (by decide), leaves.records]
  gone := by
    rw [N400.withFacts]
    split
    · exact leaves.gone
    · rw [Bool.eq_false_iff, Ne, Dict.has_set, leaves.gone]
      decide

omit [PyFloats] in
theorem remains_noteRestored {facts records restored : List Json} {turn after : Dict}
    {confirmed : List Json} (leaves : Remains facts records turn)
    (listed : turn.get (py "facts_dropped") = .arr records)
    (ids : restored.map (Json.field · "field_id") = confirmed.map (Json.field · "field_id"))
    (readable : ∀ d ∈ records, Readable d) (run : noteRestored turn restored = some after) :
    Remains facts (records.filter fun d => !goesBack confirmed d) after := by
  rw [noteRestored, listed, ids, Option.bind_eq_bind, iterateOrEmpty_arr, Option.bind_some,
    keptRecords_of_readable readable] at run
  cases run
  have pending : ∀ (d : Dict) (v : Json), d.has (py "facts_pending_support") = false →
      (d.set (py "facts_restored_by_support") v).has (py "facts_pending_support") = false := by
    intro d v gone
    rw [Bool.eq_false_iff, Ne, Dict.has_set, gone]
    decide
  split
  · next none_ =>
    refine ⟨?_, ?_, pending _ _ ?_⟩
    · rw [Dict.get_set_of_ne _ _ (by decide), Dict.get_del, if_neg (by decide), leaves.facts]
    · rw [Dict.get_set_of_ne _ _ (by decide), Dict.get_del, if_pos rfl, none_]
      rfl
    · rw [Bool.eq_false_iff, Ne, Dict.has_del, leaves.gone]
      decide
  · refine ⟨?_, ?_, pending _ _ ?_⟩
    · rw [Dict.get_set_of_ne _ _ (by decide), Dict.get_set_of_ne _ _ (by decide), leaves.facts]
    · rw [Dict.get_set_of_ne _ _ (by decide), Dict.get_set_self]
      rfl
    · rw [Bool.eq_false_iff, Ne, Dict.has_set, leaves.gone]
      decide

omit [PyFloats] in
theorem noteRestored_isSome_iff {records restored : List Json} {turn : Dict}
    (listed : turn.get (py "facts_dropped") = .arr records) {confirmed : List Json}
    (ids : restored.map (Json.field · "field_id") = confirmed.map (Json.field · "field_id")) :
    (noteRestored turn restored).isSome = true ↔ ∀ d ∈ records, Readable d := by
  rw [noteRestored, listed, ids, Option.bind_eq_bind, iterateOrEmpty_arr, Option.bind_some]
  by_cases readable : ∀ d ∈ records, Readable d
  · rw [keptRecords_of_readable readable]
    exact iff_of_true rfl readable
  · rw [keptRecords_of_unreadable readable]
    exact iff_of_false Bool.false_ne_true readable

/-! ### What is left of the turn -/

section

variable (settings : JudgeSettings) (agenda : Option PyStr) (choiceFields : Json) (body : Option Json)

/-- The facts that the judge confirms. -/
def confirmedFacts (turn : Dict) (pending : Json) : List Json :=
  if settings.mode ≠ py "primary" ∨ settings.apiKey = [] ∨ pending.truthy = false then []
  else
    match candidatesOf agenda choiceFields turn pending, answersOf body with
    | some candidates, some answers => confirmedFrom answers 0 candidates
    | _, _ => []

/-- Every answer of the judge can be read. -/
def answersRead (turn : Dict) (pending : Json) : Bool :=
  match candidatesOf agenda choiceFields turn pending, answersOf body with
  | some candidates, some answers => allRead answers 0 candidates
  | _, _ => true

theorem restoreTurn_cases (turn : Dict) (pending : Json) :
    ((confirmedFacts settings agenda choiceFields body turn pending = [] ∨ ¬Appendable turn) ∧
      restoreTurn settings agenda choiceFields body turn pending = turn) ∨
    (confirmedFacts settings agenda choiceFields body turn pending ≠ [] ∧ Appendable turn ∧
      ∃ entries : List Json, entries.map (Json.field · "field_id") =
          (confirmedFacts settings agenda choiceFields body turn pending).map
            (Json.field · "field_id") ∧
        restoreTurn settings agenda choiceFields body turn pending =
          let turn' := withFacts turn
            ((confirmedFacts settings agenda choiceFields body turn pending).map withoutCitedLine)
          if answersRead agenda choiceFields body turn pending then
            (noteRestored turn' entries).getD turn'
          else turn') := by
  rw [restoreTurn, confirmedFacts, answersRead]
  split
  · exact .inl ⟨.inl rfl, rfl⟩
  · cases candidatesOf agenda choiceFields turn pending with
    | none => exact .inl ⟨.inl rfl, rfl⟩
    | some candidates =>
        cases answersOf body with
        | none => exact .inl ⟨.inl rfl, rfl⟩
        | some answers =>
            dsimp only
            by_cases appendable : Appendable turn
            · obtain ⟨entries, ids, run⟩ := @restoreEach_eq _ _ answers candidates 0 turn []
                appendable
              rw [run]
              dsimp only
              rw [List.nil_append]
              by_cases none_ : confirmedFrom answers 0 candidates = []
              · refine .inl ⟨.inl none_, ?_⟩
                rw [none_, List.map_nil, List.map_eq_nil_iff] at ids
                rw [if_pos (.inr ids), none_]
                rfl
              · refine .inr ⟨none_, appendable, entries, ids, ?_⟩
                have some_ : entries ≠ [] := by
                  rintro rfl
                  exact none_ (List.map_eq_nil_iff.mp ids.symm)
                by_cases read : allRead answers 0 candidates = true
                · rw [if_neg (by simp [read, some_]), if_pos read]
                · rw [if_pos (.inl (by simpa using read)), if_neg read]
            · have stuck := @restoreEach_of_stuck _ _ answers candidates 0 turn [] appendable
              refine .inl ⟨.inr appendable, ?_⟩
              rw [show restoreEach answers 0 candidates (turn, []) =
                ((turn, []), (restoreEach answers 0 candidates (turn, [])).2) from
                  Prod.ext stuck rfl]
              dsimp only
              rw [if_pos (.inr rfl)]

theorem mem_confirmedFacts {turn : Dict} {pending f : Json}
    (member : f ∈ confirmedFacts settings agenda choiceFields body turn pending) :
    f ∈ itemsOf pending ∧ isDict f = true ∧ ∃ fid, f.field "field_id" = .str fid ∧
      ∀ d ∈ entriesOf (turn.get (py "deferred")), d.field "field_id" ≠ .str fid := by
  rw [confirmedFacts] at member
  split at member
  · cases member
  · split at member
    · next candidates answers known _ =>
      exact mem_candidatesOf known ((confirmedFrom_sublist answers 0 candidates).subset member)
    · cases member

/-! ### What is left can be written -/

omit [PyFloats] in
theorem canonical_withoutCitedLine {f : Json} (canonical : f.Canonical) :
    (withoutCitedLine f).Canonical := by
  cases f with
  | obj members => exact canonical_del canonical (py "_cited_line")
  | _ => exact canonical

omit [PyFloats] in
theorem canonical_appendFact {turn turn' : Dict} {fact : Json} (canonical : (Json.obj turn).Canonical)
    (fact_ : fact.Canonical) (run : appendFact turn fact = some turn') :
    (Json.obj turn').Canonical := by
  have one : ∀ v ∈ [fact], v.Canonical := by
    intro v member
    rw [List.mem_singleton.mp member]
    exact fact_
  rw [appendFact] at run
  split at run
  · split at run
    · next facts listed =>
      cases run
      have each : (Json.arr facts).Canonical := by
        rw [← listed]
        exact canonical_get canonical (py "facts")
      exact canonical_set canonical (py "facts") (canonical_append each one)
    · cases run
  · cases run
    exact canonical_set canonical (py "facts") ((canonical_arr_iff _).mpr one)

theorem canonical_readAnswer {answers : Json} {i : Nat} {confidence : PyStr}
    (read : readAnswer answers i = some (some confidence)) : (Json.float confidence).Canonical := by
  rw [readAnswer.eq_def] at read
  split at read
  · split at read
    · split at read
      · split at read
        · obtain ⟨conf, _, verdict⟩ := Option.map_eq_some_iff.mp read
          split at verdict
          · next confident =>
            cases verdict
            exact PyFloats.round3_canonical _ _ confident
          · cases verdict
        · cases read
      · cases read
    · split at read <;> cases read
  · cases read

omit [PyFloats] in
theorem canonical_restoredEntry {f : Json} (canonical : f.Canonical) {confidence : PyStr}
    (rounded : (Json.float confidence).Canonical) : (restoredEntry f confidence).Canonical := by
  rw [restoredEntry, canonical_obj_iff]
  refine ⟨by simp only [List.map_cons, List.map_nil]; decide, fun m member => ?_⟩
  simp only [List.mem_cons, List.not_mem_nil, or_false] at member
  rcases member with rfl | rfl | rfl | rfl
  · exact canonical_field canonical "field_id"
  · exact canonical_field canonical "value"
  · exact rounded
  · exact canonical_str _

theorem canonical_restoreEach (answers : Json) {candidates : List Json}
    (each : ∀ f ∈ candidates, f.Canonical) :
    ∀ {i : Nat} {turn : Dict} {restored : List Json}, (Json.obj turn).Canonical →
      (∀ v ∈ restored, v.Canonical) →
      (Json.obj (restoreEach answers i candidates (turn, restored)).1.1).Canonical ∧
        ∀ v ∈ (restoreEach answers i candidates (turn, restored)).1.2, v.Canonical := by
  induction candidates with
  | nil => exact fun canonical entries => ⟨canonical, entries⟩
  | cons f candidates ih =>
      rw [List.forall_mem_cons] at each
      intro i turn restored canonical entries
      rw [restoreEach]
      cases read : readAnswer answers i with
      | none => exact ⟨canonical, entries⟩
      | some verdict =>
          cases verdict with
          | none => exact ih each.2 canonical entries
          | some confidence =>
              dsimp only
              cases appended : appendFact turn (withoutCitedLine f) with
              | none => exact ⟨canonical, entries⟩
              | some turn' =>
                  refine ih each.2
                    (canonical_appendFact canonical (canonical_withoutCitedLine each.1) appended) ?_
                  intro v member
                  rcases List.mem_append.mp member with before | new
                  · exact entries v before
                  · rw [List.mem_singleton.mp new]
                    exact canonical_restoredEntry each.1 (canonical_readAnswer read)

omit [PyFloats] in
theorem canonical_noteRestored {turn after : Dict} {restored : List Json}
    (canonical : (Json.obj turn).Canonical) (entries : ∀ v ∈ restored, v.Canonical)
    (run : noteRestored turn restored = some after) : (Json.obj after).Canonical := by
  rw [noteRestored] at run
  obtain ⟨records, iterated, run⟩ := Option.bind_eq_some_iff.mp run
  obtain ⟨kept, judged, run⟩ := Option.bind_eq_some_iff.mp run
  cases run
  apply canonical_set _ _ ((canonical_arr_iff _).mpr entries)
  split
  · exact canonical_del canonical (py "facts_dropped")
  · have each := canonical_iterateOrEmpty (canonical_get canonical (py "facts_dropped")) iterated
    obtain ⟨verdicts, _, rfl⟩ := Option.map_eq_some_iff.mp judged
    apply canonical_set canonical
    rw [canonical_arr_iff]
    intro v member
    obtain ⟨⟨d, stays⟩, listed, rfl⟩ := List.mem_map.mp member
    exact each d (List.of_mem_zip (List.mem_of_mem_filter listed)).1

theorem canonical_restoreTurn {turn : Dict} {pending : Json} (canonical : (Json.obj turn).Canonical)
    (waits : pending.Canonical) :
    (Json.obj (restoreTurn settings agenda choiceFields body turn pending)).Canonical := by
  rw [restoreTurn]
  split
  · exact canonical
  · split
    · next candidates answers known _ =>
      have each : ∀ f ∈ candidates, f.Canonical := by
        intro f member
        have listed := (mem_candidatesOf known member).1
        rw [itemsOf.eq_def] at listed
        split at listed
        · exact (canonical_arr_iff _).mp waits f listed
        · cases listed
      have both := @canonical_restoreEach _ _ answers candidates each 0 turn [] canonical
        (fun v member => nomatch member)
      dsimp only
      split
      · exact both.1
      · cases noted : noteRestored (restoreEach answers 0 candidates (turn, [])).1.1
            (restoreEach answers 0 candidates (turn, [])).1.2 with
        | none => exact both.1
        | some after => exact canonical_noteRestored both.1 both.2 noted
    · exact canonical

/-! ### The books after -/

omit [PyRuntime] [PyFloats] in
/-- The facts that wait. -/
def pendingFacts (turn : Dict) : List Json := itemsOf (turn.get (py "facts_pending_support"))

omit [PyRuntime] [PyFloats] in
/-- No fact carries the line it was cited from. -/
def Unmarked (facts : List Json) : Prop :=
  ∀ f ∈ facts, ∀ members, f = .obj members → Dict.has members (py "_cited_line") = false

omit [PyFloats] in
/-- The books are kept between a response and what is left of it. -/
structure KeepsBooks (before after : Dict) : Prop where
  gone : after.has (py "facts_pending_support") = false
  unmarked : Unmarked (itemsOf (after.get (py "facts")))
  settled : Settled (pendingFacts before) (itemsOf (after.get (py "facts")))
    (itemsOf (after.get (py "facts_dropped")))
  undeferred : ∀ f ∈ pendingFacts before, ∀ d ∈ entriesOf (before.get (py "deferred")),
    d.field "field_id" = f.field "field_id" → withoutCitedLine f ∉ itemsOf (after.get (py "facts"))
  single : Single (itemsOf (after.get (py "facts")))

/-- What the judge confirms can be settled: nothing is confirmed or the facts cannot be added to; or
every answer and every drop record can be read, and a field that is confirmed is confirmed once and has
no other fact waiting, but copies. -/
def ConfirmedSettle (before : Dict) : Prop :=
  let pending := before.get (py "facts_pending_support")
  let turn := before.del (py "facts_pending_support")
  let confirmed := confirmedFacts settings agenda choiceFields body turn pending
  confirmed = [] ∨ ¬Appendable before ∨
    answersRead agenda choiceFields body turn pending = true ∧
      (∀ d ∈ itemsOf (before.get (py "facts_dropped")), Readable d) ∧
      (confirmed.map (Json.field · "field_id")).Nodup ∧
      ∀ f ∈ confirmed, ∀ g ∈ pendingFacts before, g.field "field_id" = f.field "field_id" →
        withoutCitedLine g = withoutCitedLine f

omit [PyRuntime] [PyFloats] in
theorem unmarked_append_iff (facts confirmed : List Json) :
    Unmarked (facts ++ confirmed.map withoutCitedLine) ↔ Unmarked facts := by
  constructor
  · exact fun all f filed => all f (List.mem_append_left _ filed)
  · intro all f filed members same
    rcases List.mem_append.mp filed with before | new
    · exact all f before members same
    · obtain ⟨c, _, rfl⟩ := List.mem_map.mp new
      cases c with
      | obj fields =>
          cases same
          rw [Bool.eq_false_iff]
          exact fun there => ((Dict.has_del fields _ _).mp there).1 rfl
      | _ => cases same

section

variable {before after : Dict} {own rest : List Json}
  (owned : OwnRecords IsRecordOf (pendingFacts before) (itemsOf (before.get (py "facts_dropped"))) own
    rest)
  (fresh : Fresh (pendingFacts before) (itemsOf (before.get (py "facts"))))

include owned fresh

omit [PyFloats] in
/-- Nothing is put back. -/
theorem keepsBooks_of_none (leaves : Remains (itemsOf (before.get (py "facts")))
    (itemsOf (before.get (py "facts_dropped"))) after) :
    KeepsBooks before after ↔ Unmarked (itemsOf (before.get (py "facts"))) ∧
      Single (itemsOf (before.get (py "facts"))) := by
  constructor
  · intro books
    rw [← leaves.facts]
    exact ⟨books.unmarked, books.single⟩
  · rintro ⟨unmarked, single⟩
    refine ⟨leaves.gone, ?_, ?_, ?_, ?_⟩
    · rw [leaves.facts]
      exact unmarked
    · rw [leaves.facts, leaves.records]
      exact settled_of_none owned fresh
    · intro f waits _ _ _
      obtain ⟨d, _, record⟩ := owned.exists_record waits
      rw [leaves.facts]
      exact not_filed_of_fresh fresh waits record.1
    · rw [leaves.facts]
      exact single

omit [PyFloats] in
/-- The facts that are confirmed are put back, and their records go. -/
theorem keepsBooks_of_all {confirmed : List Json}
    (listed : ∀ f ∈ confirmed, f ∈ pendingFacts before ∧ ∃ fid, f.field "field_id" = .str fid ∧
      ∀ d ∈ entriesOf (before.get (py "deferred")), d.field "field_id" ≠ .str fid)
    (leaves : Remains (itemsOf (before.get (py "facts")) ++ confirmed.map withoutCitedLine)
      ((itemsOf (before.get (py "facts_dropped"))).filter fun d => !goesBack confirmed d) after) :
    KeepsBooks before after ↔ Unmarked (itemsOf (before.get (py "facts"))) ∧
      Single (itemsOf (before.get (py "facts"))) ∧
      (confirmed.map (Json.field · "field_id")).Nodup ∧
      ∀ f ∈ confirmed, ∀ g ∈ pendingFacts before, g.field "field_id" = f.field "field_id" →
        withoutCitedLine g = withoutCitedLine f := by
  have named : ∀ f ∈ confirmed, ∃ fid, f.field "field_id" = .str fid := by
    intro f member
    obtain ⟨_, fid, name, _⟩ := listed f member
    exact ⟨fid, name⟩
  have single := single_append_iff fresh (fun f member => (listed f member).1) named
  constructor
  · intro books
    have unmarked := books.unmarked
    have settled := books.settled
    have once := books.single
    rw [leaves.facts] at unmarked settled once
    rw [leaves.records] at settled
    obtain ⟨singly, nodup⟩ := single.mp once
    refine ⟨(unmarked_append_iff _ _).mp unmarked, singly, nodup, ?_⟩
    intro f member g waits same
    obtain ⟨c, here, copy⟩ := filed_of_settled owned fresh named settled member waits same
    have field := congrArg (Json.field · "field_id") copy
    rw [fieldId_withoutCitedLine, fieldId_withoutCitedLine] at field
    rw [← copy, List.inj_on_of_nodup_map nodup here member (field.trans same)]
  · rintro ⟨unmarked, singly, nodup, alone⟩
    refine ⟨leaves.gone, ?_, ?_, ?_, ?_⟩
    · rw [leaves.facts]
      exact (unmarked_append_iff _ _).mpr unmarked
    · rw [leaves.facts, leaves.records]
      exact settled_of_all_back owned fresh named alone
    · intro f waits d entry same filed
      rw [leaves.facts] at filed
      obtain ⟨record, _, waits_⟩ := owned.exists_record waits
      rcases List.mem_append.mp filed with before_ | new
      · exact not_filed_of_fresh fresh waits waits_.1 before_
      · obtain ⟨c, here, copy⟩ := List.mem_map.mp new
        have field := congrArg (Json.field · "field_id") copy
        rw [fieldId_withoutCitedLine, fieldId_withoutCitedLine] at field
        obtain ⟨_, fid, name, undeferred⟩ := listed c here
        exact undeferred d entry (same.trans (field.symm.trans name))
    · rw [leaves.facts]
      exact single.mpr ⟨singly, nodup⟩

omit [PyFloats] fresh in
/-- A fact is put back and its record stays. -/
theorem not_keepsBooks_of_records_kept {confirmed : List Json} (some_ : confirmed ≠ [])
    (listed : ∀ f ∈ confirmed, f ∈ pendingFacts before ∧ ∃ fid, f.field "field_id" = .str fid)
    (leaves : Remains (itemsOf (before.get (py "facts")) ++ confirmed.map withoutCitedLine)
      (itemsOf (before.get (py "facts_dropped"))) after) : ¬KeepsBooks before after := by
  intro books
  obtain ⟨f, member⟩ := List.exists_mem_of_ne_nil _ some_
  obtain ⟨waits, fid, name⟩ := listed f member
  have settled := books.settled
  rw [leaves.facts, leaves.records] at settled
  exact not_settled_of_records_kept owned waits name
    (List.mem_append_right _ (List.mem_map_of_mem member)) settled

end

omit [PyRuntime] [PyFloats] in
theorem remains_del (before : Dict) : Remains (itemsOf (before.get (py "facts")))
    (itemsOf (before.get (py "facts_dropped"))) (before.del (py "facts_pending_support")) where
  facts := by rw [Dict.get_del, if_neg (by decide)]
  records := by rw [Dict.get_del, if_neg (by decide)]
  gone := by
    rw [Bool.eq_false_iff, Ne, Dict.has_del]
    exact fun there => there.1 rfl

omit [PyRuntime] [PyFloats] in
theorem appendable_del_iff (before : Dict) :
    Appendable (before.del (py "facts_pending_support")) ↔ Appendable before := by
  rw [Appendable, Appendable, Dict.has_del, Dict.get_del, if_neg (by decide)]
  refine imp_congr_left (and_iff_right ?_)
  decide

omit [PyFloats] in
/-- A fact that waits has a record, so the drop records are a list. -/
theorem records_listed {before : Dict} {own rest : List Json}
    (owned : OwnRecords IsRecordOf (pendingFacts before)
      (itemsOf (before.get (py "facts_dropped"))) own rest) {f : Json}
    (waits : f ∈ pendingFacts before) :
    before.get (py "facts_dropped") = .arr (itemsOf (before.get (py "facts_dropped"))) := by
  obtain ⟨d, listed, _⟩ := owned.exists_record waits
  rw [itemsOf.eq_def] at listed ⊢
  split at listed
  · next items same => rw [same]
  · cases listed

/-- What putting back does to the books, once the pending facts are taken out. -/
theorem restoreTurn_keeps_books_iff {before turn : Dict} {own rest : List Json}
    (popped : turn = before.del (py "facts_pending_support"))
    (owned : OwnRecords IsRecordOf (pendingFacts before)
      (itemsOf (before.get (py "facts_dropped"))) own rest)
    (fresh : Fresh (pendingFacts before) (itemsOf (before.get (py "facts"))))
    {confirmed : List Json} (found : confirmedFacts settings agenda choiceFields body turn
      (before.get (py "facts_pending_support")) = confirmed) :
    KeepsBooks before (restoreTurn settings agenda choiceFields body turn
        (before.get (py "facts_pending_support"))) ↔
      Unmarked (itemsOf (before.get (py "facts"))) ∧ Single (itemsOf (before.get (py "facts"))) ∧
        (confirmed = [] ∨ ¬Appendable turn ∨
          answersRead agenda choiceFields body turn (before.get (py "facts_pending_support")) = true ∧
            (∀ d ∈ itemsOf (before.get (py "facts_dropped")), Readable d) ∧
            (confirmed.map (Json.field · "field_id")).Nodup ∧
            ∀ f ∈ confirmed, ∀ g ∈ pendingFacts before, g.field "field_id" = f.field "field_id" →
              withoutCitedLine g = withoutCitedLine f) := by
  have remains : Remains (itemsOf (before.get (py "facts")))
      (itemsOf (before.get (py "facts_dropped"))) turn := by
    rw [popped]
    exact remains_del before
  have listed : ∀ f ∈ confirmed, f ∈ pendingFacts before ∧ ∃ fid, f.field "field_id" = .str fid ∧
      ∀ d ∈ entriesOf (before.get (py "deferred")), d.field "field_id" ≠ .str fid := by
    intro f member
    rw [← found] at member
    obtain ⟨waits, _, fid, name, undeferred⟩ :=
      mem_confirmedFacts settings agenda choiceFields body member
    rw [popped, Dict.get_del, if_neg (by decide)] at undeferred
    exact ⟨waits, fid, name, undeferred⟩
  have back := remains.withFacts (confirmed.map withoutCitedLine)
  rcases restoreTurn_cases settings agenda choiceFields body turn
      (before.get (py "facts_pending_support")) with
    ⟨none_, same⟩ | ⟨some_, appendable, entries, ids, same⟩
  · rw [found] at none_
    rw [same, keepsBooks_of_none owned fresh remains, ← or_assoc]
    simp only [none_, true_or, and_true]
  · rw [found] at some_ ids same
    have unsettled := fun after => @not_keepsBooks_of_records_kept _ before after _ _ owned confirmed
      some_ fun f member => ⟨(listed f member).1, (listed f member).2.imp fun _ => And.left⟩
    rw [same, or_iff_right some_, or_iff_right (not_not.mpr appendable)]
    dsimp only
    split
    · next answered =>
      obtain ⟨f, member⟩ := List.exists_mem_of_ne_nil _ some_
      have stored : (withFacts turn (confirmed.map withoutCitedLine)).get (py "facts_dropped") =
          .arr (itemsOf (before.get (py "facts_dropped"))) := by
        have kept : (withFacts turn (confirmed.map withoutCitedLine)).get (py "facts_dropped") =
            before.get (py "facts_dropped") := by
          rw [withFacts]
          split
          · rw [popped, Dict.get_del, if_neg (by decide)]
          · rw [Dict.get_set_of_ne _ _ (by decide), popped, Dict.get_del, if_neg (by decide)]
        exact kept.trans (records_listed owned (listed f member).1)
      rw [answered, eq_self_iff_true, true_and]
      cases noted : noteRestored (withFacts turn (confirmed.map withoutCitedLine)) entries with
      | some after =>
          have readable := (noteRestored_isSome_iff stored ids).mp (by rw [noted]; rfl)
          rw [Option.getD_some, keepsBooks_of_all owned fresh listed
            (remains_noteRestored back stored ids readable noted)]
          exact and_congr_right fun _ => and_congr_right fun _ =>
            ⟨fun rest => ⟨readable, rest⟩, And.right⟩
      | none =>
          refine iff_of_false (unsettled _ back) ?_
          rintro ⟨_, _, readable, _⟩
          have some_ := (noteRestored_isSome_iff stored ids).mpr readable
          rw [noted] at some_
          cases some_
    · next unanswered =>
      refine iff_of_false (unsettled _ back) ?_
      rintro ⟨_, _, answered, _⟩
      exact unanswered answered

/-- Where each fact that was set aside has a drop record of its own and no fact of the response is for
its field, putting back keeps the books exactly when the facts of the response carry no cited line and
no field has two, and what the judge confirms can be settled. -/
theorem restore_keeps_books_iff {text : PyStr} {before : Dict} {own rest : List Json}
    (read : turnOf text = some before)
    (owned : OwnRecords IsRecordOf (pendingFacts before)
      (itemsOf (before.get (py "facts_dropped"))) own rest)
    (fresh : Fresh (pendingFacts before) (itemsOf (before.get (py "facts")))) :
    ∃ after, turnOf (restoreSupportedCarriedFacts settings agenda choiceFields body text) =
        some after ∧
      (KeepsBooks before after ↔ Unmarked (itemsOf (before.get (py "facts"))) ∧
        Single (itemsOf (before.get (py "facts"))) ∧
        ConfirmedSettle settings agenda choiceFields body before) := by
  have canonical := canonical_turnOf read
  rw [restoreSupportedCarriedFacts, read]
  dsimp only
  by_cases waits : before.has (py "facts_pending_support") = true
  · rw [if_pos waits]
    have written := canonical_restoreTurn settings agenda choiceFields body
      (canonical_del canonical (py "facts_pending_support"))
      (canonical_get canonical (py "facts_pending_support"))
    refine ⟨_, turnOf_dumps written, ?_⟩
    rw [restoreTurn_keeps_books_iff settings agenda choiceFields body rfl owned fresh rfl,
      appendable_del_iff]
    rfl
  · rw [if_neg waits]
    refine ⟨before, read, ?_⟩
    have absent : before.has (py "facts_pending_support") = false := by simpa using waits
    have none_ : confirmedFacts settings agenda choiceFields body
        (before.del (py "facts_pending_support")) (before.get (py "facts_pending_support")) = [] := by
      rw [Dict.get_of_not_has absent, confirmedFacts, if_pos (.inr (.inr rfl))]
    rw [keepsBooks_of_none owned fresh ⟨rfl, rfl, absent⟩]
    simp only [ConfirmedSettle, none_, true_or, and_true]

end

end

/-! ### Two answers for one field -/

/-- A digit, a point and digits: such texts compare as their floats. -/
def isShortFloat : PyStr → Bool
  | a :: 46 :: rest => isAsciiDigit a && rest != [] && rest.all isAsciiDigit
  | _ => false

/-- Whether the float of a text is written as that text. -/
def writesItself (t : PyStr) : Bool :=
  match @classify PyRuntime.ascii t with
  | some (.float s) => s == t
  | _ => false

/-- `x >= y` of such texts. -/
def shortFloatGe (x y : PyStr) : Bool :=
  writesItself x && (isShortFloat x && isShortFloat y && decide (y ≤ x))

theorem canonical_of_shortFloatGe (x y : PyStr) (above : shortFloatGe x y = true) :
    letI := PyRuntime.ascii
    (Json.float x).Canonical := by
  let _ := PyRuntime.ascii
  rw [shortFloatGe, Bool.and_eq_true, writesItself] at above
  have same := above.1
  split at same
  · next s found =>
    rw [beq_iff_eq] at same
    rw [same] at found
    rw [Json.Canonical]
    exact found
  · cases same

/-- Floats with one digit before the point. -/
@[reducible] def PyFloats.ascii : @PyFloats PyRuntime.ascii :=
  @PyFloats.mk PyRuntime.ascii (fun s => if isShortFloat s then some s else none)
    (fun n => some (strOfInt n ++ py ".0")) shortFloatGe (fun x => x) canonical_of_shortFloatGe

/-- The field that is answered twice. -/
def supportedField : PyStr := py "p6.child1.supported"

/-- An answer that cites what she said earlier. -/
def carriedAnswer (value : String) : Json :=
  .obj [(py "field_id", .str supportedField), (py "value", .str (py value)),
    (py "provenance", .obj [(py "utterance", .str (py "I pay child support"))]),
    (py "_cited_line", .str (py "she's with her mom, i pay child support."))]

/-- The drop record of either. -/
def carriedRecord : Json :=
  .obj [(py "field_id", .str supportedField), (py "utterance", .str (py "I pay child support")),
    (py "pending_support", .bool true)]

/-- The floor has set both aside. -/
def answeredTwice : Dict :=
  [(py "facts", .arr []), (py "facts_dropped", .arr [carriedRecord, carriedRecord]),
    (py "facts_pending_support", .arr [carriedAnswer "yes", carriedAnswer "no"])]

/-- The judge supports the first alone. -/
def supportsFirst : Json :=
  .obj [(py "answers", .obj [
    (py "f0", .obj [(py "choice", .str (py "supports")), (py "confidence", .float (py "0.9"))]),
    (py "f1", .obj [(py "choice", .str (py "insufficient")), (py "confidence", .float (py "0.9"))])])]

/-- The judge is asked. -/
def askJudge : JudgeSettings := ⟨py "primary", py "key"⟩

/-- The options of the field. -/
def yesOrNo : Json := .obj [(supportedField, .arr [.str (py "yes"), .str (py "no")])]

theorem answeredTwice_read :
    letI := PyRuntime.ascii
    turnOf (dumps (.obj answeredTwice)) = some answeredTwice := by
  let _ := PyRuntime.ascii
  apply turnOf_dumps
  simp only [answeredTwice, carriedAnswer, carriedRecord, canonical_obj_iff, canonical_arr_iff,
    List.forall_mem_cons, List.map_cons, List.map_nil, List.not_mem_nil, canonical_str, canonical_bool,
    true_and, and_true, false_implies, implies_true]
  decide +kernel

theorem answeredTwice_owned :
    letI := PyRuntime.ascii
    OwnRecords IsRecordOf (pendingFacts answeredTwice)
      (itemsOf (answeredTwice.get (py "facts_dropped"))) [carriedRecord, carriedRecord] [] := by
  let _ := PyRuntime.ascii
  exact ⟨List.Perm.refl _, .cons ⟨rfl, rfl, rfl, rfl⟩ (.cons ⟨rfl, rfl, rfl, rfl⟩ .nil)⟩

theorem answeredTwice_fresh :
    Fresh (pendingFacts answeredTwice) (itemsOf (answeredTwice.get (py "facts"))) :=
  fun _ filed => nomatch filed

theorem restore_keeps_books_iff_answered_twice :
    letI := PyRuntime.ascii
    letI := PyFloats.ascii
    ∃ after, turnOf (restoreSupportedCarriedFacts askJudge none yesOrNo (some supportsFirst)
        (dumps (.obj answeredTwice))) = some after ∧
      (KeepsBooks answeredTwice after ↔ Unmarked [] ∧ Single [] ∧
        ConfirmedSettle askJudge none yesOrNo (some supportsFirst) answeredTwice) := by
  let _ := PyRuntime.ascii
  let _ := PyFloats.ascii
  exact restore_keeps_books_iff askJudge none yesOrNo (some supportsFirst) answeredTwice_read
    answeredTwice_owned answeredTwice_fresh

theorem confirmedFacts_answered_twice :
    letI := PyRuntime.ascii
    letI := PyFloats.ascii
    confirmedFacts askJudge none yesOrNo (some supportsFirst)
      (answeredTwice.del (py "facts_pending_support"))
      (answeredTwice.get (py "facts_pending_support")) = [carriedAnswer "yes"] := by
  rfl

/-- The answer that is not supported loses its record. -/
theorem unsupported_answer_loses_record :
    letI := PyRuntime.ascii
    ¬∀ (_ : PyFloats) (settings : JudgeSettings) (agenda : Option PyStr) (choiceFields : Json)
      (body : Option Json) (text : PyStr) (before after : Dict) (own rest : List Json),
      turnOf text = some before →
      OwnRecords IsRecordOf (pendingFacts before) (itemsOf (before.get (py "facts_dropped"))) own
        rest →
      Fresh (pendingFacts before) (itemsOf (before.get (py "facts"))) →
      turnOf (restoreSupportedCarriedFacts settings agenda choiceFields body text) = some after →
      KeepsBooks before after := by
  let _ := PyRuntime.ascii
  let floats := PyFloats.ascii
  intro keeps
  have written := turnOf_dumps (canonical_restoreTurn askJudge none yesOrNo (some supportsFirst)
    (canonical_del (canonical_turnOf answeredTwice_read) (py "facts_pending_support"))
    (canonical_get (canonical_turnOf answeredTwice_read) (py "facts_pending_support")))
  have books := keeps floats askJudge none yesOrNo (some supportsFirst) _ answeredTwice _ _ _
    answeredTwice_read answeredTwice_owned answeredTwice_fresh
    (by rw [restoreSupportedCarriedFacts, answeredTwice_read]; exact written)
  obtain ⟨_, _, settles⟩ := (restoreTurn_keeps_books_iff askJudge none yesOrNo (some supportsFirst) rfl
    answeredTwice_owned answeredTwice_fresh confirmedFacts_answered_twice).mp books
  have alone : withoutCitedLine (carriedAnswer "no") = withoutCitedLine (carriedAnswer "yes") := by
    rcases settles with none_ | stuck | ⟨_, _, _, alone⟩
    · cases none_
    · exact absurd (fun _ => ⟨[], rfl⟩) stuck
    · exact alone _ List.mem_cons_self _ (List.mem_cons_of_mem _ List.mem_cons_self) rfl
  have values := congrArg (Json.field · "value") alone
  have texts : py "no" = py "yes" := Json.str.inj values
  exact absurd texts (by decide)

end GhostPour.N400
