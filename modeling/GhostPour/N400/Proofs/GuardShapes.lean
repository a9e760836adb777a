/-
Module: GhostPour.N400.Proofs.GuardShapes
Layer: Proofs
Purpose: The shapes that the guards assume. A guard iterates, hashes, adds to and reads values that the
  model wrote, and raises where one of them has another type; a lemma says of each operation, and then
  of each guard, of which values it returns.
Trusted boundary: none
Main exports: iterable, extendable, idsOf, hashedIds, citable, dropFacts_isSome, deferDates_isSome
-/
import GhostPour.N400.Proofs.RecordedDrops

namespace GhostPour.N400

open Regex

section

variable [PyRuntime]

/-! ### Shapes -/

/-- A value that `for x in v or []` runs over: a text, a list or an object, or an empty one. -/
def iterable (v : Json) : Bool :=
  match v with
  | .str _ | .arr _ | .obj _ => true
  | v => !v.truthy

/-- A value that `(v or []) + more` adds to: a list, or an empty value. -/
def extendable (v : Json) : Bool :=
  match v with
  | .arr _ => true
  | v => !v.truthy

/-- A value that is read as a text: a text, or an empty value. -/
def legible (v : Json) : Bool :=
  match v with
  | .str _ => true
  | v => !v.truthy

/-- The field ids of the entries of a list that are dicts. -/
def idsOf (v : Json) : List Json := (entriesOf v).map (Json.field · "field_id")

/-- Whether a set can hold them. -/
def hashedIds (v : Json) : Bool := (idsOf v).all Json.hashable

/-- Whether the words that a fact cites can be read. -/
def citable (f : Json) : Bool :=
  let provenance := f.field "provenance"
  !provenance.truthy || isDict provenance && legible (provenance.field "utterance")

/-- Whether a count that is made of digits is made of decimal ones. -/
def countable (f : Json) : Bool :=
  let (fid, value) := gateReading f
  (matchStart countFact fid).isNone || value == [] || !value.all PyRuntime.isDigit ||
    (natOfDecimals value).isSome

theorem iterateOrEmpty_isSome (v : Json) : v.iterateOrEmpty.isSome = iterable v := by
  rw [Json.iterateOrEmpty]
  cases truthy : v.truthy with
  | true => cases v <;> simp [Json.iterate, iterable, truthy]
  | false => cases v <;> simp [iterable, truthy]

theorem appendTo_isSome (turn : Dict) (key : String) (more : List Json) :
    (appendTo turn key more).isSome = extendable (turn.get (py key)) := by
  rw [appendTo]
  cases truthy : (turn.get (py key)).truthy with
  | true => cases listed : turn.get (py key) <;> simp_all [extendable]
  | false => cases listed : turn.get (py key) <;> simp_all [extendable]

theorem takeAway_isSome (turn : Dict) {key mark : String} (other : py key ≠ py mark)
    (kept dropped : List Json) : (takeAway turn key kept mark dropped).isSome = true ↔
      (dropped ≠ [] → extendable (turn.get (py mark)) = true) := by
  cases dropped with
  | nil => simp [takeAway]
  | cons entry dropped =>
      rw [takeAway, List.isEmpty_cons, if_neg Bool.false_ne_true, appendTo_isSome,
        Dict.get_set_of_ne _ _ other]
      simp

theorem keyIn_isSome (v : Json) (keys : List Json) : (keyIn v keys).isSome = v.hashable := by
  rw [keyIn]
  cases v.hashable <;> rfl

/-! ### Sets of field ids -/

omit [PyRuntime] in
theorem fieldIdSet_isSome (items : List Json) : (fieldIdSet items).isSome = hashedIds (.arr items) := by
  rw [Bool.eq_iff_iff, fieldIdSet, mapM_isSome_iff, hashedIds, List.all_eq_true]
  constructor
  · intro each id member
    have here := each id member
    split at here
    · next hashes => exact hashes
    · cases here
  · intro each id member
    rw [if_pos (each id member)]
    rfl

/-- Of the values that `for` runs over, the dicts are those of the list. -/
theorem entriesOf_iterate {v : Json} {items : List Json} (run : v.iterateOrEmpty = some items) :
    entriesOf (.arr items) = entriesOf v := by
  have chars : ∀ texts : List PyStr, entriesOf (.arr (texts.map Json.str)) = [] := by
    intro texts
    refine List.filter_eq_nil_iff.mpr fun entry member => ?_
    obtain ⟨text, _, rfl⟩ := List.mem_map.mp member
    exact Bool.false_ne_true
  rw [Json.iterateOrEmpty] at run
  split at run
  · cases v with
    | arr listed =>
        cases run
        rfl
    | str s =>
        cases run
        have same : (s.map fun c => Json.str [c]) = (s.map fun c => [c]).map Json.str := by simp
        rw [same]
        exact chars _
    | obj members =>
        cases run
        have same : (members.map fun m => Json.str m.1) = (members.map Prod.fst).map Json.str := by
          simp
        rw [same]
        exact chars _
    | _ => cases run
  · next falsy =>
    cases run
    rw [entriesOf_of_falsy (Bool.eq_false_iff.mpr falsy)]
    rfl

/-- The set of the field ids of what `for` runs over. -/
theorem fieldIdSet_iterate {v : Json} {items : List Json} (run : v.iterateOrEmpty = some items) :
    fieldIdSet items = if hashedIds v then some (idsOf v) else none := by
  have same : hashedIds (.arr items) = hashedIds v := by
    rw [hashedIds, idsOf, entriesOf_iterate run]
    rfl
  have hashed := fieldIdSet_isSome items
  rw [same] at hashed
  cases ids : fieldIdSet items with
  | none =>
      rw [ids] at hashed
      rw [← hashed]
      rfl
  | some set =>
      rw [ids] at hashed
      rw [← hashed, (fieldIdSet_eq_some ids).1]
      exact congrArg some (congrArg (List.map _) (entriesOf_iterate run))

omit [PyRuntime] in
theorem hashedIds_iff (items : List Json) :
    hashedIds (.arr items) = true ↔ ∀ f ∈ items, (f.field "field_id").hashable = true := by
  rw [hashedIds, idsOf, List.all_eq_true, List.forall_mem_map]
  constructor
  · intro each f member
    cases f with
    | obj d => exact each _ (List.mem_filter.mpr ⟨member, rfl⟩)
    | _ => rfl
  · intro each f member
    exact each f (List.mem_of_mem_filter member)

/-! ### What the tests read -/

theorem citedWords_isSome (f : Json) : (citedWords f).isSome = citable f := by
  cases f with
  | obj d =>
      rw [citedWords, citable]
      dsimp only [Json.field]
      cases truthy : (Dict.get d (py "provenance")).truthy with
      | false => simp
      | true =>
          rw [if_pos rfl, Bool.not_true, Bool.false_or]
          cases Dict.get d (py "provenance") with
          | obj p =>
              dsimp only [isDict]
              rw [Bool.true_and]
              cases read : (Dict.get p (py "utterance")).truthy with
              | false => cases words : Dict.get p (py "utterance") <;> simp_all [legible]
              | true => cases words : Dict.get p (py "utterance") <;> simp_all [legible]
          | _ => rfl
  | _ =>
      rw [citable]
      rfl

omit [PyRuntime] in
theorem wantedDigits_isSome (f : Json) :
    (wantedDigits f).isSome = (f.field "field_id").hashable := by
  rw [wantedDigits]
  cases f with
  | obj d =>
      rw [isDict, if_pos rfl]
      cases (Json.obj d).field "field_id" <;> rfl
  | _ => rfl

theorem wrongCountOf_isSome (f : Json) :
    (wrongCountOf f).isSome = (f.field "field_id").hashable := by
  rw [wrongCountOf, Option.isSome_map, wantedDigits_isSome]

/-- Whether a fact files an identifier. -/
def filesIdentifier (f : Json) : Bool :=
  (wantedDigits f).join.isSome && notEmptyText (f.field "value")

theorem notAsSaidOf_isSome (locale : Option PyStr) (f : Json) :
    (notAsSaidOf locale f).isSome = true ↔
      (f.field "field_id").hashable = true ∧ (filesIdentifier f = true → citable f = true) := by
  rw [notAsSaidOf, ← wantedDigits_isSome, filesIdentifier, ← citedWords_isSome]
  rcases wantedDigits f with _ | (_ | ⟨fid, counts⟩)
  · simp
  · simp
  · cases notEmptyText (f.field "value") with
    | false => simp
    | true =>
        cases citedWords f with
        | none => simp
        | some cited =>
            simp only [Option.bind_eq_bind, Option.bind_some, if_true]
            split <;> try split
            all_goals simp

theorem bareNo_isSome (f : Json) : (bareNo f).isSome = citable f := by
  rw [bareNo, Option.isSome_map, citedWords_isSome]

/-! ### The evidence floor -/

omit [PyRuntime] in
theorem anyIdIn_isSome {fid : Json} (hashes : fid.hashable = true) (sets : List (List PyStr)) :
    (anyIdIn fid sets).isSome = true := by
  cases fid with
  | str s => rfl
  | arr items => cases hashes
  | obj members => cases hashes
  | _ => simp [anyIdIn, Json.hashable]

theorem splitDateSaid_isSome {f : Json} (hashes : (f.field "field_id").hashable = true)
    (utt said : PyStr) (earlier : List PyStr) (agenda lineIds : Option PyStr) :
    (splitDateSaid f utt said earlier agenda lineIds).isSome = true := by
  have tagged : (dateLinesTagged (f.field "field_id") said earlier agenda lineIds).isSome = true := by
    rw [dateLinesTagged]
    exact isSome_ite (anyIdIn_isSome hashes _) (anyIdIn_isSome hashes _)
  rw [splitDateSaid]
  split
  · rfl
  split
  · rfl
  · refine isSome_ite rfl ?_
    rw [Option.isSome_map]
    exact tagged

/-- The floor reads what a fact cites; a field id that a set can hold is not in its way. -/
theorem evidenceOf_isSome (input : EvidenceInput) {f : Json}
    (hashes : (f.field "field_id").hashable = true) :
    (evidenceOf input f).isSome = citable f := by
  rw [evidenceOf, ← citedWords_isSome]
  cases citedWords f with
  | none => rfl
  | some utt =>
      have split := splitDateSaid_isSome hashes utt input.said input.earlier input.agenda input.lineIds
      obtain ⟨said, outcome⟩ := Option.isSome_iff_exists.mp split
      simp only [Option.bind_eq_bind, Option.bind_some, outcome]
      exact isSome_ite rfl (isSome_ite rfl (isSome_ite rfl rfl))

theorem unsupportedOf_isSome (input : EvidenceInput) {f : Json}
    (hashes : (f.field "field_id").hashable = true) :
    (unsupportedOf input f).isSome = citable f := by
  rw [unsupportedOf, Option.isSome_map, evidenceOf_isSome input hashes]

/-! ### The guards that take facts away -/

/-- A test condemns an entry. -/
def Condemns {ι : Type} (judge : Json → Py (Option ι)) (items : List Json) : Prop :=
  ∃ f ∈ items, ∃ info, judge f = some (some info)

theorem dropFacts_isSome {ι : Type} (judge : Json → Py (Option ι)) (entry : ι → Json) (turn : Dict) :
    (dropFacts judge entry turn).isSome = true ↔
      (∀ f ∈ itemsOf (turn.get (py "facts")), (judge f).isSome = true) ∧
        (Condemns judge (itemsOf (turn.get (py "facts"))) →
          extendable (turn.get (py "facts_dropped")) = true) := by
  rw [dropFacts]
  cases turn.get (py "facts") with
  | arr facts =>
      dsimp only [itemsOf]
      rw [Option.bind_eq_bind, isSome_bind_iff, mapM_isSome_iff]
      refine and_congr_right fun each => ?_
      obtain ⟨verdicts, judged⟩ := Option.isSome_iff_exists.mp (mapM_isSome_iff.mpr each)
      rw [judged, Condemns, ← filterMap_ne_nil_iff judged]
      simp only [Option.some.injEq, forall_eq']
      split
      · next none_ => exact iff_of_true rfl fun some_ => absurd (List.isEmpty_iff.mp none_) some_
      · rw [Option.bind_eq_bind, isSome_bind_iff, takeAway_isSome turn (by decide), Ne,
          List.map_eq_nil_iff]
        exact and_iff_left fun _ _ => rfl
  | _ => simp [itemsOf, Condemns]

theorem fixOccupations_isSome (knownFacts : Option PyStr) (turn : Dict) :
    (fixOccupations knownFacts turn).isSome = true ↔
      ((∃ f ∈ itemsOf (turn.get (py "facts")),
          (occupationFix (knownOccupations knownFacts) f).entry.isSome = true) →
        extendable (turn.get (py "facts_dropped")) = true) := by
  rw [fixOccupations]
  cases turn.get (py "facts") with
  | arr facts =>
      dsimp only [itemsOf]
      have dropped : (facts.map (occupationFix (knownOccupations knownFacts))).filterMap
          OccupationFix.entry ≠ [] ↔
            ∃ f ∈ facts, (occupationFix (knownOccupations knownFacts) f).entry.isSome = true := by
        rw [Ne, List.filterMap_eq_nil_iff]
        simp [Option.isSome_iff_ne_none]
      rw [← dropped]
      split
      · next kept =>
        rw [List.all_map, List.all_eq_true] at kept
        refine iff_of_true rfl fun some_ => absurd ?_ some_
        rw [List.filterMap_map, List.filterMap_eq_nil_iff]
        intro f member
        have here := kept f member
        dsimp only [Function.comp] at here ⊢
        cases fix : occupationFix (knownOccupations knownFacts) f with
        | kept => rfl
        | _ => rw [fix] at here; cases here
      · split
        · next none_ => exact iff_of_true rfl fun some_ => absurd (List.isEmpty_iff.mp none_) some_
        · next some_ =>
          rw [List.isEmpty_iff] at some_
          rw [Option.bind_eq_bind, isSome_bind_iff, appendTo_isSome,
            Dict.get_set_of_ne _ _ (by decide), forall_prop_of_true some_]
          exact and_iff_left fun _ _ => rfl
  | _ => simp [itemsOf]

theorem dropFactsWithoutCurrentEvidence_isSome (input : EvidenceInput) {turn : Dict}
    (hashed : hashedIds (turn.get (py "facts")) = true) :
    (dropFactsWithoutCurrentEvidence input turn).isSome = true ↔
      ∀ f ∈ itemsOf (turn.get (py "facts")), citable f = true := by
  rw [dropFactsWithoutCurrentEvidence]
  cases listed : turn.get (py "facts") with
  | arr facts =>
      dsimp only [itemsOf]
      rw [listed, hashedIds_iff] at hashed
      have each : (∀ f ∈ facts, (unsupportedOf input f).isSome = true) ↔
          ∀ f ∈ facts, citable f = true :=
        forall₂_congr fun f member => by rw [unsupportedOf_isSome input (hashed f member)]
      rw [Option.bind_eq_bind, isSome_bind_iff, mapM_isSome_iff, each, and_iff_left_iff_imp]
      intro _ verdicts _
      exact isSome_ite rfl rfl
  | _ => simp [itemsOf]

theorem dropNoThatPushedBack_isSome (userContent : Option PyStr) (turn : Dict) :
    (dropNoThatPushedBack userContent turn).isSome = true ↔
      ((matchStart pushbackNo (pushbackText (orEmpty userContent))).isSome = true →
        (∀ f ∈ itemsOf (turn.get (py "facts")), citable f = true) ∧
          (Condemns bareNo (itemsOf (turn.get (py "facts"))) →
            extendable (turn.get (py "facts_dropped")) = true)) := by
  rw [dropNoThatPushedBack]
  cases matchStart pushbackNo (pushbackText (orEmpty userContent)) with
  | none => simp
  | some m =>
      rw [Option.isNone_some, if_neg Bool.false_ne_true, dropFacts_isSome]
      simp [bareNo_isSome]

/-! ### The guards on what is asked -/

theorem correctMember_isSome (facts : Json) (member : PyStr × Json) :
    (correctMember facts member).isSome = iterable facts := by
  have digits : (identifierDigits facts).isSome = iterable facts := by
    rw [identifierDigits, Option.isSome_map, iterateOrEmpty_isSome]
  rw [correctMember]
  split
  · rw [Option.isSome_map, correctIdentifierReadback, Option.isSome_map, digits]
  · rw [Option.isSome_map, digits]

/-- Whether a reply has anything that is read. -/
def hasWords (reply : Json) : Bool :=
  match reply with
  | .obj members => !members.isEmpty
  | .str _ => true
  | _ => false

theorem correctIdentifierReadbacks_isSome (turn : Dict) :
    (correctIdentifierReadbacks turn).isSome = true ↔
      (hasWords (turn.get (py "reply")) = true → iterable (turn.get (py "facts")) = true) := by
  rw [correctIdentifierReadbacks]
  cases turn.get (py "reply") with
  | obj members =>
      dsimp only [hasWords]
      rw [Option.bind_eq_bind, isSome_bind_iff, mapM_isSome_iff]
      simp only [correctMember_isSome]
      constructor
      · rintro ⟨each, _⟩ some_
        cases members with
        | nil => cases some_
        | cons member members => exact each member List.mem_cons_self
      · intro reads
        refine ⟨fun member listed => reads ?_, fun fixed _ => isSome_ite rfl rfl⟩
        cases members with
        | nil => cases listed
        | cons _ _ => rfl
  | str spoken =>
      dsimp only [hasWords]
      have digits : (identifierDigits (turn.get (py "facts"))).isSome =
          iterable (turn.get (py "facts")) := by
        rw [identifierDigits, Option.isSome_map, iterateOrEmpty_isSome]
      rw [Option.bind_eq_bind, isSome_bind_iff, correctIdentifierReadback, Option.isSome_map, digits]
      refine ⟨fun both _ => both.1, fun reads => ⟨reads rfl, fun fixed _ => isSome_ite rfl rfl⟩⟩
  | _ => simp [hasWords]

/-- The fields of what a guard runs over can be collected. -/
def FieldsRead (v : Json) : Prop := iterable v = true ∧ hashedIds v = true

theorem fieldsRead_iff (v : Json) : (v.iterateOrEmpty.bind fieldIdSet).isSome = true ↔ FieldsRead v := by
  rw [isSome_bind_iff, iterateOrEmpty_isSome, FieldsRead]
  refine and_congr_right fun reads => ?_
  rw [← iterateOrEmpty_isSome] at reads
  obtain ⟨items, run⟩ := Option.isSome_iff_exists.mp reads
  rw [run]
  simp only [Option.some.injEq, forall_eq', fieldIdSet_iterate run]
  cases hashedIds v <;> simp

/-- Where they can, a guard that collects them goes on with them. -/
theorem collect_isSome_iff {β : Type} (v : Json) (rest : List Json → Option β) :
    (v.iterateOrEmpty.bind fun items => (fieldIdSet items).bind rest).isSome = true ↔
      FieldsRead v ∧ (rest (idsOf v)).isSome = true := by
  rw [← Option.bind_assoc, isSome_bind_iff, fieldsRead_iff]
  refine and_congr_right fun reads => ?_
  obtain ⟨ids, run⟩ := Option.isSome_iff_exists.mp ((fieldsRead_iff v).mpr reads)
  have same : ids = idsOf v := by
    obtain ⟨items, iterates, collects⟩ := Option.bind_eq_some_iff.mp run
    rw [fieldIdSet_iterate iterates, if_pos reads.2] at collects
    exact (Option.some.inj collects).symm
  rw [run, same]
  simp

theorem dropStaleAsking_isSome (agenda : Option PyStr) (turn : Dict) :
    (dropStaleAsking agenda turn).isSome = true ↔
      ∀ node ids, askedNode (turn.get (py "asking")) = some node →
        (agendaFieldIds agenda).get node = some ids → FieldsRead (turn.get (py "facts")) := by
  rw [dropStaleAsking]
  cases askedNode (turn.get (py "asking")) with
  | none => simp
  | some node =>
      dsimp only
      cases listed : (agendaFieldIds agenda).get node with
      | none =>
          refine iff_of_true (isSome_ite rfl rfl) ?_
          intro node' ids same found
          cases same
          rw [listed] at found
          cases found
      | some ids =>
          have fits : (∀ node' ids', some node = some node' → (agendaFieldIds agenda).get node' =
              some ids' → FieldsRead (turn.get (py "facts"))) ↔
                FieldsRead (turn.get (py "facts")) :=
            ⟨fun each => each node ids rfl listed, fun here _ _ _ _ => here⟩
          rw [fits]
          dsimp only [Option.bind_eq_bind]
          rw [collect_isSome_iff]
          exact and_iff_left (isSome_ite rfl rfl)

/-- The counts that a response states can be read. -/
theorem mootNodes_isSome (turn : Dict) (agenda : Option PyStr) :
    (mootNodes turn agenda).isSome = true ↔ iterable (turn.get (py "facts")) = true ∧
      ∀ f ∈ entriesOf (turn.get (py "facts")), countable f = true := by
  have step : ∀ found f, (gateStep found f).isSome = countable f := by
    intro found f
    rw [gateStep, countable]
    dsimp only
    cases matchStart countFact (gateReading f).1 with
    | none => rfl
    | some m =>
        dsimp only
        split
        · next digits => simp [digits.1, digits.2]
        · next other =>
          rw [not_and_or, not_not] at other
          rcases other with none_ | other
          · simp [none_]
          · simp [Bool.eq_false_iff.mpr other]
  rw [mootNodes, Option.bind_eq_bind, isSome_bind_iff, iterateOrEmpty_isSome]
  refine and_congr_right fun reads => ?_
  rw [← iterateOrEmpty_isSome] at reads
  obtain ⟨items, run⟩ := Option.isSome_iff_exists.mp reads
  rw [← entriesOf_iterate run, run]
  simp only [Option.some.injEq, forall_eq']
  rw [Option.bind_eq_bind, isSome_bind_iff, foldlM_isSome_iff step]
  exact and_iff_left fun _ _ => isSome_ite rfl rfl

omit [PyRuntime] in
theorem hashed_mapM {items : List Json} (hashed : ∀ v ∈ items, v.hashable = true) :
    items.mapM (fun v => if v.hashable then some v else none) = some items := by
  rw [mapM_eq_some_iff, List.forall₂_same]
  exact fun v member => if_pos (hashed v member)

/-- What is spoken of a reply, as the guard looks for it. -/
def spokenMember (reply : Json) (locale : Option PyStr) : Json :=
  match reply, spokenLocale reply locale with
  | .obj members, some key => if key = [] then .null else Dict.get members key
  | .str text, _ => .str text
  | _, _ => .null

theorem shownText_isSome (reply : Json) (locale : Option PyStr) :
    (shownText reply locale).isSome = legible (spokenMember reply locale) := by
  change Option.isSome (if (spokenMember reply locale).truthy then
    match spokenMember reply locale with
    | .str text => some text
    | _ => none
    else some []) = _
  generalize spokenMember reply locale = spoken
  cases spoken with
  | str text => exact isSome_ite rfl rfl
  | _ =>
      dsimp only [legible]
      split
      · next truthy => simp [truthy]
      · next falsy => simp [falsy]

/-- What the guard that replaces a settled question assumes: the facts and the fields of the settled node
can be collected, and where these are all filed, the counts can be read, and so can the reply if there is
a line to ask next. -/
def SwapFits (agenda locale : Option PyStr) (turn : Dict) (info : Dict) : Prop :=
  FieldsRead (turn.get (py "facts")) ∧ iterable (Dict.get info (py "field_ids")) = true ∧
    ∀ settled, (Dict.get info (py "field_ids")).iterateOrEmpty = some settled →
      (∀ v ∈ settled, v.hashable = true) ∧
        (settled.all (fun id => (idsOf (turn.get (py "facts"))).any (Json.sameKey id)) = true →
          (∀ f ∈ entriesOf (turn.get (py "facts")), countable f = true) ∧
            ∀ moot, mootNodes turn agenda = some moot →
              (nextOpenLine agenda (Dict.get info (py "node_id")) (idsOf (turn.get (py "facts")))
                moot).isSome = true → legible (spokenMember (turn.get (py "reply")) locale) = true)

theorem replaceSettledQuestion_isSome (agenda locale : Option PyStr) (turn : Dict) :
    (replaceSettledQuestion agenda locale turn).isSome = true ↔
      ∀ info, turn.get (py "asking_dropped") = .obj info →
        (Dict.get info (py "question_still_spoken")).truthy = true →
        (Dict.get info (py "reason")).same (.str dropReason) = true →
          SwapFits agenda locale turn info := by
  rw [replaceSettledQuestion]
  cases turn.get (py "asking_dropped") with
  | obj info =>
      dsimp only
      split
      · next idle =>
        refine iff_of_true rfl fun info' same spoken reason => ?_
        cases same
        rw [spoken, reason] at idle
        cases idle
      · next active =>
        rw [Bool.or_eq_true, not_or, Bool.not_eq_true', Bool.not_eq_true', Bool.not_eq_false,
          Bool.not_eq_false] at active
        have fits : (∀ info', Json.obj info = .obj info' →
            (Dict.get info' (py "question_still_spoken")).truthy = true →
            (Dict.get info' (py "reason")).same (.str dropReason) = true →
              SwapFits agenda locale turn info') ↔ SwapFits agenda locale turn info := by
          constructor
          · exact fun each => each info rfl active.1 active.2
          · intro here info' same _ _
            cases same
            exact here
        rw [fits, SwapFits, Option.bind_eq_bind, collect_isSome_iff]
        refine and_congr_right fun reads => ?_
        rw [Option.bind_eq_bind, isSome_bind_iff, iterateOrEmpty_isSome]
        refine and_congr_right fun _ => forall_congr' fun settled => imp_congr_right fun _ => ?_
        rw [isSome_bind_iff, mapM_isSome_iff]
        have each : (∀ v ∈ settled, (if v.hashable then some v else none).isSome = true) ↔
            ∀ v ∈ settled, v.hashable = true :=
          forall₂_congr fun v _ => by cases v.hashable <;> simp
        rw [each]
        refine and_congr_right fun hashed => ?_
        rw [hashed_mapM hashed]
        simp only [Option.some.injEq, forall_eq']
        split
        · next missing =>
          refine iff_of_true rfl fun filed => ?_
          rw [filed] at missing
          cases missing
        · next filed =>
          rw [Bool.not_eq_true', Bool.not_eq_false] at filed
          rw [forall_prop_of_true filed, isSome_bind_iff, mootNodes_isSome, reads.1, eq_self, true_and]
          refine and_congr_right fun _ => forall_congr' fun moot => imp_congr_right fun _ => ?_
          split
          · next none_ => simp [none_]
          · next line =>
            rw [← shownText_isSome, Option.bind_eq_bind, isSome_bind_iff, line]
            constructor
            · exact fun both _ => both.1
            · intro reads
              refine ⟨reads rfl, fun spoken _ => ?_⟩
              split <;> rfl
  | _ => simp

/-! ### The guards on deferrals -/

theorem strayDeferral_isSome (filed : Assoc PyStr) (standing : List PyStr) (said : PyStr) (d : Json) :
    (strayDeferral filed standing said d).isSome = (d.field "field_id").hashable := by
  rw [strayDeferral]
  cases d.field "field_id" <;> rfl

theorem dropDeferralsOfFiledValues_isSome (knownFacts agenda userContent : Option PyStr)
    (turn : Dict) :
    (dropDeferralsOfFiledValues knownFacts agenda userContent turn).isSome = true ↔
      (filedValues knownFacts ≠ [] → hashedIds (turn.get (py "deferred")) = true ∧
        (Condemns (strayDeferral (filedValues knownFacts) (standingFields agenda)
            (normText (orEmpty userContent))) (itemsOf (turn.get (py "deferred"))) →
          extendable (turn.get (py "deferrals_dropped")) = true)) := by
  rw [dropDeferralsOfFiledValues]
  dsimp only
  split
  · next none_ => simp [none_]
  · next some_ =>
    rw [forall_prop_of_true some_]
    cases turn.get (py "deferred") with
    | arr deferred =>
        dsimp only [itemsOf]
        rw [Option.bind_eq_bind, isSome_bind_iff, mapM_isSome_iff, hashedIds_iff]
        simp only [strayDeferral_isSome]
        refine and_congr_right fun hashed => ?_
        have each : ∀ d ∈ deferred, (strayDeferral (filedValues knownFacts) (standingFields agenda)
            (normText (orEmpty userContent)) d).isSome = true := fun d member => by
          rw [strayDeferral_isSome, hashed d member]
        obtain ⟨verdicts, judged⟩ := Option.isSome_iff_exists.mp (mapM_isSome_iff.mpr each)
        rw [judged, Condemns, ← filterMap_ne_nil_iff judged]
        simp only [Option.some.injEq, forall_eq']
        split
        · next none_ => exact iff_of_true rfl fun some_ => absurd (List.isEmpty_iff.mp none_) some_
        · rw [Option.bind_eq_bind, isSome_bind_iff, takeAway_isSome turn (by decide), Ne,
            List.map_eq_nil_iff]
          exact and_iff_left fun _ _ => rfl
    | _ => simp [itemsOf, Condemns, hashedIds, idsOf, entriesOf]

theorem markUnknownDeferralOrigins_isSome (turn : Dict) :
    (markUnknownDeferralOrigins turn).isSome = iterable (turn.get (py "deferred")) := by
  rw [Bool.eq_iff_iff, markUnknownDeferralOrigins, Option.bind_eq_bind, isSome_bind_iff,
    iterateOrEmpty_isSome]
  exact and_iff_left fun _ _ => isSome_ite rfl rfl

/-- The field ids of the deferrals of a list that are, or are not, capture gaps. -/
def idsOfOrigin (captureGap : Bool) (deferred : List Json) : List Json :=
  idsOf (.arr (deferred.filter fun d => decide (deferralOrigin d = .captureGap) == captureGap))

/-- The facts that no standing deferral takes. -/
def factsLeft (deferred facts : List Json) : List Json :=
  facts.filter fun f => !(idsOfOrigin false deferred).any (Json.sameKey (f.field "field_id"))

/-- A deferral is a gap that a fact resolves. -/
def resolves (deferred facts : List Json) (d : Json) : Bool :=
  ((idsOfOrigin true deferred).filter fun fid =>
      !(idsOfOrigin false deferred).any (Json.sameKey fid)).any (Json.sameKey (d.field "field_id")) &&
    (idsOf (.arr (factsLeft deferred facts))).any (Json.sameKey (d.field "field_id"))

/-- What the guard that separates facts and deferrals assumes. -/
structure SeparationFits (turn : Dict) (deferred facts : List Json) : Prop where
  hashed : hashedIds (.arr deferred) = true
  dicts : ∀ f ∈ facts, (idsOfOrigin false deferred).any (Json.sameKey (f.field "field_id")) = true →
    isDict f = true
  facts_dropped : (∃ f ∈ facts, (idsOfOrigin false deferred).any
    (Json.sameKey (f.field "field_id")) = true) → extendable (turn.get (py "facts_dropped")) = true
  deferred_dropped : (∃ d ∈ deferred, resolves deferred facts d = true) →
    extendable (turn.get (py "deferred_dropped")) = true

theorem keyIn_of_hashable {v : Json} (hashes : v.hashable = true) (keys : List Json) :
    keyIn v keys = some (keys.any (Json.sameKey v)) := if_pos hashes

theorem deferredFact_stays_iff {stands : List Json} {f : Json}
    (hashes : (f.field "field_id").hashable = true) :
    deferredFact stands f = some none ↔
      (!stands.any (Json.sameKey (f.field "field_id"))) = true := by
  rw [deferredFact, keyIn_of_hashable hashes]
  cases stands.any (Json.sameKey (f.field "field_id")) <;> cases isDict f <;> simp

theorem deferredFact_goes_iff {stands : List Json} {f : Json}
    (hashes : (f.field "field_id").hashable = true) :
    (∃ info, deferredFact stands f = some (some info)) ↔
      stands.any (Json.sameKey (f.field "field_id")) = true ∧ isDict f = true := by
  rw [deferredFact, keyIn_of_hashable hashes]
  cases stands.any (Json.sameKey (f.field "field_id")) <;> cases isDict f <;> simp

theorem deferredFact_isSome {stands : List Json} {f : Json}
    (hashes : (f.field "field_id").hashable = true) :
    (deferredFact stands f).isSome = true ↔
      (stands.any (Json.sameKey (f.field "field_id")) = true → isDict f = true) := by
  rw [deferredFact, keyIn_of_hashable hashes]
  cases stands.any (Json.sameKey (f.field "field_id")) <;> cases isDict f <;> simp

theorem resolvedGap_goes_iff {captured factIds : List Json} {d : Json}
    (hashes : (d.field "field_id").hashable = true) :
    (∃ info, resolvedGap captured factIds d = some (some info)) ↔
      (captured.any (Json.sameKey (d.field "field_id")) &&
        factIds.any (Json.sameKey (d.field "field_id"))) = true := by
  rw [resolvedGap, keyIn_of_hashable hashes, keyIn_of_hashable hashes]
  cases captured.any (Json.sameKey (d.field "field_id")) <;>
    cases factIds.any (Json.sameKey (d.field "field_id")) <;> simp

theorem resolvedGap_isSome {captured factIds : List Json} {d : Json}
    (hashes : (d.field "field_id").hashable = true) :
    (resolvedGap captured factIds d).isSome = true := by
  rw [resolvedGap, keyIn_of_hashable hashes, keyIn_of_hashable hashes]
  cases captured.any (Json.sameKey (d.field "field_id")) <;>
    cases factIds.any (Json.sameKey (d.field "field_id")) <;> rfl

omit [PyRuntime] in
theorem fieldIdSet_of_hashed {items : List Json} (hashed : hashedIds (.arr items) = true) :
    fieldIdSet items = some (idsOf (.arr items)) :=
  hashed_mapM (List.all_eq_true.mp hashed)

omit [PyRuntime] in
theorem hashedIds_filter {items : List Json} (hashed : hashedIds (.arr items) = true)
    (p : Json → Bool) : hashedIds (.arr (items.filter p)) = true := by
  rw [hashedIds_iff] at hashed ⊢
  exact fun f member => hashed f (List.mem_of_mem_filter member)

/-- The guard that separates facts and deferrals, where the sets of their fields can be made. -/
theorem separation_isSome {turn : Dict} {deferred facts : List Json}
    (hashed : hashedIds (.arr facts) = true) (hashed' : hashedIds (.arr deferred) = true)
    (some_ : deferred ≠ []) (listed : turn.get (py "deferred") = .arr deferred)
    (filed : turn.get (py "facts") = .arr facts) :
    (dropFactsThatAreAlsoDeferred turn).isSome = true ↔ SeparationFits turn deferred facts := by
  have hashes := (hashedIds_iff facts).mp hashed
  have hashes' := (hashedIds_iff deferred).mp hashed'
  have origins (captureGap : Bool) :
      deferredIds captureGap deferred = some (idsOfOrigin captureGap deferred) :=
    fieldIdSet_of_hashed (hashedIds_filter hashed' _)
  have each : (∀ f ∈ facts, (deferredFact (idsOfOrigin false deferred) f).isSome = true) ↔
      ∀ f ∈ facts, (idsOfOrigin false deferred).any (Json.sameKey (f.field "field_id")) = true →
        isDict f = true := forall₂_congr fun f member => deferredFact_isSome (hashes f member)
  have fits : SeparationFits turn deferred facts ↔
      (∀ f ∈ facts, (deferredFact (idsOfOrigin false deferred) f).isSome = true) ∧
        ((∃ f ∈ facts, (idsOfOrigin false deferred).any (Json.sameKey (f.field "field_id")) = true) →
          extendable (turn.get (py "facts_dropped")) = true) ∧
        ((∃ d ∈ deferred, resolves deferred facts d = true) →
          extendable (turn.get (py "deferred_dropped")) = true) := by
    rw [each]
    exact ⟨fun f => ⟨f.dicts, f.facts_dropped, f.deferred_dropped⟩,
      fun f => ⟨hashed', f.1, f.2.1, f.2.2⟩⟩
  rw [fits, dropFactsThatAreAlsoDeferred, listed, filed]
  dsimp only
  rw [if_neg (by simpa using some_)]
  simp only [origins, Option.bind_eq_bind, Option.bind_some]
  rw [isSome_bind_iff, mapM_isSome_iff]
  refine and_congr_right fun judged => ?_
  obtain ⟨verdicts, run⟩ := Option.isSome_iff_exists.mp (mapM_isSome_iff.mpr judged)
  have goes : verdicts.filterMap id ≠ [] ↔
      ∃ f ∈ facts, (idsOfOrigin false deferred).any (Json.sameKey (f.field "field_id")) = true := by
    rw [filterMap_ne_nil_iff run]
    refine exists_congr fun f => and_congr_right fun member => ?_
    rw [deferredFact_goes_iff (hashes f member), and_iff_left_iff_imp]
    exact each.mp judged f member
  have named : fieldIdSet (factsLeft deferred facts) = some (idsOf (.arr (factsLeft deferred facts))) :=
    fieldIdSet_of_hashed (hashedIds_filter hashed _)
  have left : keptOf facts verdicts = factsLeft deferred facts :=
    keptOf_eq_filter run fun f member => deferredFact_stays_iff (hashes f member)
  have gaps : ∀ captured factIds, ∀ d ∈ deferred, (resolvedGap captured factIds d).isSome = true :=
    fun _ _ d member => resolvedGap_isSome (hashes' d member)
  rw [run]
  simp only [Option.some.injEq, forall_eq']
  rw [left, named, Option.bind_some]
  obtain ⟨gapVerdicts, resolved⟩ := Option.isSome_iff_exists.mp (mapM_isSome_iff.mpr
    (gaps ((idsOfOrigin true deferred).filter fun fid =>
      !(idsOfOrigin false deferred).any (Json.sameKey fid)) (idsOf (.arr (factsLeft deferred facts)))))
  rw [resolved, Option.bind_some]
  have goes' : gapVerdicts.filterMap id ≠ [] ↔ ∃ d ∈ deferred, resolves deferred facts d = true := by
    rw [filterMap_ne_nil_iff resolved]
    refine exists_congr fun d => and_congr_right fun member => ?_
    rw [resolvedGap_goes_iff (hashes' d member), resolves]
  rw [← goes, ← goes']
  split
  · next none_ =>
    rw [Bool.and_eq_true, List.isEmpty_iff, List.isEmpty_iff] at none_
    exact iff_of_true rfl ⟨fun some_ => absurd none_.1 some_, fun some_ => absurd none_.2 some_⟩
  · rw [isSome_bind_iff, takeAway_isSome turn (by decide)]
    refine and_congr_right fun extends_ => ?_
    obtain ⟨marked, taken⟩ := Option.isSome_iff_exists.mp
      ((takeAway_isSome turn (by decide : py "facts" ≠ py "facts_dropped") (factsLeft deferred facts)
        _).mpr extends_)
    rw [taken]
    simp only [Option.some.injEq, forall_eq']
    rw [isSome_bind_iff, takeAway_isSome marked (by decide),
      takeAway_get_of_ne taken (by decide) (by decide)]
    exact and_iff_left fun _ _ => rfl

theorem dropFactsThatAreAlsoDeferred_isSome {turn : Dict}
    (hashed : hashedIds (turn.get (py "facts")) = true) :
    (dropFactsThatAreAlsoDeferred turn).isSome = true ↔
      ∀ deferred facts, turn.get (py "deferred") = .arr deferred → deferred ≠ [] →
        turn.get (py "facts") = .arr facts → SeparationFits turn deferred facts := by
  by_cases lists : ∃ deferred facts, deferred ≠ [] ∧ turn.get (py "deferred") = .arr deferred ∧
      turn.get (py "facts") = .arr facts
  · obtain ⟨deferred, facts, some_, listed, filed⟩ := lists
    rw [filed] at hashed
    constructor
    · intro returns deferred' facts' listed' _ filed'
      cases listed.symm.trans listed'
      cases filed.symm.trans filed'
      by_cases hashed' : hashedIds (.arr deferred) = true
      · exact (separation_isSome hashed hashed' some_ listed filed).mp returns
      · obtain ⟨outcome, run⟩ := Option.isSome_iff_exists.mp returns
        obtain ⟨stands, gaps, _, _, _, _, applicant, gap, _⟩ :=
          dropFactsThatAreAlsoDeferred_eq_some some_ listed filed run
        refine absurd ((hashedIds_iff deferred).mpr fun d member => ?_) hashed'
        have each (captureGap : Bool) : (deferredIds captureGap deferred).isSome = true := by
          cases captureGap with
          | false => rw [applicant]; rfl
          | true => rw [gap]; rfl
        have here := each (decide (deferralOrigin d = .captureGap))
        rw [deferredIds, fieldIdSet_isSome, hashedIds_iff] at here
        exact here d (List.mem_filter.mpr ⟨member, beq_self_eq_true _⟩)
    · intro fits
      have here := fits deferred facts listed some_ filed
      exact (separation_isSome hashed here.hashed some_ listed filed).mpr here
  · refine iff_of_true ?_ fun deferred facts listed some_ filed =>
      absurd ⟨deferred, facts, some_, listed, filed⟩ lists
    rw [dropFactsThatAreAlsoDeferred.eq_def]
    split
    · next deferred facts listed filed =>
      split
      · rfl
      · next some_ =>
        exact (lists ⟨deferred, facts, fun none_ => some_ (List.isEmpty_iff.mpr none_), listed,
          filed⟩).elim
    · rfl

/-! ### The guards on dates -/

/-- Whether `setdefault` finds a list, or nothing. -/
def appendable (turn : Dict) : Bool :=
  match turn.get (py "deferred") with
  | .arr _ => true
  | _ => !turn.has (py "deferred")

omit [PyRuntime] in
theorem appendDeferred_isSome (turn : Dict) (entries : List Json) :
    (appendDeferred turn entries).isSome = true ↔ (entries ≠ [] → appendable turn = true) := by
  rw [appendDeferred, appendable]
  cases entries with
  | nil => simp
  | cons entry entries =>
      rw [List.isEmpty_cons, if_neg Bool.false_ne_true, forall_prop_of_true (List.cons_ne_nil _ _)]
      cases has : turn.has (py "deferred") with
      | true =>
          rw [if_pos rfl]
          cases turn.get (py "deferred") <;> simp
      | false =>
          rw [if_neg Bool.false_ne_true, Dict.get_of_not_has has]
          simp

/-- What a date guard assumes of a list of facts. -/
structure DatesFit (judge : Json → Option MovedDate) (turn : Dict) (facts : List Json) : Prop where
  reads : iterable (turn.get (py "deferred")) = true
  hashed : hashedIds (turn.get (py "deferred")) = true
  appends : (∃ f ∈ facts, (judge f).isSome = true ∧
    (idsOf (turn.get (py "deferred"))).any (Json.sameKey (f.field "field_id")) = false) →
      appendable turn = true
  facts_dropped : (∃ f ∈ facts, (judge f).isSome = true) →
    extendable (turn.get (py "facts_dropped")) = true

theorem deferDates_isSome {judge : Json → Option MovedDate} (test : JudgesFacts judge)
    (reason : PyStr) {turn : Dict} (hashed : hashedIds (turn.get (py "facts")) = true) :
    (deferDates judge reason turn).isSome = true ↔
      ∀ facts, turn.get (py "facts") = .arr facts → DatesFit judge turn facts := by
  rw [deferDates]
  cases filed : turn.get (py "facts") with
  | arr facts =>
      rw [filed, hashedIds_iff] at hashed
      have fits : (∀ facts', Json.arr facts = .arr facts' → DatesFit judge turn facts') ↔
          DatesFit judge turn facts := by
        constructor
        · exact fun each => each facts rfl
        · intro here facts' same
          cases same
          exact here
      have counts : DatesFit judge turn facts ↔ FieldsRead (turn.get (py "deferred")) ∧
          ((∃ f ∈ facts, (judge f).isSome = true ∧ (idsOf (turn.get (py "deferred"))).any
            (Json.sameKey (f.field "field_id")) = false) → appendable turn = true) ∧
          ((∃ f ∈ facts, (judge f).isSome = true) →
            extendable (turn.get (py "facts_dropped")) = true) :=
        ⟨fun f => ⟨⟨f.reads, f.hashed⟩, f.appends, f.facts_dropped⟩,
          fun f => ⟨f.1.1, f.1.2, f.2.1, f.2.2⟩⟩
      rw [fits, counts]
      dsimp only
      rw [Option.bind_eq_bind, collect_isSome_iff]
      refine and_congr_right fun _ => ?_
      have fresh : ∀ m ∈ (facts.map judge).filterMap id,
          (notDeferredYet (idsOf (turn.get (py "deferred"))) m).isSome = true := by
        intro m member
        obtain ⟨f, filed_, judged⟩ := List.mem_filterMap.mp (by simpa using member)
        rw [notDeferredYet, Option.isSome_map, keyIn_isSome, (test f m judged).2, hashed f filed_]
      obtain ⟨deferrals, run⟩ := Option.isSome_iff_exists.mp (mapM_isSome_iff.mpr fresh)
      have moved : (facts.map judge).filterMap id ≠ [] ↔ ∃ f ∈ facts, (judge f).isSome = true := by
        rw [Ne, List.filterMap_map, List.filterMap_eq_nil_iff]
        simp [Option.isSome_iff_ne_none]
      have added : (deferrals.filterMap id).map (MovedDate.deferral reason) ≠ [] ↔
          ∃ f ∈ facts, (judge f).isSome = true ∧ (idsOf (turn.get (py "deferred"))).any
            (Json.sameKey (f.field "field_id")) = false := by
        rw [Ne, List.map_eq_nil_iff, ← Ne, filterMap_ne_nil_iff run]
        constructor
        · rintro ⟨m, member, info, here⟩
          obtain ⟨f, filed_, judged⟩ := List.mem_filterMap.mp (by simpa using member)
          obtain ⟨_, absent⟩ := notDeferredYet_eq_some here
          rw [(test f m judged).2] at absent
          exact ⟨f, filed_, by rw [judged]; rfl, (keyIn_eq_some absent).2.symm⟩
        · rintro ⟨f, filed_, moves, absent⟩
          obtain ⟨m, judged⟩ := Option.isSome_iff_exists.mp moves
          refine ⟨m, List.mem_filterMap.mpr ⟨some m, List.mem_map.mpr ⟨f, filed_, judged⟩, rfl⟩, m, ?_⟩
          have same := (test f m judged).2
          rw [notDeferredYet, same, keyIn_of_hashable (hashed f filed_), absent]
          rfl
      rw [run]
      dsimp only [Option.bind_eq_bind, Option.bind_some]
      rw [isSome_bind_iff, appendDeferred_isSome, added]
      refine and_congr_right fun appends => ?_
      obtain ⟨deferred, appended⟩ := Option.isSome_iff_exists.mp
        ((appendDeferred_isSome turn _).mpr fun some_ => appends (added.mp some_))
      rw [appended, ← moved]
      simp only [Option.some.injEq, forall_eq']
      have before : deferred.get (py "facts_dropped") = turn.get (py "facts_dropped") := by
        rcases appendDeferred_eq_some appended with ⟨_, rfl⟩ | ⟨_, _, rfl, _⟩
        · rfl
        · exact Dict.get_set_of_ne _ _ (by decide)
      split
      · next none_ => exact iff_of_true rfl fun some_ => absurd (List.isEmpty_iff.mp none_) some_
      · next some_ =>
        rw [List.isEmpty_iff] at some_
        rw [isSome_bind_iff, appendTo_isSome, Dict.get_set_of_ne _ _ (by decide), before,
          forall_prop_of_true some_]
        exact and_iff_left fun _ _ => rfl
  | _ => simp

/-! ### The guards that mark -/

theorem outsideEntry_isSome (fieldOptions : Assoc (List PyStr)) (reason : PyStr) {f : Json}
    (hashes : (f.field "field_id").hashable = true) :
    (outsideEntry fieldOptions reason f).isSome = true := by
  rw [outsideEntry]
  split
  · split
    · refine isSome_ite rfl ?_
      rw [Option.isSome_map, keyIn_isSome, hashes]
    · exact isSome_ite rfl rfl
    · rfl
  · rfl

theorem markOutside_isSome (fieldOptions : Assoc (List PyStr)) (reason : PyStr) {turn : Dict}
    (hashed : hashedIds (turn.get (py "facts")) = true) :
    (markOutside fieldOptions reason turn).isSome = true := by
  rw [markOutside]
  cases filed : turn.get (py "facts") with
  | arr facts =>
      rw [filed, hashedIds_iff] at hashed
      rw [Option.bind_eq_bind, isSome_bind_iff, mapM_isSome_iff]
      refine ⟨fun f member => outsideEntry_isSome _ _ (hashed f member), fun entries _ => ?_⟩
      exact isSome_ite rfl rfl
  | _ => rfl

theorem markValuesOutsideDeclaredOptions_isSome (agenda : Option PyStr) (choiceFields : Json)
    {turn : Dict} (hashed : hashedIds (turn.get (py "facts")) = true) :
    (markValuesOutsideDeclaredOptions agenda choiceFields turn).isSome = true := by
  rw [markValuesOutsideDeclaredOptions]
  exact isSome_ite (markOutside_isSome _ _ hashed) (isSome_ite rfl (markOutside_isSome _ _ hashed))

theorem markBatteryShortfall_isSome (agenda : Option PyStr) {turn : Dict}
    (hashed : hashedIds (turn.get (py "facts")) = true) :
    (markBatteryShortfall agenda turn).isSome = true := by
  rw [markBatteryShortfall]
  cases filed : turn.get (py "facts") with
  | arr facts =>
      rw [filed] at hashed
      dsimp only
      rw [fieldIdSet_of_hashed hashed]
      rfl
  | _ => rfl

end

end GhostPour.N400
