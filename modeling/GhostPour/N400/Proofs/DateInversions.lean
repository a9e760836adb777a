/-
Module: GhostPour.N400.Proofs.DateInversions
Layer: Proofs
Purpose: Whether the date check flags the rows that certainly end before they start, and no others, and
  whether a response without the flagged facts has none left to flag.
Trusted boundary: none
Main exports: RowName, sidesOf, pairOf, FlagsExactly, DropCures, Exposes, inversions_exact_and_cured_iff
-/
import GhostPour.Library.Dicts
import GhostPour.Library.Fallible
import GhostPour.N400.Proofs.DateSpans
import GhostPour.N400.Proofs.TurnText

namespace GhostPour.N400

open Regex

/-! ### Field ids of rows -/

/-- `[A-Za-z0-9_]`. -/
def isNameChar (x : Nat) : Bool := isAsciiAlpha x || isAsciiDigit x || x == 95

/-- The name of a side of a row: its start, or its end. -/
def sideName : Bool → PyStr
  | true => py "from"
  | false => py "to"

/-- Nothing, or the newline that `$` leaves. -/
def Newline (t : PyStr) : Prop := t = [] ∨ t = [10]

theorem append_cons_inj {x : Nat} {a a' b b' : PyStr} (out : x ∉ a) (out' : x ∉ a')
    (same : a ++ x :: b = a' ++ x :: b') : a = a' ∧ b = b' := by
  induction a generalizing a' with
  | nil =>
      cases a' with
      | nil => exact ⟨rfl, (List.cons.inj same).2⟩
      | cons y a' => exact absurd ((List.cons.inj same).1 ▸ List.mem_cons_self) out'
  | cons y a ih =>
      cases a' with
      | nil => exact absurd ((List.cons.inj same).1 ▸ List.mem_cons_self) out
      | cons z a' =>
          obtain ⟨rfl, rest⟩ := List.cons.inj same
          obtain ⟨rfl, rfl⟩ := ih (fun member => out (List.mem_cons_of_mem _ member))
            (fun member => out' (List.mem_cons_of_mem _ member)) rest
          exact ⟨rfl, rfl⟩

section
variable [PyRuntime]

/-- `p\d+\.[A-Za-z0-9_]+`. -/
def RowName (row : PyStr) : Prop :=
  ∃ part name : PyStr, (part ≠ [] ∧ ∀ x ∈ part, isDecimal x = true) ∧
    (name ≠ [] ∧ ∀ x ∈ name, isNameChar x = true) ∧ row = py "p" ++ (part ++ (py "." ++ name))

theorem spells_rowName :
    Spells (seqs [lit "p".toList, plus digit, lit ".".toList, plus (.set isNameChar)]) RowName := by
  refine ((spells_lit "p".toList).seq ((spells_plus_set isDecimal).seq
    ((spells_lit ".".toList).seq (spells_plus_set isNameChar)))).congr fun row => ?_
  constructor
  · rintro ⟨_, _, rfl, ⟨part, _, digits, ⟨_, name, rfl, chars, rfl⟩, rfl⟩, rfl⟩
    exact ⟨part, name, digits, chars, rfl⟩
  · rintro ⟨part, name, digits, chars, rfl⟩
    exact ⟨_, _, rfl, ⟨part, _, digits, ⟨_, name, rfl, chars, rfl⟩, rfl⟩, rfl⟩

omit [PyRuntime] in
theorem spells_sideName :
    Spells (.alt (lit "from".toList) (lit "to".toList)) fun t => ∃ side, t = sideName side := by
  refine ((spells_lit "from".toList).alt (spells_lit "to".toList)).congr fun t => ?_
  constructor
  · rintro (rfl | rfl)
    · exact ⟨true, rfl⟩
    · exact ⟨false, rfl⟩
  · rintro ⟨side, rfl⟩
    cases side with
    | true => exact .inl rfl
    | false => exact .inr rfl

/-- The field id of a side of a row, with what `$` leaves after it. -/
def rowField (row : PyStr) (side : Bool) (rest : PyStr) : PyStr :=
  row ++ (py "." ++ (sideName side ++ rest))

/-- What `_DATED_ROW_FIELD` remembers. -/
theorem groups_datedRowField {fid : PyStr} {d : Cursor}
    (reached : d ∈ run datedRowField ⟨none, fid, []⟩) :
    ∃ row side, RowName row ∧ Newline d.after ∧ fid = rowField row side d.after ∧
      d.groups = [(2, sideName side), (1, row)] := by
  obtain ⟨c₀, begins, reached⟩ := mem_run_seqs.mp reached
  obtain ⟨c₁, first, reached⟩ := mem_run_seqs.mp reached
  obtain ⟨c₂, point, reached⟩ := mem_run_seqs.mp reached
  obtain ⟨c₃, last, reached⟩ := mem_run_seqs.mp reached
  obtain ⟨stops, ended⟩ := mem_run_test.mp reached
  obtain ⟨-, begun⟩ := mem_run_test.mp begins
  obtain ⟨row, isRow, split, remembered⟩ := (mem_run_group spells_rowName 1).mp first
  obtain ⟨_, rfl, split', moved⟩ := (spells_lit _ c₁ c₂).mp point
  obtain ⟨_, ⟨side, rfl⟩, split'', remembered'⟩ := (mem_run_group spells_sideName 2).mp last
  rw [begun] at split remembered
  refine ⟨row, side, isRow, ?_, ?_, ?_⟩
  · rw [ended]
    simpa [Newline] using stops
  · rw [ended, rowField, ← split'']
    exact split.trans (congrArg (row ++ ·) split')
  · rw [ended, remembered', moved, remembered]
    rfl

/-- The field ids of rows match it. -/
theorem run_datedRowField_ne_nil {row rest : PyStr} (isRow : RowName row) (side : Bool)
    (newline : Newline rest) : run datedRowField ⟨none, rowField row side rest, []⟩ ≠ [] := by
  let c₁ : Cursor := ⟨row.getLast?.or none, py "." ++ (sideName side ++ rest), [(1, row)]⟩
  let c₂ : Cursor := c₁.moved (py ".") (sideName side ++ rest)
  let c₃ : Cursor := ⟨(sideName side).getLast?.or c₂.prev, rest, [(2, sideName side), (1, row)]⟩
  have begins : ⟨none, rowField row side rest, []⟩ ∈ run start ⟨none, rowField row side rest, []⟩ :=
    mem_run_test.mpr ⟨rfl, rfl⟩
  have first := (mem_run_group spells_rowName 1 (c := ⟨none, rowField row side rest, []⟩) (d := c₁)).mpr
    ⟨row, isRow, rfl, rfl⟩
  have point : c₂ ∈ run (lit ".".toList) c₁ := (spells_lit _ c₁ c₂).mpr ⟨_, rfl, rfl, rfl⟩
  have last : c₃ ∈ run (.group 2 (.alt (lit "from".toList) (lit "to".toList))) c₂ :=
    (mem_run_group spells_sideName 2).mpr ⟨_, ⟨side, rfl⟩, rfl, rfl⟩
  have stops : c₃ ∈ run Regex.stop c₃ := by
    refine mem_run_test.mpr ⟨?_, rfl⟩
    rcases newline with empty | line
    · simp [c₃, empty]
    · simp [c₃, line]
  exact List.ne_nil_of_mem (mem_run_seqs.mpr ⟨_, begins, mem_run_seqs.mpr ⟨_, first,
    mem_run_seqs.mpr ⟨_, point, mem_run_seqs.mpr ⟨_, last, stops⟩⟩⟩⟩)

theorem point_not_mem_part {t : PyStr} (digits : ∀ x ∈ t, isDecimal x = true) : 46 ∉ t := by
  intro member
  have point := digits 46 member
  rw [isDecimal, PyRuntime.decimal_ascii 46 (by decide)] at point
  cases point

omit [PyRuntime] in
theorem point_not_mem_name {t : PyStr} (chars : ∀ x ∈ t, isNameChar x = true) : 46 ∉ t := by
  intro member
  have point := chars 46 member
  revert point
  decide

/-- A field id of a row is one in one way only. -/
theorem rowField_inj {row row' rest rest' : PyStr} {side side' : Bool} (isRow : RowName row)
    (isRow' : RowName row') (newline : Newline rest) (newline' : Newline rest')
    (same : rowField row side rest = rowField row' side' rest') :
    row = row' ∧ side = side' ∧ rest = rest' := by
  obtain ⟨part, name, ⟨-, digits⟩, ⟨-, chars⟩, rfl⟩ := isRow
  obtain ⟨part', name', ⟨-, digits'⟩, ⟨-, chars'⟩, rfl⟩ := isRow'
  have parted : part ++ 46 :: (name ++ 46 :: (sideName side ++ rest)) =
      part' ++ 46 :: (name' ++ 46 :: (sideName side' ++ rest')) := by
    have whole := (List.cons.inj same).2
    simpa [rowField, py] using whole
  obtain ⟨rfl, named⟩ := append_cons_inj (point_not_mem_part digits) (point_not_mem_part digits') parted
  obtain ⟨rfl, sides⟩ := append_cons_inj (point_not_mem_name chars) (point_not_mem_name chars') named
  refine ⟨rfl, ?_⟩
  rcases newline with rfl | rfl <;> rcases newline' with rfl | rfl <;> cases side <;> cases side' <;>
    revert sides <;> decide

/-- A match of `_DATED_ROW_FIELD` remembers the row and the side. -/
theorem matchStart_datedRowField {fid : PyStr} {m : Match}
    (found : matchStart datedRowField fid = some m) :
    ∃ row side rest, RowName row ∧ Newline rest ∧ fid = rowField row side rest ∧
      groupText m 1 = row ∧ groupText m 2 = sideName side := by
  obtain ⟨d, first, rfl⟩ := Option.map_eq_some_iff.mp found
  obtain ⟨row, side, isRow, newline, split, groups⟩ := groups_datedRowField (List.mem_of_head? first)
  have text : ∀ n, groupText (matchBetween 0 ⟨none, fid, []⟩ d) n =
      ((d.groups.find? (·.1 = n)).map Prod.snd).getD [] := fun n => rfl
  refine ⟨row, side, d.after, isRow, newline, split, ?_, ?_⟩
  · rw [text, groups]
    rfl
  · rw [text, groups]
    rfl

/-- The other side of the row of a field id, and whether the id is that of the start. -/
def sidesOf (fid : PyStr) : Option (PyStr × Bool) :=
  (matchStart datedRowField fid).map fun m =>
    (groupText m 1 ++ (if groupText m 2 == py "from" then py ".to" else py ".from"),
      groupText m 2 == py "from")

theorem sidesOf_eq_some {fid other : PyStr} {side : Bool} (sides : sidesOf fid = some (other, side)) :
    ∃ row rest, RowName row ∧ Newline rest ∧ fid = rowField row side rest ∧
      other = rowField row (!side) [] := by
  obtain ⟨m, found, pair⟩ := Option.map_eq_some_iff.mp sides
  obtain ⟨row, side', rest, isRow, newline, split, first, second⟩ := matchStart_datedRowField found
  rw [first, second] at pair
  cases pair
  refine ⟨row, rest, isRow, newline, ?_, ?_⟩
  · rw [split]
    cases side' <;> rfl
  · cases side' <;> rfl

/-- The other side's other side is the first, up to a newline. -/
theorem sidesOf_rowField {row : PyStr} (isRow : RowName row) (side : Bool) :
    sidesOf (rowField row side []) = some (rowField row (!side) [], side) := by
  have runs := run_datedRowField_ne_nil isRow side (.inl rfl : Newline [])
  have matches_ : (matchStart datedRowField (rowField row side [])).isSome = true := by
    rw [matchStart, Option.isSome_map, List.isSome_head?]
    simpa using runs
  obtain ⟨m, found⟩ := Option.isSome_iff_exists.mp matches_
  obtain ⟨⟨other, side'⟩, sides⟩ : ∃ pair, sidesOf (rowField row side []) = some pair := by
    rw [sidesOf, found]
    exact ⟨_, rfl⟩
  obtain ⟨row', rest, isRow', newline, same, whole⟩ := sidesOf_eq_some sides
  obtain ⟨rfl, rfl, -⟩ := rowField_inj isRow isRow' (.inl rfl) newline same
  rw [sides, whole]

/-! ### Flagged dates -/

/-- The facts of a response. -/
def factsIn (text : PyStr) : List Json :=
  match turnOf text with
  | some turn =>
      match turn.get (py "facts") with
      | .arr facts => facts
      | _ => []
  | none => []

/-- The dates that a response mints. -/
def mintedOf (text : PyStr) : Assoc Json := mintedDates (factsIn text)

theorem dateInversions_eq (text : PyStr) (knownFacts : Option PyStr) :
    dateInversions text knownFacts = (mintedOf text).filterMap fun entry =>
      inversionOf (mintedOf text) (knownDatedValues knownFacts) entry.1 entry.2 := by
  unfold dateInversions mintedOf factsIn
  cases turnOf text with
  | none => rfl
  | some turn =>
      dsimp only
      cases turn.get (py "facts") <;> rfl

/-- The start and the end of a row, given one side and the other. -/
def ordered (side : Bool) (value other : Json) : Json × Json :=
  if side then (value, other) else (other, value)

/-- The row that a minted date is half of: the other half in this answer, else on file. -/
def pairOf (minted : Assoc Json) (known : Assoc PyStr) (fid : PyStr) (value : Json) :
    Option (Json × Json) :=
  (sidesOf fid).bind fun sides =>
    (otherSide minted known sides.1).map fun other => ordered sides.2 value other.1

/-- The row of a minted date counts as inverted. -/
def Inverted (minted : Assoc Json) (known : Assoc PyStr) (fid : PyStr) (value : Json) : Prop :=
  ∃ pair ∈ pairOf minted known fid value, certainlyInverted pair.1 pair.2 = true

theorem inversionOf_isSome {minted : Assoc Json} {known : Assoc PyStr} {fid : PyStr} {value : Json} :
    (inversionOf minted known fid value).isSome = true ↔ Inverted minted known fid value := by
  unfold inversionOf Inverted pairOf sidesOf
  cases matchStart datedRowField fid with
  | none => simp
  | some m =>
      simp only [Option.bind_some, Option.map_some]
      cases side : groupText m 2 == py "from" with
      | true =>
          simp only [if_true, ordered]
          cases otherSide minted known (groupText m 1 ++ py ".to") with
          | none => simp
          | some other => cases inverted : certainlyInverted value other.1 <;> simp [inverted]
      | false =>
          simp only [Bool.false_eq_true, if_false, ordered]
          cases otherSide minted known (groupText m 1 ++ py ".from") with
          | none => simp
          | some other => cases inverted : certainlyInverted other.1 value <;> simp [inverted]

theorem inversionOf_fieldId {minted : Assoc Json} {known : Assoc PyStr} {fid : PyStr} {value : Json}
    {inversion : Inversion} (found : inversionOf minted known fid value = some inversion) :
    inversion.fieldId = fid := by
  obtain ⟨m, _, inRow⟩ := Option.bind_eq_some_iff.mp found
  obtain ⟨⟨otherValue, source⟩, other, outcome⟩ := Option.bind_eq_some_iff.mp inRow
  dsimp only at outcome
  by_cases inverted : (if (groupText m 2 == py "from") = true then certainlyInverted value otherValue
      else certainlyInverted otherValue value) = true
  · rw [if_pos inverted] at outcome
    cases outcome
    rfl
  · rw [if_neg inverted] at outcome
    cases outcome

theorem mintedDates_nodup (facts : List Json) : ((mintedDates facts).map Prod.fst).Nodup := by
  refine List.foldlRecOn (motive := fun out : Assoc Json => (out.map Prod.fst).Nodup) facts _
    List.nodup_nil fun out distinct f _ => ?_
  unfold noteDate
  split
  · split
    · exact Assoc.nodup_set distinct _ _
    · exact distinct
  · exact distinct

theorem mintedOf_nodup (text : PyStr) : ((mintedOf text).map Prod.fst).Nodup := mintedDates_nodup _

/-- The field id is among the inversions. -/
def Flagged (text : PyStr) (knownFacts : Option PyStr) (fid : PyStr) : Prop :=
  ∃ inversion ∈ dateInversions text knownFacts, inversion.fieldId = fid

theorem flagged_iff {text : PyStr} {knownFacts : Option PyStr} {fid : PyStr} :
    Flagged text knownFacts fid ↔ ∃ value, (mintedOf text).get fid = some value ∧
      Inverted (mintedOf text) (knownDatedValues knownFacts) fid value := by
  unfold Flagged
  rw [dateInversions_eq]
  constructor
  · rintro ⟨inversion, member, rfl⟩
    obtain ⟨⟨fid, value⟩, minted, found⟩ := List.mem_filterMap.mp member
    rw [inversionOf_fieldId found]
    refine ⟨value, Assoc.get_of_mem (mintedOf_nodup text) minted, inversionOf_isSome.mp ?_⟩
    rw [found]
    rfl
  · rintro ⟨value, minted, inverted⟩
    obtain ⟨inversion, found⟩ := Option.isSome_iff_exists.mp (inversionOf_isSome.mpr inverted)
    exact ⟨inversion, List.mem_filterMap.mpr ⟨(fid, value), Assoc.mem_of_get minted, found⟩,
      inversionOf_fieldId found⟩

/-- A field id is flagged exactly when the response mints a date for it whose row surely starts after it
ends. -/
def FlagsExactly (text : PyStr) (knownFacts : Option PyStr) : Prop :=
  ∀ fid, Flagged text knownFacts fid ↔ ∃ value, (mintedOf text).get fid = some value ∧
    ∃ pair ∈ pairOf (mintedOf text) (knownDatedValues knownFacts) fid value,
      SurelyLater pair.1 pair.2

/-- The dates of each row that the response mints a half of compare right. -/
def RowsCompare (text : PyStr) (knownFacts : Option PyStr) : Prop :=
  ∀ fid value, (mintedOf text).get fid = some value →
    ∀ pair ∈ pairOf (mintedOf text) (knownDatedValues knownFacts) fid value,
      ComparesRight pair.1 pair.2

theorem flagsExactly_iff (text : PyStr) (knownFacts : Option PyStr) :
    FlagsExactly text knownFacts ↔ RowsCompare text knownFacts := by
  unfold FlagsExactly RowsCompare
  refine forall_congr' fun fid => ?_
  rw [flagged_iff]
  cases (mintedOf text).get fid with
  | none => simp only [reduceCtorEq, false_and, exists_false, false_implies, implies_true]
  | some value =>
      simp only [Option.some_inj, exists_eq_left', forall_eq']
      unfold Inverted
      cases pairOf (mintedOf text) (knownDatedValues knownFacts) fid value with
      | none => simp only [Option.mem_def, reduceCtorEq, false_and, exists_false, false_implies, implies_true]
      | some pair =>
          simp only [Option.mem_some_iff, exists_eq_left', forall_eq']
          exact inverted_iff_surelyLater_iff pair.1 pair.2

/-! ### Without the flagged facts -/

/-- A set can hold the field id of a fact. -/
def HasHashableId (f : Json) : Prop :=
  ∀ d, f = .obj d → (Dict.get d (py "field_id")).hashable = true

omit [PyRuntime] in
theorem fieldIdIn_isSome_iff {ids : List PyStr} {f : Json} :
    (fieldIdIn ids f).isSome = true ↔ HasHashableId f := by
  unfold fieldIdIn HasHashableId
  cases f with
  | obj d =>
      simp only [Json.obj.injEq, forall_eq']
      cases Dict.get d (py "field_id") <;> simp [Json.hashable]
  | _ => simp

/-- The fact is not dropped. -/
def stays (ids : List PyStr) (f : Json) : Bool := (fieldIdIn ids f).any Bool.not

omit [PyRuntime] in
/-- A dropped fact has one of the ids. -/
theorem stays_eq_false {ids : List PyStr} {f : Json} (hashable : HasHashableId f) :
    stays ids f = false ↔ ∃ fid ∈ ids, f.field "field_id" = .str fid := by
  unfold stays fieldIdIn Json.field
  cases f with
  | obj d =>
      have here := hashable d rfl
      dsimp only
      cases id : Dict.get d (py "field_id") with
      | str fid => simp
      | arr items =>
          rw [id] at here
          cases here
      | obj members =>
          rw [id] at here
          cases here
      | _ => simp [Json.hashable]
  | _ => simp

/-- Without an id that no set can hold the flagged facts, and no others, are dropped. -/
theorem dropInvertedDates_eq {text : PyStr} (inversions : List Inversion)
    (hashable : ∀ f ∈ factsIn text, HasHashableId f) :
    ∃ dropped, dropInvertedDates text inversions = some dropped ∧
      factsIn dropped = (factsIn text).filter (stays (inversions.map (·.fieldId))) := by
  unfold dropInvertedDates
  cases read : turnOf text with
  | none =>
      have empty : factsIn text = [] := by
        unfold factsIn
        rw [read]
      exact ⟨text, rfl, by rw [empty, List.filter_nil]⟩
  | some turn =>
      dsimp only
      cases listed : turn.get (py "facts") with
      | arr facts =>
          have whole : factsIn text = facts := by
            unfold factsIn
            rw [read]
            dsimp only
            rw [listed]
          rw [whole] at hashable ⊢
          have judged : (facts.mapM (fieldIdIn (inversions.map (·.fieldId)))).isSome = true :=
            mapM_isSome_iff.mpr fun f member => fieldIdIn_isSome_iff.mpr (hashable f member)
          obtain ⟨drops, run⟩ := Option.isSome_iff_exists.mp judged
          have kept := filter_zip_of_mapM Bool.not run
          have start := canonical_turnOf read
          have canonical : (Json.obj (turn.set (py "facts")
              (.arr (facts.filter (stays (inversions.map (·.fieldId))))))).Canonical := by
            apply canonical_set start
            rw [canonical_arr_iff]
            intro f member
            have each := canonical_get start (py "facts")
            rw [listed, canonical_arr_iff] at each
            exact each f (List.mem_of_mem_filter member)
          refine ⟨dumps (.obj (turn.set (py "facts") (.arr (facts.filter
            (stays (inversions.map (·.fieldId))))))), ?_, ?_⟩
          · dsimp only
            rw [run]
            change some (dumps (.obj (turn.set (py "facts") (.arr
              (((facts.zip drops).filter fun f => !f.2).map Prod.fst))))) = _
            rw [kept]
            rfl
          · unfold factsIn
            rw [turnOf_dumps canonical]
            dsimp only
            rw [Dict.get_set_self]
      | _ =>
          have empty : factsIn text = [] := by
            unfold factsIn
            rw [read]
            dsimp only
            rw [listed]
          exact ⟨text, rfl, by rw [empty, List.filter_nil]⟩

/-- With one the drop raises. -/
theorem dropInvertedDates_hashable {text : PyStr} {inversions : List Inversion} {dropped : PyStr}
    (run : dropInvertedDates text inversions = some dropped) :
    ∀ f ∈ factsIn text, HasHashableId f := by
  unfold factsIn
  unfold dropInvertedDates at run
  cases read : turnOf text with
  | none =>
      intro f member
      cases member
  | some turn =>
      rw [read] at run
      dsimp only at run ⊢
      cases listed : turn.get (py "facts") with
      | arr facts =>
          rw [listed] at run
          obtain ⟨drops, judged, -⟩ := Option.bind_eq_some_iff.mp run
          have each := mapM_isSome_iff.mp (Option.isSome_iff_exists.mpr ⟨drops, judged⟩)
          exact fun f member => fieldIdIn_isSome_iff.mp (each f member)
      | _ =>
          intro f member
          cases member

theorem get_noteDate_named (out : Assoc Json) {f : Json} {fid : PyStr}
    (named : f.field "field_id" = .str fid) (dated : (matchStart datedRowField fid).isSome = true) :
    (noteDate out f).get fid = some (f.field "value") := by
  unfold noteDate
  rw [named]
  dsimp only
  rw [if_pos dated, Assoc.get_set_self]

theorem get_noteDate_other (out : Assoc Json) {f : Json} {fid : PyStr}
    (other : ¬(f.field "field_id" = .str fid ∧ (matchStart datedRowField fid).isSome = true)) :
    (noteDate out f).get fid = out.get fid := by
  unfold noteDate
  split
  · next k id =>
    split
    · next dated =>
      have apart : fid ≠ k := by
        rintro rfl
        exact other ⟨id, dated⟩
      exact Assoc.get_set_of_ne apart out _
    · rfl
  · rfl

/-- Without the facts of some ids the dates of these ids are not minted, and the others are. -/
theorem get_foldl_noteDate {ids : List PyStr} {facts : List Json} {fid : PyStr}
    (hashable : ∀ f ∈ facts, HasHashableId f) {out out' : Assoc Json}
    (same : out.get fid = if fid ∈ ids then none else out'.get fid) :
    ((facts.filter (stays ids)).foldl noteDate out).get fid =
      if fid ∈ ids then none else (facts.foldl noteDate out').get fid := by
  induction facts generalizing out out' with
  | nil => exact same
  | cons f facts ih =>
      rw [List.forall_mem_cons] at hashable
      rw [List.foldl_cons]
      cases kept : stays ids f with
      | true =>
          rw [List.filter_cons_of_pos kept, List.foldl_cons]
          apply ih hashable.2
          by_cases named : f.field "field_id" = .str fid ∧ (matchStart datedRowField fid).isSome = true
          · have other : fid ∉ ids := by
              intro listed
              rw [(stays_eq_false hashable.1).mpr ⟨fid, listed, named.1⟩] at kept
              cases kept
            rw [get_noteDate_named _ named.1 named.2, get_noteDate_named _ named.1 named.2,
              if_neg other]
          · rw [get_noteDate_other _ named, get_noteDate_other _ named, same]
      | false =>
          rw [List.filter_cons_of_neg (by simp [kept])]
          apply ih hashable.2
          rw [same]
          by_cases listed : fid ∈ ids
          · rw [if_pos listed, if_pos listed]
          · obtain ⟨k, listed', name⟩ := (stays_eq_false hashable.1).mp kept
            have other : ¬(f.field "field_id" = .str fid ∧
                (matchStart datedRowField fid).isSome = true) := by
              rintro ⟨named, -⟩
              rw [name] at named
              exact listed (Json.str.inj named ▸ listed')
            rw [if_neg listed, if_neg listed, get_noteDate_other _ other]

/-- The dates that are left when the flagged facts are dropped. -/
theorem get_mintedOf_dropped {text dropped : PyStr} {ids : List PyStr}
    (hashable : ∀ f ∈ factsIn text, HasHashableId f)
    (left : factsIn dropped = (factsIn text).filter (stays ids)) (fid : PyStr) :
    (mintedOf dropped).get fid = if fid ∈ ids then none else (mintedOf text).get fid := by
  unfold mintedOf mintedDates
  rw [left]
  apply get_foldl_noteDate hashable
  split <;> rfl

/-- After the drop no date is flagged. -/
def DropCures (text : PyStr) (knownFacts : Option PyStr) : Prop :=
  ∃ dropped, dropInvertedDates text (dateInversions text knownFacts) = some dropped ∧
    dateInversions dropped knownFacts = []

/-- The response mints the date, and its row counts as inverted. -/
def MintedInverted (minted : Assoc Json) (known : Assoc PyStr) (fid : PyStr) : Prop :=
  ∃ value, minted.get fid = some value ∧ Inverted minted known fid value

/-- A date that stays, while the other side of its row is dropped, and an older value of that side is on
file against which the row counts as inverted. -/
def Exposes (minted : Assoc Json) (known : Assoc PyStr) (fid : PyStr) : Prop :=
  ¬MintedInverted minted known fid ∧ ∃ value other side filed, minted.get fid = some value ∧
    sidesOf fid = some (other, side) ∧ MintedInverted minted known other ∧
    known.get other = some filed ∧
    certainlyInverted (ordered side value (.str filed)).1 (ordered side value (.str filed)).2 = true

/-- Only the newline that `$` lets through tells a side from its other side's other side. -/
theorem Exposes.newline {minted : Assoc Json} {known : Assoc PyStr} {fid : PyStr}
    (exposes : Exposes minted known fid) : fid.getLast? = some 10 := by
  obtain ⟨stands, value, other, side, filed, isMinted, sides, ⟨value', minted', pair, row, inverted⟩, -⟩ :=
    exposes
  obtain ⟨name, rest, isRow, newline, rfl, rfl⟩ := sidesOf_eq_some sides
  rcases newline with rfl | rfl
  · refine absurd ⟨value, isMinted, pair, ?_, inverted⟩ stands
    have back := sidesOf_rowField isRow (!side)
    rw [Bool.not_not] at back
    unfold pairOf at row ⊢
    rw [back, Option.bind_some, otherSide, isMinted] at row
    rw [sides, Option.bind_some, otherSide, minted']
    change some (ordered (!side) value' value) = some pair at row
    change some (ordered side value value') = some pair
    rw [← row]
    cases side <;> rfl
  · unfold rowField
    simp [List.getLast?_append]

/-- A date that stays is flagged after the drop exactly when it exposes an older one. -/
theorem inverted_dropped_iff {minted left : Assoc Json} {known : Assoc PyStr} {fid : PyStr} {value : Json}
    (isMinted : minted.get fid = some value) (stands : ¬MintedInverted minted known fid)
    (kept : ∀ k, left.get k = none ∧ MintedInverted minted known k ∨
      left.get k = minted.get k ∧ ¬MintedInverted minted known k) :
    Inverted left known fid value ↔ Exposes minted known fid := by
  have upright : ¬Inverted minted known fid value := fun inverted => stands ⟨value, isMinted, inverted⟩
  cases sides : sidesOf fid with
  | none =>
      refine iff_of_false ?_ ?_
      · rintro ⟨pair, row, -⟩
        rw [pairOf, sides] at row
        cases row
      · rintro ⟨-, value', other, side, filed, -, sides', -⟩
        rw [sides] at sides'
        cases sides'
  | some found =>
      obtain ⟨other, side⟩ := found
      rcases kept other with ⟨none_, flagged⟩ | ⟨same, unflagged⟩
      · -- the other side is dropped, and what is on file takes its place
        have onFile : pairOf left known fid value =
            (known.get other).map fun filed => ordered side value (.str filed) := by
          rw [pairOf, sides, Option.bind_some, otherSide, none_]
          dsimp only
          rw [Option.map_map]
          rfl
        unfold Inverted
        rw [onFile]
        constructor
        · rintro ⟨pair, row, inverted⟩
          obtain ⟨filed, older, rfl⟩ := Option.map_eq_some_iff.mp row
          exact ⟨stands, value, other, side, filed, isMinted, sides, flagged, older, inverted⟩
        · rintro ⟨-, value', other', side', filed, minted', sides', -, older, inverted⟩
          rw [sides] at sides'
          rw [isMinted] at minted'
          cases sides'
          cases minted'
          exact ⟨_, Option.map_eq_some_iff.mpr ⟨filed, older, rfl⟩, inverted⟩
      · -- the other side is as it was
        have unchanged : pairOf left known fid value = pairOf minted known fid value := by
          rw [pairOf, pairOf, sides, Option.bind_some, Option.bind_some, otherSide, otherSide, same]
        refine iff_of_false ?_ ?_
        · rintro ⟨pair, row, inverted⟩
          rw [unchanged] at row
          exact upright ⟨pair, row, inverted⟩
        · rintro ⟨-, value', other', side', filed, -, sides', flagged, -⟩
          rw [sides] at sides'
          cases sides'
          exact unflagged flagged

/-- What the drop leaves, when it does not raise: every minted date but the flagged ones. -/
theorem exists_dropped {text : PyStr} (knownFacts : Option PyStr)
    (hashable : ∀ f ∈ factsIn text, HasHashableId f) :
    ∃ dropped, dropInvertedDates text (dateInversions text knownFacts) = some dropped ∧
      ∀ fid,
        (mintedOf dropped).get fid = none ∧
            MintedInverted (mintedOf text) (knownDatedValues knownFacts) fid ∨
          (mintedOf dropped).get fid = (mintedOf text).get fid ∧
            ¬MintedInverted (mintedOf text) (knownDatedValues knownFacts) fid := by
  obtain ⟨dropped, run, left⟩ := dropInvertedDates_eq (dateInversions text knownFacts) hashable
  refine ⟨dropped, run, fun fid => ?_⟩
  have flagged : fid ∈ (dateInversions text knownFacts).map (·.fieldId) ↔
      MintedInverted (mintedOf text) (knownDatedValues knownFacts) fid := by
    rw [List.mem_map]
    exact flagged_iff
  rw [get_mintedOf_dropped hashable left fid, ← flagged]
  by_cases listed : fid ∈ (dateInversions text knownFacts).map (·.fieldId)
  · exact .inl ⟨if_pos listed, listed⟩
  · exact .inr ⟨if_neg listed, listed⟩

/-- The drop leaves nothing to flag exactly when it does not raise and exposes no older date. -/
theorem dropCures_iff (text : PyStr) (knownFacts : Option PyStr) :
    DropCures text knownFacts ↔ (∀ f ∈ factsIn text, HasHashableId f) ∧
      ∀ fid, fid.getLast? = some 10 →
        ¬Exposes (mintedOf text) (knownDatedValues knownFacts) fid := by
  constructor
  · rintro ⟨dropped, run, none_⟩
    have hashable := dropInvertedDates_hashable run
    obtain ⟨dropped', run', kept⟩ := exists_dropped knownFacts hashable
    obtain rfl : dropped = dropped' := Option.some.inj (run.symm.trans run')
    refine ⟨hashable, fun fid _ exposes => ?_⟩
    have stands := exposes.1
    obtain ⟨value, _, _, _, isMinted, _⟩ := exposes.2
    have inverted := (inverted_dropped_iff isMinted stands kept).mpr exposes
    have still : (mintedOf dropped).get fid = some value := by
      rcases kept fid with ⟨_, flagged⟩ | ⟨same, _⟩
      · exact absurd flagged stands
      · exact same.trans isMinted
    obtain ⟨inversion, member, -⟩ := flagged_iff.mpr ⟨value, still, inverted⟩
    rw [none_] at member
    cases member
  · rintro ⟨hashable, hidden⟩
    obtain ⟨dropped, run, kept⟩ := exists_dropped knownFacts hashable
    refine ⟨dropped, run, ?_⟩
    rw [List.eq_nil_iff_forall_not_mem]
    intro inversion member
    obtain ⟨value, still, inverted⟩ := flagged_iff.mp ⟨inversion, member, rfl⟩
    rcases kept inversion.fieldId with ⟨gone, _⟩ | ⟨same, stands⟩
    · rw [gone] at still
      cases still
    · have exposes := (inverted_dropped_iff (same.symm.trans still) stands kept).mp inverted
      exact hidden _ exposes.newline exposes

/-- For every response and known facts: the flags are exactly the minted rows that surely start after they
end, and the response without them has none left, if and only if the dates of its rows compare right as
texts, a set can hold the field id of each of its facts, and no date whose field id ends in a newline
exposes an older one. -/
theorem inversions_exact_and_cured_iff (text : PyStr) (knownFacts : Option PyStr) :
    FlagsExactly text knownFacts ∧ DropCures text knownFacts ↔
      RowsCompare text knownFacts ∧ (∀ f ∈ factsIn text, HasHashableId f) ∧
        ∀ fid, fid.getLast? = some 10 →
          ¬Exposes (mintedOf text) (knownDatedValues knownFacts) fid := by
  rw [flagsExactly_iff, dropCures_iff]

end

/-! ### The thirty-first of February -/

/-- A response whose start is no day of the calendar, with a fact whose field id is a list. -/
def februaryResponse : PyStr :=
  py "\x7b\"facts\": [" ++
    py "\x7b\"field_id\": \"p4.home.from\", \"value\": \"2019-02-31\"\x7d, " ++
    py "\x7b\"field_id\": \"p4.home.to\", \"value\": \"2019-02-28\"\x7d, " ++
    py "\x7b\"field_id\": [\"p4.home.from\"]\x7d]\x7d"

/-- Its row is flagged although the start means no day, and the drop raises. -/
theorem february_flagged_and_kept :
    letI := PyRuntime.ascii
    ¬FlagsExactly februaryResponse none ∧ ¬DropCures februaryResponse none := by
  let _ := PyRuntime.ascii
  have flagged : (dateInversions februaryResponse none).any
      (fun inversion => inversion.fieldId == py "p4.home.from") = true := by decide +kernel
  have start : ((mintedOf februaryResponse).get (py "p4.home.from")).all (fun value =>
      (pairOf (mintedOf februaryResponse) (knownDatedValues none) (py "p4.home.from") value).all
        fun pair => decide (readDate pair.1 = some (.day 2019 2 31))) = true := by decide +kernel
  have raises : (dropInvertedDates februaryResponse (dateInversions februaryResponse none)).isNone =
      true := by decide +kernel
  constructor
  · intro exactly
    obtain ⟨inversion, member, same⟩ := List.any_eq_true.mp flagged
    obtain ⟨value, minted, pair, row, ⟨date, reading, read, allows⟩, -⟩ :=
      (exactly _).mp ⟨inversion, member, beq_iff_eq.mp same⟩
    rw [minted, Option.all_some, show pairOf _ _ _ _ = some pair from row, Option.all_some,
      decide_eq_true_eq, read, Option.some_inj] at start
    rw [start] at allows
    obtain ⟨year, month, day⟩ := allows
    have le := date.day_le
    rw [year, month, day] at le
    exact absurd le (by decide)
  · rintro ⟨dropped, run, -⟩
    rw [run] at raises
    cases raises

end GhostPour.N400
