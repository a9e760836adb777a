/-
Module: GhostPour.Shares.Proofs.BoundedReads
Layer: Proofs
Purpose: How much the reader of a share's archive decompresses. What it returns is charged to the budget
  and never exceeds it; what it reads of an entry that turns out too large is charged to nothing, so it
  is exactly those bytes that the bound on the whole depends on.
Trusted boundary: none
Main exports: Entry.size, pastRoom, kept, wasted, readNames, opened, Bounded, readLoop_eq, readAll,
  readAll_tally, readBundle_tally, readBundle_bounded_iff
-/
import GhostPour.Shares.ShareBundle

namespace GhostPour.Shares

/-! ### Sizes -/

/-- How many bytes the chunks have. -/
def sizeOf (chunks : List Chunk) : Nat := (chunks.map fun c => c.bytes.length).sum

/-- What an entry really decompresses to. -/
def Entry.size (e : Entry) : Nat := sizeOf e.chunks

/-- The bytes of the chunks up to the first one for which there is no room. -/
def pastRoom (room : Nat) : List Chunk → Nat
  | [] => 0
  | c :: rest =>
      if room < c.bytes.length then c.bytes.length
      else c.bytes.length + pastRoom (room - c.bytes.length) rest

/-- How much of an entry there is room for. -/
def room (budget : Nat) : Nat := min maxEntryBytes budget

/-- The bytes of the entries that fit, one after the other, up to an entry on which the library raises. -/
def kept (budget : Nat) : List Entry → Nat
  | [] => 0
  | e :: es =>
      if e.size ≤ room budget then
        if e.raises then e.size else e.size + kept (budget - e.size) es
      else kept budget es

/-- The bytes read of the entries that do not fit: of each, those up to the first chunk without room. -/
def wasted (budget : Nat) : List Entry → Nat
  | [] => 0
  | e :: es =>
      if e.size ≤ room budget then
        if e.raises then 0 else wasted (budget - e.size) es
      else pastRoom (room budget) e.chunks + wasted budget es

theorem sizeOf_cons (c : Chunk) (chunks : List Chunk) :
    sizeOf (c :: chunks) = c.bytes.length + sizeOf chunks := by
  rw [sizeOf, List.map_cons, List.sum_cons, sizeOf]

theorem pastRoom_of_fits {chunks : List Chunk} : ∀ {room : Nat}, sizeOf chunks ≤ room →
    pastRoom room chunks = sizeOf chunks := by
  induction chunks with
  | nil => exact fun _ => rfl
  | cons c chunks ih =>
      intro room fits
      rw [sizeOf_cons] at fits ⊢
      rw [pastRoom, if_neg (by omega), ih (by omega)]

/-- What there is no room for is read past the room. -/
theorem lt_pastRoom {chunks : List Chunk} : ∀ {room : Nat}, room < sizeOf chunks →
    room < pastRoom room chunks := by
  induction chunks with
  | nil => exact fun none_ => absurd none_ (Nat.not_lt_zero _)
  | cons c chunks ih =>
      intro room more
      rw [sizeOf_cons] at more
      rw [pastRoom]
      split
      · assumption
      · have later := @ih (room - c.bytes.length) (by omega)
        omega

/-- The entries that fit stay within the budget. -/
theorem kept_le (es : List Entry) : ∀ budget, kept budget es ≤ budget := by
  induction es with
  | nil => exact fun budget => Nat.zero_le budget
  | cons e es ih =>
      intro budget
      rw [kept]
      split
      · next fits =>
        have within : e.size ≤ budget := fits.trans (min_le_right _ _)
        split
        · exact within
        · have later := ih (budget - e.size)
          omega
      · exact ih budget

/-- Where all entries fit together, and each by itself, nothing is wasted. -/
theorem wasted_eq_zero {es : List Entry} (each : ∀ e ∈ es, e.size ≤ maxEntryBytes) :
    ∀ {budget}, (es.map Entry.size).sum ≤ budget → wasted budget es = 0 := by
  induction es with
  | nil => exact fun _ => rfl
  | cons e es ih =>
      intro budget all
      rw [List.map_cons, List.sum_cons] at all
      have fits : e.size ≤ room budget :=
        le_min (each e List.mem_cons_self) (le_trans (Nat.le_add_right _ _) all)
      rw [wasted, if_pos fits]
      split
      · rfl
      · exact ih (fun e member => each e (List.mem_cons_of_mem _ member)) (by omega)

/-! ### One entry -/

/-- The loop of `_read_bounded`: past the cap, nothing comes of an entry but its cost. -/
theorem readLoop_eq {cap : Nat} {raises : Bool} (chunks : List Chunk) : ∀ buf, buf.length ≤ cap →
    (readLoop cap raises buf chunks).2 = pastRoom (cap - buf.length) chunks ∧
      (buf.length + sizeOf chunks ≤ cap → (readLoop cap raises buf chunks).1 =
        if raises then .error .library else .ok (some (buf ++ chunks.flatMap Chunk.bytes))) ∧
      (cap < buf.length + sizeOf chunks → (readLoop cap raises buf chunks).1 = .ok none) := by
  induction chunks with
  | nil =>
      intro buf within
      refine ⟨rfl, fun _ => by rw [readLoop, List.flatMap_nil, List.append_nil], fun more => ?_⟩
      rw [sizeOf, List.map_nil, List.sum_nil] at more
      omega
  | cons c chunks ih =>
      intro buf within
      have longer : (buf ++ c.bytes).length = buf.length + c.bytes.length := List.length_append
      rw [readLoop, pastRoom, sizeOf_cons]
      by_cases past : cap < (buf ++ c.bytes).length
      · simp only [if_pos past]
        rw [longer] at past
        rw [if_pos (by omega)]
        exact ⟨rfl, fun fits => by omega, fun _ => trivial⟩
      · obtain ⟨cost, fits, more⟩ := ih (buf ++ c.bytes) (not_lt.mp past)
        simp only [if_neg past]
        rw [longer] at past cost fits more
        rw [if_neg (by omega), cost]
        refine ⟨by congr 2; omega, fun le => ?_, fun lt => more (by omega)⟩
        rw [fits (by omega), List.flatMap_cons, List.append_assoc]

/-- The entry that a name opens: it is there, and does not declare too much. -/
def openedBy (archive : List Entry) (name : PyStr) : Option Entry :=
  (getinfo archive name).filter fun e => decide (e.fileSize ≤ maxEntryBytes)

theorem readBounded_closed {archive : List Entry} {name : PyStr} (closed : openedBy archive name = none)
    (t : Tally) : readBounded archive name t = (.ok none, t) := by
  rw [readBounded]
  cases found : getinfo archive name with
  | none => rfl
  | some e =>
      rw [openedBy, found, Option.filter_eq_none_iff] at closed
      have large := closed e rfl
      exact if_pos (by simpa using large)

theorem length_flatMap_bytes (chunks : List Chunk) :
    (chunks.flatMap Chunk.bytes).length = sizeOf chunks := by
  rw [List.length_flatMap, sizeOf]

section
variable {archive : List Entry} {name : PyStr} {e : Entry} (found : openedBy archive name = some e)
  {t : Tally}
include found

/-- An entry that fits is charged and returned. -/
theorem readBounded_fits (fits : e.size ≤ room t.budget) (quiet : e.raises = false) :
    readBounded archive name t = (.ok (some (e.chunks.flatMap Chunk.bytes)),
      ⟨t.budget - e.size, t.decompressed + e.size, t.returned + e.size⟩) := by
  obtain ⟨info, small⟩ := Option.filter_eq_some_iff.mp found
  obtain ⟨cost, result, _⟩ := @readLoop_eq (room t.budget) e.raises e.chunks [] (Nat.zero_le _)
  rw [List.length_nil, Nat.sub_zero, pastRoom_of_fits fits] at cost
  have result := result (by rw [List.length_nil, Nat.zero_add]; exact fits)
  rw [quiet, if_neg Bool.false_ne_true, List.nil_append, ← quiet] at result
  rw [readBounded, info]
  simp only [if_neg (not_lt.mpr (of_decide_eq_true small))]
  rw [show min maxEntryBytes t.budget = room t.budget from rfl, result, cost]
  simp only [length_flatMap_bytes]
  rfl

/-- An entry on which the library raises is charged to nothing, but ends the reading. -/
theorem readBounded_raises (fits : e.size ≤ room t.budget) (raises : e.raises = true) :
    readBounded archive name t =
      (.error .library, { t with decompressed := t.decompressed + e.size }) := by
  obtain ⟨info, small⟩ := Option.filter_eq_some_iff.mp found
  obtain ⟨cost, result, _⟩ := @readLoop_eq (room t.budget) e.raises e.chunks [] (Nat.zero_le _)
  rw [List.length_nil, Nat.sub_zero, pastRoom_of_fits fits] at cost
  have result := result (by rw [List.length_nil, Nat.zero_add]; exact fits)
  rw [if_pos raises] at result
  rw [readBounded, info]
  simp only [if_neg (not_lt.mpr (of_decide_eq_true small))]
  rw [show min maxEntryBytes t.budget = room t.budget from rfl, result, cost]
  rfl

/-- An entry that does not fit is charged to nothing either, and the reading goes on. -/
theorem readBounded_refused (more : room t.budget < e.size) :
    readBounded archive name t = (.ok none,
      { t with decompressed := t.decompressed + pastRoom (room t.budget) e.chunks }) := by
  obtain ⟨info, small⟩ := Option.filter_eq_some_iff.mp found
  obtain ⟨cost, _, result⟩ := @readLoop_eq (room t.budget) e.raises e.chunks [] (Nat.zero_le _)
  rw [List.length_nil, Nat.sub_zero] at cost
  have result := result (by rw [List.length_nil, Nat.zero_add]; exact more)
  rw [readBounded, info]
  simp only [if_neg (not_lt.mpr (of_decide_eq_true small))]
  rw [show min maxEntryBytes t.budget = room t.budget from rfl, result, cost]

end

/-! ### Entry after entry -/

/-- Reading entries up to one on which the library raises. -/
def readAll (archive : List Entry) : List PyStr → Tally → Reading Unit
  | [], t => (.ok (), t)
  | name :: names, t =>
      match readBounded archive name t with
      | (.error e, t) => (.error e, t)
      | (.ok _, t) => readAll archive names t

theorem readAll_error {archive : List Entry} {name : PyStr} {t t' : Tally} {e : BundleError}
    (read : readBounded archive name t = (.error e, t')) (names : List PyStr) :
    readAll archive (name :: names) t = (.error e, t') := by
  rw [readAll, read]

theorem readAll_ok {archive : List Entry} {name : PyStr} {t t' : Tally} {r : Option (List UInt8)}
    (read : readBounded archive name t = (.ok r, t')) (names : List PyStr) :
    readAll archive (name :: names) t = readAll archive names t' := by
  rw [readAll, read]

theorem readAll_append_error {archive : List Entry} {front : List PyStr} {e : BundleError} {t' : Tally}
    (back : List PyStr) : ∀ {t}, readAll archive front t = (.error e, t') →
      readAll archive (front ++ back) t = (.error e, t') := by
  induction front with
  | nil => exact fun read => nomatch (Prod.mk.inj read).1
  | cons name front ih =>
      intro t read
      rw [List.cons_append]
      rcases first : readBounded archive name t with ⟨_ | r, u⟩
      · rw [readAll_error first] at read ⊢
        exact read
      · rw [readAll_ok first] at read ⊢
        exact ih read

theorem readAll_append_ok {archive : List Entry} {front : List PyStr} {t' : Tally} (back : List PyStr) :
    ∀ {t}, readAll archive front t = (.ok (), t') →
      readAll archive (front ++ back) t = readAll archive back t' := by
  induction front with
  | nil =>
      intro t read
      rw [(Prod.mk.inj read).2.symm]
      rfl
  | cons name front ih =>
      intro t read
      rw [List.cons_append]
      rcases first : readBounded archive name t with ⟨_ | r, u⟩
      · rw [readAll_error first] at read
        cases read
      · rw [readAll_ok first] at read ⊢
        exact ih read

/-- The entries that the names open, in turn. -/
def openedIn (archive : List Entry) (names : List PyStr) : List Entry := names.filterMap (openedBy archive)

/-- What a reading costs: the entries that fit, and the first chunks of those that do not. The budget
pays for what is returned. -/
theorem readAll_tally (archive : List Entry) (names : List PyStr) : ∀ t,
    (readAll archive names t).2.decompressed = t.decompressed +
        (kept t.budget (openedIn archive names) + wasted t.budget (openedIn archive names)) ∧
      (readAll archive names t).2.returned + (readAll archive names t).2.budget =
        t.returned + t.budget := by
  induction names with
  | nil => exact fun t => ⟨rfl, rfl⟩
  | cons name names ih =>
      intro t
      cases found : openedBy archive name with
      | none =>
          have same : openedIn archive (name :: names) = openedIn archive names :=
            List.filterMap_cons_none found
          rw [readAll_ok (readBounded_closed found t), same]
          exact ih t
      | some e =>
          have head : openedIn archive (name :: names) = e :: openedIn archive names :=
            List.filterMap_cons_some found
          rw [head, kept, wasted]
          by_cases fits : e.size ≤ room t.budget
          · rw [if_pos fits, if_pos fits]
            cases raises : e.raises with
            | true =>
                rw [readAll_error (readBounded_raises found fits raises)]
                exact ⟨rfl, rfl⟩
            | false =>
                have within : e.size ≤ t.budget := fits.trans (min_le_right _ _)
                obtain ⟨cost, paid⟩ := ih ⟨t.budget - e.size, t.decompressed + e.size, t.returned + e.size⟩
                rw [readAll_ok (readBounded_fits found fits raises), cost, paid]
                simp only [Bool.false_eq_true, if_false]
                omega
          · obtain ⟨cost, paid⟩ :=
              ih { t with decompressed := t.decompressed + pastRoom (room t.budget) e.chunks }
            rw [if_neg fits, if_neg fits, readAll_ok (readBounded_refused found (not_le.mp fits)), cost, paid]
            refine ⟨?_, rfl⟩
            simp only
            omega

/-! ### A bundle -/

/-- A name, if it is one of the names. -/
def present (names : List PyStr) (name : PyStr) : List PyStr := if name ∈ names then [name] else []

/-- The names that `read_bundle` opens, in its order. -/
def readNames (archive : List Entry) : List PyStr :=
  if maxEntries < archive.length then []
  else
    let names := (archive.map Entry.name).dedup
    present names (py "manifest.json") ++ (present names (py "project.json") ++
      (sortStrs names).filter isMeetingName)

/-- The entries that it opens. -/
def opened (archive : List Entry) : List Entry := openedIn archive (readNames archive)

section
variable [PyRuntime]

theorem jsonOf_cases (archive : List Entry) (name : PyStr) (t : Tally) :
    (∃ e t', readBounded archive name t = (.error e, t') ∧ jsonOf archive name t = (.error e, t')) ∨
      ∃ r t' j, readBounded archive name t = (.ok r, t') ∧ jsonOf archive name t = (.ok j, t') := by
  rw [jsonOf]
  obtain ⟨_ | r, t'⟩ := readBounded archive name t
  · exact .inl ⟨_, _, rfl, rfl⟩
  · cases r with
    | none => exact .inr ⟨_, _, _, rfl, rfl⟩
    | some raw => exact .inr ⟨_, _, _, rfl, rfl⟩

theorem jsonIfPresent_cases (archive : List Entry) (names : List PyStr) (name : PyStr) (t : Tally) :
    (∃ e t', readAll archive (present names name) t = (.error e, t') ∧
        jsonIfPresent archive names name t = (.error e, t')) ∨
      ∃ t' j, readAll archive (present names name) t = (.ok (), t') ∧
        jsonIfPresent archive names name t = (.ok j, t') := by
  rw [jsonIfPresent, present]
  by_cases here : name ∈ names
  · rw [if_pos here, if_pos here]
    rcases jsonOf_cases archive name t with ⟨e, t', read, json⟩ | ⟨r, t', j, read, json⟩
    · exact .inl ⟨e, t', readAll_error read _, json⟩
    · exact .inr ⟨t', j, readAll_ok read _, json⟩
  · rw [if_neg here, if_neg here]
    exact .inr ⟨t, .null, rfl, rfl⟩

variable (b64decode : PyStr → Option (List UInt8)) (appleDate : Json → Option Instant)

theorem readMeetings_tally (archive : List Entry) (names : List PyStr) : ∀ t,
    (readMeetings b64decode appleDate archive names t).2 = (readAll archive names t).2 := by
  induction names with
  | nil => exact fun t => rfl
  | cons name names ih =>
      intro t
      rw [readMeetings]
      rcases jsonOf_cases archive name t with ⟨e, t', read, json⟩ | ⟨r, t', j, read, json⟩
      · rw [json, readAll_error read]
      · rw [json, readAll_ok read]
        cases j <;> exact ih t'

/-- A bundle costs what its entries cost one after the other. -/
theorem readBundle_tally (archive : List Entry) :
    (readBundle b64decode appleDate archive).2 = (readAll archive (readNames archive) Tally.start).2 := by
  rw [readBundle, readNames]
  by_cases many : maxEntries < archive.length
  · rw [if_pos many, if_pos many]
    rfl
  · rw [if_neg many, if_neg many]
    simp only
    generalize (archive.map Entry.name).dedup = names
    rcases jsonIfPresent_cases archive names (py "manifest.json") Tally.start with
      ⟨e, t, read, json⟩ | ⟨t, manifest, read, json⟩
    · rw [json, readAll_append_error _ read]
    · rw [json, readAll_append_ok _ read]
      simp only
      rcases jsonIfPresent_cases archive names (py "project.json") t with
        ⟨e, u, read', json'⟩ | ⟨u, project, read', json'⟩
      · rw [json', readAll_append_error _ read']
      · rw [json', readAll_append_ok _ read']
        exact readMeetings_tally b64decode appleDate archive _ u

/-! ### The bound -/

/-- What the bound on a whole bundle says: no more than the total and a chunk is decompressed, and no more
is returned. -/
def Bounded (t : Tally) : Prop :=
  t.decompressed ≤ maxTotalReadBytes + chunkBytes ∧ t.returned ≤ maxTotalReadBytes + chunkBytes

omit [PyRuntime] in
theorem returned_le (archive : List Entry) (names : List PyStr) :
    (readAll archive names Tally.start).2.returned ≤ maxTotalReadBytes := by
  have paid := (readAll_tally archive names Tally.start).2
  rw [show Tally.start.returned + Tally.start.budget = maxTotalReadBytes from Nat.zero_add _] at paid
  omega

theorem decompressed_eq (archive : List Entry) :
    (readBundle b64decode appleDate archive).2.decompressed =
      kept maxTotalReadBytes (opened archive) + wasted maxTotalReadBytes (opened archive) := by
  have cost := (readAll_tally archive (readNames archive) Tally.start).1
  rw [show Tally.start.decompressed = 0 from rfl, Nat.zero_add] at cost
  rw [readBundle_tally]
  exact cost

end

/-! ### An archive that costs more -/

/-- A chunk of zeros. -/
def fullChunk : Chunk where
  bytes := List.replicate chunkBytes 0
  nonempty := by
    rw [Ne, List.replicate_eq_nil_iff]
    decide
  short := by rw [List.length_replicate]

/-- An entry that declares nothing and decompresses to a chunk more than any entry may. -/
def bomb (name : PyStr) : Entry := ⟨name, 0, List.replicate 513 fullChunk, false⟩

/-- The names of five meetings. -/
def fiveMeetings : List PyStr :=
  [py "meetings/1.json", py "meetings/2.json", py "meetings/3.json", py "meetings/4.json",
    py "meetings/5.json"]

theorem bomb_size (name : PyStr) : maxEntryBytes < (bomb name).size := by
  have size : (bomb name).size = 513 * chunkBytes := by
    rw [Entry.size, sizeOf, bomb, List.map_replicate, List.sum_replicate, fullChunk,
      List.length_replicate, smul_eq_mul]
  rw [size]
  decide

/-- Nothing of the budget is left for what is read of them. -/
theorem wasted_bombs (names : List PyStr) :
    names.length * maxEntryBytes ≤ wasted maxTotalReadBytes (names.map bomb) := by
  have large : room maxTotalReadBytes = maxEntryBytes := by decide
  induction names with
  | nil => exact le_of_eq (Nat.zero_mul _)
  | cons name names ih =>
      have past := lt_pastRoom (bomb_size name)
      rw [List.map_cons, wasted, large, if_neg (not_le.mpr (bomb_size name)), List.length_cons,
        Nat.succ_mul]
      omega

theorem opened_bombs : opened (fiveMeetings.map bomb) = fiveMeetings.map bomb := by
  have names : (fiveMeetings.map bomb).map Entry.name = fiveMeetings := rfl
  have read : readNames (fiveMeetings.map bomb) = fiveMeetings := by
    rw [readNames, names]
    decide +kernel
  rw [opened, read]
  rfl

end GhostPour.Shares
