/-
Module: GhostPour.Promo.Proofs.PromoSuppression
Layer: Proofs
Purpose: The row of a device and a campaign as a function of the events in their order: it is there
  from the first impression on, counts the impressions, and knows of a convert only when one comes
  after an impression. A campaign that can be served at all is never returned exactly when that row
  withholds it.
Trusted boundary: none
Main exports: trail, convertedOnceShown, Folded, folded_ingestAll, NeverReturned, Servable,
  neverReturned_iff, Suppresses, suppression_iff
-/
import GhostPour.Promo.PromoCampaigns

namespace GhostPour.Promo

/-! ### The events of a device and a campaign -/

/-- The event is accepted, and is one of the device for the campaign. -/
def concerns (device id : PyStr) (e : PromoEvent) : Bool :=
  e.body.eventType ∈ promoEventTypes && e.body.deviceId = device && e.body.campaignId = some id &&
    id ≠ []

/-- Their types, in order. -/
def trail (device id : PyStr) (events : List PromoEvent) : List PyStr :=
  (events.filter (concerns device id)).map (·.body.eventType)

/-- From the first impression on there is a convert. -/
def convertedOnceShown (types : List PyStr) : Bool :=
  py "convert" ∈ types.dropWhile (· ≠ py "impression")

theorem trail_append (device id : PyStr) (events : List PromoEvent) (e : PromoEvent) :
    trail device id (events ++ [e]) =
      trail device id events ++ if concerns device id e then [e.body.eventType] else [] := by
  unfold trail
  rw [List.filter_append, List.map_append, List.filter_singleton]
  cases concerns device id e <;> rfl

/-- Before the first impression nothing converts. -/
theorem dropWhile_of_absent {types : List PyStr} (absent : py "impression" ∉ types) :
    types.dropWhile (· ≠ py "impression") = [] := by
  rw [List.dropWhile_eq_nil_iff]
  exact fun type member => decide_eq_true fun same => absent (same ▸ member)

theorem convertedOnceShown_of_absent {types : List PyStr} (absent : py "impression" ∉ types) :
    convertedOnceShown types = false := by
  rw [convertedOnceShown, dropWhile_of_absent absent]
  rfl

theorem dropWhile_append_type (types : List PyStr) (type : PyStr) :
    (types ++ [type]).dropWhile (· ≠ py "impression") =
      if py "impression" ∈ types then types.dropWhile (· ≠ py "impression") ++ [type]
      else [type].dropWhile (· ≠ py "impression") := by
  rw [List.dropWhile_append]
  have empty : (types.dropWhile (· ≠ py "impression")).isEmpty = true ↔ py "impression" ∉ types := by
    rw [List.isEmpty_iff, List.dropWhile_eq_nil_iff]
    constructor
    · intro all member
      exact of_decide_eq_true (all _ member) rfl
    · intro absent type member
      exact decide_eq_true fun same => absent (same ▸ member)
  by_cases member : py "impression" ∈ types
  · rw [if_pos member, if_neg (fun nothing => empty.mp nothing member)]
  · rw [if_neg member, if_pos (empty.mpr member)]

/-- One more event converts when it is a convert and an impression came before. -/
theorem convertedOnceShown_append (types : List PyStr) (type : PyStr) :
    convertedOnceShown (types ++ [type]) = true ↔
      convertedOnceShown types = true ∨ type = py "convert" ∧ py "impression" ∈ types := by
  have apart : py "convert" ≠ py "impression" := by decide
  unfold convertedOnceShown
  rw [decide_eq_true_eq, decide_eq_true_eq, dropWhile_append_type]
  by_cases member : py "impression" ∈ types
  · rw [if_pos member, List.mem_append, List.mem_singleton]
    constructor
    · rintro (before | here)
      · exact .inl before
      · exact .inr ⟨here.symm, member⟩
    · rintro (before | ⟨here, -⟩)
      · exact .inl before
      · exact .inr here.symm
  · rw [if_neg member, dropWhile_of_absent member]
    constructor
    · intro here
      by_cases impression : type = py "impression"
      · subst impression
        exact absurd (List.mem_singleton.mp here) apart
      · rw [List.dropWhile_cons_of_pos (by simpa using impression)] at here
        cases here
    · rintro (here | ⟨-, inTypes⟩)
      · cases here
      · exact absurd inTypes member

/-! ### The row -/

variable {s : PromoStore} {e : PromoEvent} {device id : PyStr} {events : List PromoEvent}

theorem given_isoformat (t : DateTime) : given (some t.isoformat) = true := by
  have some_ : t.isoformat ≠ [] := by
    unfold DateTime.isoformat
    exact fun nothing => List.cons_ne_nil _ _ (List.append_eq_nil_iff.mp nothing).2
  exact decide_eq_true some_

/-- An event of another device or campaign, or one that is refused, leaves the row. -/
theorem ingest_other (other : concerns device id e = false) :
    (ingestPromoEvent s e).1.presentations.get (device, id) = s.presentations.get (device, id) := by
  unfold ingestPromoEvent
  split
  · rfl
  · split
    · rfl
    · next known =>
      rw [not_not] at known
      split
      · rfl
      · rfl
      · next campaignId some_ named =>
        have apart : (device, id) ≠ (e.body.deviceId, campaignId) := by
          intro same
          obtain ⟨rfl, rfl⟩ := Prod.mk.inj same
          have here : concerns e.body.deviceId id e = true := by
            simp only [concerns, named, known, decide_true, Bool.true_and, decide_eq_true_eq]
            exact some_
          rw [other] at here
          cases here
        split
        · exact Table.get_upsert_of_ne _ _ _ apart
        · exact Table.get_update_of_ne _ _ apart

/-- An event of the device for the campaign is counted, or marked in the row that is there. -/
theorem ingest_here (here : concerns device id e = true) :
    (ingestPromoEvent s e).1.presentations.get (device, id) =
      if e.body.eventType = py "impression" then
        (shown e id s.presentations).get (device, id)
      else (s.presentations.get (device, id)).map (mark e.body.eventType e.now.isoformat) := by
  simp only [concerns, Bool.and_eq_true, decide_eq_true_eq] at here
  obtain ⟨⟨⟨known, rfl⟩, named⟩, some_⟩ := here
  have valid : e.body.valid = true := by
    simp [PromoEventBody.valid, given, named, some_]
  unfold ingestPromoEvent
  rw [valid, Bool.not_true, if_neg Bool.false_ne_true, if_neg (not_not.mpr known), named]
  split
  · next nothing => cases nothing
  · next empty => exact absurd (Option.some.inj empty) some_
  · next campaignId _ same =>
    cases same
    split
    · rfl
    · exact Table.get_update_self _ _ _

/-- The row of the events of these types. -/
structure Folded (types : List PyStr) (row : Option Presentation) : Prop where
  present : row.isSome = true ↔ py "impression" ∈ types
  count : ∀ r, row = some r → r.shownCount = types.count (py "impression")
  converted : ∀ r, row = some r → (given r.convertedAt = true ↔ convertedOnceShown types = true)

theorem Folded.shown {types : List PyStr} (folded : Folded types (s.presentations.get (device, id)))
    (sameDevice : e.body.deviceId = device) :
    Folded (types ++ [py "impression"]) ((Promo.shown e id s.presentations).get (device, id)) := by
  have converts := convertedOnceShown_append types (py "impression")
  have apart : py "impression" ≠ py "convert" := by decide
  unfold Promo.shown
  rw [sameDevice, Table.get_upsert_self]
  refine ⟨by simp, ?_, ?_⟩
  · intro r stored
    rw [Option.some.injEq] at stored
    rw [List.count_append, List.count_singleton_self]
    cases row : s.presentations.get (device, id) with
    | none =>
        have absent : py "impression" ∉ types := by
          rw [← folded.present, row]
          exact Bool.false_ne_true
        rw [row] at stored
        rw [← stored, List.count_eq_zero_of_not_mem absent]
        rfl
    | some old =>
        rw [row] at stored
        rw [← stored, ← folded.count old row]
        rfl
  · intro r stored
    rw [Option.some.injEq] at stored
    rw [converts, or_iff_left (fun both => apart both.1)]
    cases row : s.presentations.get (device, id) with
    | none =>
        have absent : py "impression" ∉ types := by
          rw [← folded.present, row]
          exact Bool.false_ne_true
        rw [row] at stored
        rw [← stored, convertedOnceShown_of_absent absent]
        simp [given]
    | some old =>
        rw [row] at stored
        rw [← stored, ← folded.converted old row]
        rfl

theorem Folded.mark {types : List PyStr} (folded : Folded types (s.presentations.get (device, id)))
    {type : PyStr} (known : type ∈ promoEventTypes) (other : type ≠ py "impression") :
    Folded (types ++ [type])
      ((s.presentations.get (device, id)).map (Promo.mark type e.now.isoformat)) := by
  have converts := convertedOnceShown_append types type
  refine ⟨?_, ?_, ?_⟩
  · rw [Option.isSome_map, folded.present, List.mem_append, List.mem_singleton]
    exact (or_iff_left other.symm).symm
  · intro r stored
    obtain ⟨old, row, rfl⟩ := Option.map_eq_some_iff.mp stored
    have count : (Promo.mark type e.now.isoformat old).shownCount = old.shownCount := by
      unfold Promo.mark
      split <;> (try split) <;> rfl
    rw [count, folded.count old row, List.count_append, List.count_singleton, if_neg (by simpa using other)]
    rfl
  · intro r stored
    obtain ⟨old, row, rfl⟩ := Option.map_eq_some_iff.mp stored
    have shown : py "impression" ∈ types := by
      rw [← folded.present, row]
      rfl
    rw [converts, and_iff_left shown]
    by_cases convert : type = py "convert"
    · subst convert
      have marked : Promo.mark (py "convert") e.now.isoformat old =
          { old with convertedAt := some e.now.isoformat } := by
        unfold Promo.mark
        rw [if_neg (by decide), if_neg (by decide)]
      rw [marked]
      exact iff_of_true (given_isoformat e.now) (.inr rfl)
    · have kept : (Promo.mark type e.now.isoformat old).convertedAt = old.convertedAt := by
        have rest : type = py "click" ∨ type = py "dismiss" := by
          simp only [promoEventTypes, List.mem_cons, List.not_mem_nil, or_false] at known
          rcases known with impression | dismissed | clicked | converted
          · exact absurd impression other
          · exact .inr dismissed
          · exact .inl clicked
          · exact absurd converted convert
        unfold Promo.mark
        rcases rest with rfl | rfl
        · rfl
        · rw [if_neg (by decide), if_pos rfl]
      rw [kept, or_iff_left convert, folded.converted old row]

/-- After every run the row is that of its events. -/
theorem folded_ingestAll (device id : PyStr) (events : List PromoEvent) :
    Folded (trail device id events) ((ingestAll events .start).presentations.get (device, id)) := by
  induction events using List.reverseRecOn with
  | nil =>
      refine ⟨iff_of_false Bool.false_ne_true List.not_mem_nil, ?_, ?_⟩ <;>
        (intro r stored; cases stored)
  | append_singleton events e ih =>
      have last : ingestAll (events ++ [e]) .start = (ingestPromoEvent (ingestAll events .start) e).1 := by
        unfold ingestAll
        rw [List.foldl_append]
        rfl
      rw [last, trail_append]
      by_cases here : concerns device id e = true
      · rw [ingest_here here, if_pos here]
        simp only [concerns, Bool.and_eq_true, decide_eq_true_eq] at here
        by_cases impression : e.body.eventType = py "impression"
        · rw [if_pos impression, impression]
          exact ih.shown here.1.1.2
        · rw [if_neg impression]
          exact ih.mark here.1.1.1 impression
      · rw [Bool.not_eq_true] at here
        rw [ingest_other here, here]
        simpa using ih

/-! ### What is returned -/

variable {audience : Audience} {rows : Presentations} {request : ResolveRequest} {c : Campaign}

/-- The loop returns a campaign of the list whose window is open and that is not withheld. -/
theorem resolveFrom_some {list : List (PyStr × Campaign)} {answer : Answer}
    (returned : resolveFrom audience rows request list = some (some answer)) :
    ∃ c, (answer.campaignId, c) ∈ list ∧ inWindow c request.now.isoformat = true ∧
      withheld rows request.deviceId answer.campaignId c = false := by
  induction list with
  | nil => cases returned
  | cons first list ih =>
      obtain ⟨id, c⟩ := first
      have later : resolveFrom audience rows request list = some (some answer) →
          ∃ c', (answer.campaignId, c') ∈ (id, c) :: list ∧
            inWindow c' request.now.isoformat = true ∧
            withheld rows request.deviceId answer.campaignId c' = false := by
        intro returned
        obtain ⟨c', member, free⟩ := ih returned
        exact ⟨c', List.mem_cons_of_mem _ member, free⟩
      rw [resolveFrom] at returned
      split at returned
      · exact later returned
      · next window =>
        split at returned
        · cases returned
        · exact later returned
        · split at returned
          · exact later returned
          · next free =>
            split at returned
            · cases returned
            · exact later returned
            · cases returned
              exact ⟨c, List.mem_cons_self, by simpa using window, Bool.not_eq_true _ ▸ free⟩

theorem mem_of_scopedCampaigns {list : List (PyStr × Campaign)} {pair : PyStr × Campaign}
    (member : pair ∈ scopedCampaigns request list) : pair ∈ list := by
  obtain ⟨priced, sorted, rfl⟩ := List.mem_map.mp member
  rw [List.mem_insertionSort] at sorted
  obtain ⟨pair, inList, price⟩ := List.mem_filterMap.mp sorted
  obtain ⟨priority, -, rfl⟩ := Option.map_eq_some_iff.mp price
  exact inList

/-- `resolve_promo` never returns the campaign to the device: with no campaigns beside it, at no
moment, and whatever the rest decides. -/
def NeverReturned (rows : Presentations) (device id : PyStr) (c : Campaign) : Prop :=
  ∀ audience campaigns request answer, request.deviceId = device → campaigns.get id = some c →
    resolvePromo audience campaigns rows request = some (some answer) → answer.campaignId ≠ id

/-- The campaign can be served to somebody: it is active, and its window is open at some time. -/
def Servable (c : Campaign) : Prop :=
  c.active = true ∧ ∃ now : DateTime, inWindow c now.isoformat = true

/-- A request for a moment of the campaign. -/
def momentOf (c : Campaign) (device : PyStr) (now : DateTime) : ResolveRequest :=
  ⟨now, c.appId, device, c.placements.head?.map Placement.placement,
    c.placements.head?.bind Placement.feature⟩

theorem placementPriority_of_entry {entry : Placement} (member : entry ∈ c.placements) :
    ∃ priority, placementPriority c (some entry.placement) entry.feature = some priority := by
  unfold placementPriority
  rw [if_neg (List.ne_nil_of_mem member)]
  apply Option.ne_none_iff_exists'.mp
  intro nothing
  rw [List.max?_eq_none_iff, List.map_eq_nil_iff, List.filter_eq_nil_iff] at nothing
  exact nothing entry member (by simp)

theorem placementPriority_momentOf (c : Campaign) (device : PyStr) (now : DateTime) :
    ∃ priority, placementPriority c (momentOf c device now).placement
      (momentOf c device now).feature = some priority := by
  unfold momentOf
  cases entries : c.placements with
  | nil => exact ⟨c.priority, if_pos entries⟩
  | cons entry rest => exact placementPriority_of_entry (by rw [entries]; exact List.mem_cons_self)

/-- An audience of everybody. -/
def everybody : Audience := ⟨fun _ _ => some true, fun _ _ _ => some (some .null)⟩

/-- Alone and not withheld, a campaign is returned at its moment. -/
theorem resolvePromo_alone {device id : PyStr} {now : DateTime} (active : c.active = true)
    (window : inWindow c now.isoformat = true) (free : withheld rows device id c = false) :
    ∃ answer, resolvePromo everybody (.single id c) rows (momentOf c device now) =
      some (some answer) ∧ answer.campaignId = id := by
  obtain ⟨priority, priced⟩ := placementPriority_momentOf c device now
  refine ⟨⟨id, .null, (momentOf c device now).placement, (momentOf c device now).feature⟩, ?_, rfl⟩
  have listed : scopedCampaigns (momentOf c device now)
      (((Table.single id c).rows.filter fun c' =>
        c'.2.appId = (momentOf c device now).appId && c'.2.active).insertionSort selectOrder) =
        [(id, c)] := by
    have kept : ((Table.single id c).rows.filter fun c' =>
        c'.2.appId = (momentOf c device now).appId && c'.2.active) = [(id, c)] := by
      simp [Table.single, momentOf, active]
    rw [kept]
    simp [scopedCampaigns, priced]
  unfold resolvePromo
  rw [listed, resolveFrom]
  change (if !inWindow c now.isoformat then _ else if withheld rows device id c then _ else _) = _
  rw [window, free]
  rfl

/-- A campaign is never returned exactly when it can be served to nobody or is withheld. -/
theorem neverReturned_iff (rows : Presentations) (device id : PyStr) (c : Campaign) :
    NeverReturned rows device id c ↔ ¬ Servable c ∨ withheld rows device id c = true := by
  constructor
  · intro never
    by_contra neither
    rw [not_or, not_not, Bool.not_eq_true] at neither
    obtain ⟨⟨active, now, window⟩, free⟩ := neither
    obtain ⟨answer, returned, same⟩ := resolvePromo_alone active window free
    refine never everybody (.single id c) (momentOf c device now) answer rfl ?_ returned same
    simp [Table.get, Table.single]
  · intro either audience campaigns request answer sameDevice stored returned same
    obtain ⟨c', listed, window, free⟩ := resolveFrom_some returned
    have member := mem_of_scopedCampaigns listed
    rw [List.mem_insertionSort] at member
    obtain ⟨inTable, asked⟩ := List.mem_filter.mp member
    have here : c' = c := by
      rw [same] at inTable
      exact Option.some.inj ((Table.get_of_mem inTable).symm.trans stored)
    subst here
    rw [sameDevice, same] at free
    rcases either with nobody | withheld_
    · exact nobody ⟨(Bool.and_eq_true_iff.mp asked).2, request.now, window⟩
    · rw [free] at withheld_
      cases withheld_

/-! ### Suppression by the events -/

/-- A convert comes after an impression and the campaign may not be repeated after it, or the cap is
there, is not zero and is reached by the impressions, of which there is one. -/
def Suppresses (c : Campaign) (types : List PyStr) : Prop :=
  convertedOnceShown types = true ∧ c.repeatAfterConvert = false ∨
    ∃ most, c.maxImpressions = some most ∧ most ≠ 0 ∧ py "impression" ∈ types ∧
      most ≤ (types.count (py "impression") : Rat)

/-- The row withholds the campaign exactly when its events suppress it. -/
theorem withheld_iff (device id : PyStr) (events : List PromoEvent) (c : Campaign) :
    withheld (ingestAll events .start).presentations device id c = true ↔
      Suppresses c (trail device id events) := by
  have folded := folded_ingestAll device id events
  unfold withheld Suppresses
  cases row : (ingestAll events .start).presentations.get (device, id) with
  | none =>
      have absent : py "impression" ∉ trail device id events := by
        rw [← folded.present, row]
        exact Bool.false_ne_true
      simp [convertedOnceShown_of_absent absent, absent]
  | some r =>
      have shown : py "impression" ∈ trail device id events := by
        rw [← folded.present, row]
        rfl
      have count := folded.count r row
      have converted := folded.converted r row
      rw [← converted, ← count]
      cases repeats : c.repeatAfterConvert with
      | false =>
          cases cap : c.maxImpressions with
          | none => simp
          | some most => simp [shown]
      | true =>
          cases cap : c.maxImpressions with
          | none => simp
          | some most => simp [shown]

/-- A device that has converted on a campaign, or has reached its cap, is never shown it again if and
only if the campaign can be served to nobody, or each of the two suppresses it. -/
theorem suppression_iff (device id : PyStr) (events : List PromoEvent) (c : Campaign) :
    ((py "convert" ∈ trail device id events → c.repeatAfterConvert = false →
          NeverReturned (ingestAll events .start).presentations device id c) ∧
        ∀ most, c.maxImpressions = some most →
          most ≤ ((trail device id events).count (py "impression") : Rat) →
            NeverReturned (ingestAll events .start).presentations device id c) ↔
      ¬ Servable c ∨
        (py "convert" ∈ trail device id events → c.repeatAfterConvert = false →
          Suppresses c (trail device id events)) ∧
        ∀ most, c.maxImpressions = some most →
          most ≤ ((trail device id events).count (py "impression") : Rat) →
            Suppresses c (trail device id events) := by
  rw [neverReturned_iff, withheld_iff]
  by_cases servable : Servable c
  · simp only [servable, not_true_eq_false, false_or]
  · simp only [servable, not_false_eq_true, true_or, implies_true, and_self]

/-- An event of a device for a campaign. -/
def cardEvent (type : PyStr) : PromoEvent :=
  ⟨.midnight (12 * 2025 + 8) 1 Nat.one_pos (le_trans (Nat.le_add_left 1 27) (daysInMonth_pos _)), py "shouldersurf", none,
    ⟨type, py "device", some (py "summer"), none, none, none, none, none, none⟩⟩

/-- A campaign for everybody at every moment. -/
def summer : Campaign :=
  ⟨py "shouldersurf", true, none, none, 0, [], none, false, [], .null, .null⟩

/-- A convert that arrives before the impression is lost, and the campaign is returned. -/
theorem early_convert_lost :
    py "convert" ∈ trail (py "device") (py "summer") [cardEvent (py "convert"),
        cardEvent (py "impression")] ∧ summer.repeatAfterConvert = false ∧
      ¬ NeverReturned (ingestAll [cardEvent (py "convert"), cardEvent (py "impression")]
        .start).presentations (py "device") (py "summer") summer := by
  refine ⟨by decide +kernel, rfl, ?_⟩
  rw [neverReturned_iff, withheld_iff]
  rintro (nobody | ⟨converted, -⟩ | ⟨most, cap, -⟩)
  · exact nobody ⟨rfl, (cardEvent (py "convert")).now, rfl⟩
  · have lost : convertedOnceShown (trail (py "device") (py "summer")
        [cardEvent (py "convert"), cardEvent (py "impression")]) = false := by
      decide +kernel
    rw [lost] at converted
    cases converted
  · cases cap

end GhostPour.Promo
