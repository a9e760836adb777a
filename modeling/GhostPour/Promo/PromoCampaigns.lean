/-
Module: GhostPour.Promo.PromoCampaigns
Layer: Model
Purpose: `app/routers/promo.py`: the events a client reports, the row of a device and a campaign that
  they are folded into, and the choice of `resolve_promo`, which reads that row. What else decides
  about a campaign (targeting with the privacy floor, and the variant with its offer codes) is a
  parameter, of any outcome, an exception among them; placements are as `_validate_campaign` lets them
  be, and a cap is a number. Names and targets a client is not shown are left out.
Trusted boundary: human-reviewed spec
Main exports: PromoEventBody, Presentation, PromoStore, ingestPromoEvent, Campaign, withheld,
  placementPriority, resolvePromo
-/
import GhostPour.Library.IsoText
import GhostPour.Library.PyValue
import GhostPour.Library.Table

namespace GhostPour.Promo

/-! ### Events -/

/-- `PromoEventBody`, without its validator. -/
structure PromoEventBody where
  eventType : PyStr
  deviceId : PyStr
  campaignId : Option PyStr
  variantId : Option PyStr
  ctaId : Option PyStr
  visibleMs : Option Int
  feature : Option PyStr
  surface : Option PyStr
  blockReason : Option PyStr
deriving DecidableEq

/-- A text that is there and not empty. -/
def given (text : Option PyStr) : Bool := text.any (· ≠ [])

/-- `_needs_a_subject`. -/
def PromoEventBody.valid (body : PromoEventBody) : Bool := given body.campaignId || given body.feature

/-- `_PROMO_EVENT_TYPES`. -/
def promoEventTypes : List PyStr := [py "impression", py "dismiss", py "click", py "convert"]

/-- A request with an event: when it comes in, from which app and from whom. -/
structure PromoEvent where
  now : DateTime
  appId : PyStr
  userId : Option PyStr
  body : PromoEventBody
deriving DecidableEq

/-- A `promo_presentations` row without its key, the device and the campaign. -/
structure Presentation where
  variantId : Option PyStr
  appId : PyStr
  shownCount : Nat
  firstShownAt : PyStr
  lastShownAt : PyStr
  lastDismissedAt : Option PyStr
  lastClickedAt : Option PyStr
  convertedAt : Option PyStr

abbrev Presentations := Table (PyStr × PyStr) Presentation

/-- `promo_presentations` and `promo_events`. -/
structure PromoStore where
  presentations : Presentations
  events : List PromoEvent

/-- Empty tables. -/
def PromoStore.start : PromoStore := ⟨.empty, []⟩

/-- The upsert of an impression. -/
def shown (e : PromoEvent) (campaignId : PyStr) (rows : Presentations) : Presentations :=
  let now := e.now.isoformat
  rows.upsert (e.body.deviceId, campaignId) ⟨e.body.variantId, e.appId, 1, now, now, none, none, none⟩
    fun row => { row with
      shownCount := row.shownCount + 1
      lastShownAt := now
      variantId := e.body.variantId }

/-- The column of an event that is no impression, set to its time. -/
def mark (eventType now : PyStr) (row : Presentation) : Presentation :=
  if eventType = py "click" then { row with lastClickedAt := some now }
  else if eventType = py "dismiss" then { row with lastDismissedAt := some now }
  else { row with convertedAt := some now }

/-- `ingest_promo_event`, with the status of its answer. -/
def ingestPromoEvent (s : PromoStore) (e : PromoEvent) : PromoStore × Nat :=
  if !e.body.valid then (s, 422)
  else if e.body.eventType ∉ promoEventTypes then (s, 400)
  else
    let events := s.events ++ [e]
    match e.body.campaignId with
    | none | some [] => (⟨s.presentations, events⟩, 204)
    | some campaignId =>
        if e.body.eventType = py "impression" then (⟨shown e campaignId s.presentations, events⟩, 204)
        else
          (⟨s.presentations.update (e.body.deviceId, campaignId)
            (mark e.body.eventType e.now.isoformat), events⟩, 204)

/-- The events of a run, one after the other. -/
def ingestAll (events : List PromoEvent) (s : PromoStore) : PromoStore :=
  events.foldl (fun s e => (ingestPromoEvent s e).1) s

/-! ### Campaigns -/

/-- An entry of `placements`. -/
structure Placement where
  placement : PyStr
  feature : Option PyStr
  priority : Option Int

/-- A `promo_campaigns` row without its key, the id. Targeting and variants are read by the parameters
alone. -/
structure Campaign where
  appId : PyStr
  active : Bool
  startsAt : Option PyStr
  expiresAt : Option PyStr
  priority : Int
  updatedAt : PyStr
  maxImpressions : Option Rat
  repeatAfterConvert : Bool
  placements : List Placement
  targeting : Json
  variants : Json

/-- A call of `resolve_promo`. -/
structure ResolveRequest where
  now : DateTime
  appId : PyStr
  deviceId : PyStr
  placement : Option PyStr
  feature : Option PyStr

/-- What the rest of `resolve_promo` says about a campaign: whether its targeting matches, and the
variant to show, if any can be shown. -/
structure Audience where
  matched : ResolveRequest → Campaign → Py Bool
  variant : ResolveRequest → PyStr → Campaign → Py (Option Json)

/-- `_placement_priority`. -/
def placementPriority (c : Campaign) (placement feature : Option PyStr) : Option Int :=
  if c.placements = [] then some c.priority
  else
    match placement with
    | none =>
        ((c.placements.filter (·.placement = py "launch")).map (·.priority.getD c.priority)).max?
    | some placement =>
        ((c.placements.filter fun e => e.placement = placement &&
          (e.feature = none || e.feature = feature)).map (·.priority.getD c.priority)).max?

/-- The time of the request is in the campaign's window, as the texts compare. -/
def inWindow (c : Campaign) (now : PyStr) : Bool :=
  !(given c.startsAt && c.startsAt.any (now < ·)) && !(given c.expiresAt && c.expiresAt.any (· < now))

/-- The frequency cap and the suppression after a convert: the campaign is skipped. -/
def withheld (rows : Presentations) (deviceId id : PyStr) (c : Campaign) : Bool :=
  let cap := c.maxImpressions.any (· ≠ 0)
  if cap || !c.repeatAfterConvert then
    match rows.get (deviceId, id) with
    | none => false
    | some row =>
        given row.convertedAt && !c.repeatAfterConvert ||
          c.maxImpressions.any fun most => most ≠ 0 && most ≤ (row.shownCount : Rat)
  else false

/-- `{"campaign_id": .., "variant": ..}`, with the moment it answers for. -/
structure Answer where
  campaignId : PyStr
  variant : Json
  placement : Option PyStr
  feature : Option PyStr

/-- The loop of `resolve_promo` over the campaigns of the moment. -/
def resolveFrom (audience : Audience) (rows : Presentations) (request : ResolveRequest) :
    List (PyStr × Campaign) → Py (Option Answer)
  | [] => some none
  | (id, c) :: campaigns =>
      if !inWindow c request.now.isoformat then resolveFrom audience rows request campaigns
      else
        match audience.matched request c with
        | none => none
        | some false => resolveFrom audience rows request campaigns
        | some true =>
            if withheld rows request.deviceId id c then resolveFrom audience rows request campaigns
            else
              match audience.variant request id c with
              | none => none
              | some none => resolveFrom audience rows request campaigns
              | some (some variant) => some (some ⟨id, variant, request.placement, request.feature⟩)

/-- The order of the select: by priority, then the latest change. -/
def selectOrder (a b : PyStr × Campaign) : Prop :=
  b.2.priority < a.2.priority ∨ b.2.priority = a.2.priority ∧ b.2.updatedAt ≤ a.2.updatedAt

instance : DecidableRel selectOrder := fun _ _ => inferInstanceAs (Decidable (_ ∨ _))

/-- The campaigns that want the moment, by their priority there. -/
def scopedCampaigns (request : ResolveRequest) (campaigns : List (PyStr × Campaign)) :
    List (PyStr × Campaign) :=
  let priced := campaigns.filterMap fun c =>
    (placementPriority c.2 request.placement request.feature).map fun priority => (priority, c)
  (priced.insertionSort fun a b => b.1 ≤ a.1).map Prod.snd

/-- `resolve_promo`. -/
def resolvePromo (audience : Audience) (campaigns : Table PyStr Campaign) (rows : Presentations)
    (request : ResolveRequest) : Py (Option Answer) :=
  resolveFrom audience rows request (scopedCampaigns request
    ((campaigns.rows.filter fun c => c.2.appId = request.appId && c.2.active).insertionSort selectOrder))

end GhostPour.Promo
