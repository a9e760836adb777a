/-
Module: GhostPour.Certificates.Proofs.PublishedPins
Layer: Proofs
Purpose: The versions of the stored manifests increase and none of them is without pins, so a manifest
  that has long to run is always compared with the chains; a check that reports health or a new
  manifest leaves a latest manifest that covers what the hosts presented.
Trusted boundary: none
Main exports: Manifests, Observed, Covers, CheckAction.reports, published_pins_cover
-/
import GhostPour.Certificates.CertPins

namespace GhostPour.Certificates

variable {signing : Signing} {settings : Settings} {tick : Tick} {rows rows' : List Manifest}
  {m : Manifest}

/-! ### The stored manifests -/

/-- The versions increase in the order of insertion, and every manifest has a pin. -/
structure Manifests (rows : List Manifest) : Prop where
  increasing : (rows.map Manifest.version).Pairwise (· < ·)
  pinned : ∀ m ∈ rows, m.pins ≠ []

theorem le_foldl_max {n : Nat} (numbers : List Nat) :
    n ≤ numbers.foldl max n ∧ ∀ k ∈ numbers, k ≤ numbers.foldl max n := by
  induction numbers generalizing n with
  | nil => simp
  | cons first numbers ih =>
      have after := ih (n := max n first)
      constructor
      · exact (Nat.le_max_left n first).trans after.1
      · intro k member
        cases List.mem_cons.mp member with
        | inl here =>
            rw [here]
            exact (Nat.le_max_right n first).trans after.1
        | inr later => exact after.2 k later

theorem version_lt_nextVersion (stored : m ∈ rows) : m.version < nextVersion rows :=
  Nat.lt_succ_of_le ((le_foldl_max _).2 _ (List.mem_map_of_mem stored))

/-- What a publish that does not raise has done. -/
theorem publishManifest_ok {now : Instant} {pins : List PyStr} {daysValid : Int}
    (published : publishManifest signing settings now pins daysValid rows = .ok (rows', m)) :
    pins ≠ [] ∧ rows' = rows ++ [m] ∧ m.version = nextVersion rows ∧ m.pins = pins ∧
      m.expiresAt = now + daysValid.toNat * microsPerDay := by
  unfold publishManifest at published
  split at published
  · cases published
  · rename_i some_
    split at published
    · cases published
    · unfold signManifest at published
      cases key : loadPrivateKey signing settings with
      | error e =>
          rw [key] at published
          cases published
      | ok key' =>
          rw [key] at published
          cases published
          exact ⟨some_, rfl, rfl, rfl, rfl⟩

/-- A manifest of the next version is the latest one. -/
theorem latestManifest_append (next : m.version = nextVersion rows) :
    latestManifest (rows ++ [m]) = some m := by
  unfold latestManifest
  rw [List.argmax_concat]
  cases latest : rows.argmax Manifest.version with
  | none => rfl
  | some current =>
      have older : current.version < m.version := by
        rw [next]
        exact version_lt_nextVersion (List.argmax_mem latest)
      exact if_pos older

theorem Manifests.append (kept : Manifests rows) (next : m.version = nextVersion rows)
    (pins : m.pins ≠ []) : Manifests (rows ++ [m]) where
  increasing := by
    rw [List.map_append, List.pairwise_append]
    refine ⟨kept.increasing, List.pairwise_singleton _ _, ?_⟩
    intro version older latest member
    rw [List.map_singleton, List.mem_singleton] at member
    obtain ⟨stored, inRows, rfl⟩ := List.mem_map.mp older
    rw [member, next]
    exact version_lt_nextVersion inRows
  pinned := by
    intro stored member
    cases List.mem_append.mp member with
    | inl older => exact kept.pinned stored older
    | inr new =>
        rw [List.mem_singleton.mp new]
        exact pins

/-- A publish keeps the manifests, whether or not it raises. -/
theorem Manifests.publish (kept : Manifests rows) {now : Instant} {pins : List PyStr}
    {daysValid : Int}
    (published : publishManifest signing settings now pins daysValid rows = .ok (rows', m)) :
    Manifests rows' := by
  obtain ⟨some_, rfl, next, rfl, -⟩ := publishManifest_ok published
  exact kept.append next some_

/-! ### What is observed -/

/-- A pin of the chain above the leaf that one of the hosts presents on a tick. -/
def Observed (tick : Tick) (pin : PyStr) : Prop :=
  ∃ n host pins, tick.settings.hostList[n]? = some host ∧
    fetchCurrentChainPins host (tick.presents n) = .ok pins ∧ pin ∈ pins

theorem mem_addUnseen {seen pins : List PyStr} {pin : PyStr} :
    pin ∈ addUnseen seen pins ↔ pin ∈ seen ∨ pin ∈ pins := by
  unfold addUnseen
  induction pins generalizing seen with
  | nil => simp
  | cons first pins ih =>
      rw [List.foldl_cons, ih, List.mem_cons]
      by_cases known : first ∈ seen
      · rw [if_pos known]
        constructor
        · rintro (inSeen | inPins)
          · exact .inl inSeen
          · exact .inr (.inr inPins)
        · rintro (inSeen | rfl | inPins)
          · exact .inl inSeen
          · exact .inl known
          · exact .inr inPins
      · rw [if_neg known, List.mem_append, List.mem_singleton, or_assoc]

/-- The loop over the hosts keeps what was seen and adds every chain it reads. -/
theorem subset_livePinsFrom {presents : Nat → Handshake} {hosts seen live : List PyStr} {n : Nat}
    (read : livePinsFrom presents n hosts seen = .ok live) :
    seen ⊆ live ∧ ∀ i host pins, hosts[i]? = some host →
      fetchCurrentChainPins host (presents (n + i)) = .ok pins → pins ⊆ live := by
  induction hosts generalizing n seen with
  | nil =>
      cases read
      exact ⟨List.Subset.refl _, by simp⟩
  | cons first hosts ih =>
      rw [livePinsFrom] at read
      cases fetched : fetchCurrentChainPins first (presents n) with
      | error e =>
          rw [fetched] at read
          cases read
      | ok chain =>
          rw [fetched] at read
          obtain ⟨keeps, adds⟩ := ih read
          constructor
          · intro pin known
            exact keeps (mem_addUnseen.mpr (.inl known))
          · intro i host pins at_ presented
            cases i with
            | zero =>
                rw [List.getElem?_cons_zero, Option.some.injEq] at at_
                rw [← at_, Nat.add_zero, fetched, Except.ok.injEq] at presented
                intro pin member
                rw [← presented] at member
                exact keeps (mem_addUnseen.mpr (.inr member))
            | succ i =>
                rw [List.getElem?_cons_succ] at at_
                rw [← Nat.succ_add_eq_add_succ] at presented
                exact adds i host pins at_ presented

/-- The live pins are all that is observed. -/
theorem Observed.mem_livePins {live : List PyStr} (read : livePins tick = .ok live) {pin : PyStr}
    (observed : Observed tick pin) : pin ∈ live := by
  obtain ⟨n, host, pins, at_, presented, member⟩ := observed
  unfold livePins at read
  cases loop : livePinsFrom tick.presents 0 tick.settings.hostList [] with
  | error e =>
      rw [loop] at read
      cases read
  | ok seen =>
      rw [loop] at read
      cases read
      rw [List.mem_insertionSort]
      rw [← Nat.zero_add n] at presented
      exact (subset_livePinsFrom loop).2 n host pins at_ presented member

/-! ### One tick -/

/-- The reports of a healthy or a new manifest. -/
def CheckAction.reports (action : CheckAction) : Prop :=
  action = .noopHealthy ∨ action = .republished ∨ action = .republishedDrift

instance (action : CheckAction) : Decidable action.reports := inferInstanceAs (Decidable (_ ∨ _))

/-- The latest manifest has every pin that is observed, and more than seven days to run from the
reading of the tick. -/
def Covers (tick : Tick) (rows : List Manifest) : Prop :=
  ∃ m, latestManifest rows = some m ∧ (∀ pin, Observed tick pin → pin ∈ m.pins) ∧
    tick.now + 7 * microsPerDay < m.expiresAt

/-- The republish path adds no row, and reports a failure, or adds a manifest of the live pins. -/
theorem republish_cases (signing : Signing) (tick : Tick) (rows : List Manifest) (drifted : Bool)
    (live : Except PyStr (List PyStr)) :
    (republish signing tick rows drifted live).1 = rows ∧
        (republish signing tick rows drifted live).2.action = .failed ∨
      ∃ pins m, live = .ok pins ∧ (republish signing tick rows drifted live).1 = rows ++ [m] ∧
        pins ≠ [] ∧ m.version = nextVersion rows ∧ m.pins = pins ∧
        m.expiresAt = tick.now + tick.later + 60 * microsPerDay := by
  unfold republish
  cases live with
  | error e => exact .inl ⟨rfl, rfl⟩
  | ok pins =>
      cases published : publishManifest signing tick.settings (tick.now + tick.later) pins
          autoRepublishDaysValid rows with
      | error e => exact .inl ⟨by simp only [published], by simp only [published]⟩
      | ok result =>
          obtain ⟨rows', m⟩ := result
          obtain ⟨some_, rows_, next, pins_, expires⟩ := publishManifest_ok published
          exact .inr ⟨pins, m, rfl, by simp only [published, rows_], some_, next, pins_, expires⟩

theorem Manifests.republish (kept : Manifests rows) (drifted : Bool)
    (live : Except PyStr (List PyStr)) :
    Manifests (Certificates.republish signing tick rows drifted live).1 := by
  rcases republish_cases signing tick rows drifted live with
    ⟨same, -⟩ | ⟨pins, m, -, added, some_, next, pins_, -⟩
  · rw [same]
    exact kept
  · rw [added]
    exact kept.append next (by rw [pins_]; exact some_)

theorem covers_republish {drifted : Bool} {live : Except PyStr (List PyStr)}
    (read : live = livePins tick)
    (reports : (republish signing tick rows drifted live).2.action.reports) :
    Covers tick (republish signing tick rows drifted live).1 := by
  rcases republish_cases signing tick rows drifted live with
    ⟨-, failed⟩ | ⟨pins, m, is_live, added, -, next, pins_, expires⟩
  · rw [failed] at reports
    exact absurd reports (by decide)
  · rw [added]
    refine ⟨m, latestManifest_append next, ?_, ?_⟩
    · intro pin observed
      rw [pins_]
      exact observed.mem_livePins (read.symm.trans is_live)
    · rw [expires]
      calc tick.now + 7 * microsPerDay < tick.now + 60 * microsPerDay :=
            Nat.add_lt_add_left (by decide) _
        _ ≤ tick.now + tick.later + 60 * microsPerDay :=
            Nat.add_le_add_right (Nat.le_add_right _ _) _

theorem Manifests.probe (kept : Manifests rows) (current : Manifest) :
    Manifests (Certificates.probe signing tick rows current).1 := by
  unfold Certificates.probe
  split
  · exact kept
  · split
    · exact kept
    · split
      · exact kept.republish true _
      · exact kept

/-- A manifest with pins is compared with the chains. -/
theorem covers_probe {current : Manifest} (latest : latestManifest rows = some current)
    (pins : current.pins ≠ []) (runs : tick.now + 7 * microsPerDay < current.expiresAt)
    (reports : (probe signing tick rows current).2.action.reports) :
    Covers tick (probe signing tick rows current).1 := by
  unfold probe at reports ⊢
  rw [if_neg pins] at reports ⊢
  cases read : livePins tick with
  | error e =>
      rw [read] at reports
      exact absurd reports (by simp [CheckAction.reports])
  | ok live =>
      simp only [read] at reports ⊢
      by_cases drifted : live ≠ [] ∧ ¬ live ⊆ current.pins
      · rw [if_pos drifted] at reports ⊢
        exact covers_republish read.symm reports
      · rw [if_neg drifted]
        refine ⟨current, latest, ?_, runs⟩
        intro pin observed
        have member := observed.mem_livePins read
        have within : live ⊆ current.pins := by
          by_contra outside
          exact drifted ⟨List.ne_nil_of_mem member, outside⟩
        exact within member

theorem Manifests.maybeAutoRepublish (kept : Manifests rows) :
    Manifests (maybeAutoRepublish signing tick rows).1 := by
  unfold Certificates.maybeAutoRepublish
  split
  · exact kept
  · split
    · exact kept.republish false _
    · split
      · exact kept.republish false _
      · exact kept.probe _

theorem covers_maybeAutoRepublish (kept : Manifests rows)
    (reports : (maybeAutoRepublish signing tick rows).2.action.reports) :
    Covers tick (maybeAutoRepublish signing tick rows).1 := by
  unfold maybeAutoRepublish at reports ⊢
  by_cases keyless : strip tick.settings.signingKey = []
  · rw [if_pos keyless] at reports
    exact absurd reports (by simp [CheckAction.reports])
  · rw [if_neg keyless] at reports ⊢
    cases latest : latestManifest rows with
    | none =>
        rw [latest] at reports
        exact covers_republish rfl reports
    | some current =>
        simp only [latest] at reports ⊢
        by_cases expires : current.expiresAt ≤ tick.now + autoRepublishThresholdDays * microsPerDay
        · rw [if_pos expires] at reports ⊢
          exact covers_republish rfl reports
        · rw [if_neg expires] at reports ⊢
          exact covers_probe latest (kept.pinned current (List.argmax_mem latest))
            (Nat.lt_of_not_le expires) reports

/-! ### Runs -/

theorem Manifests.next {s : CertPins} (kept : Manifests s.rows) (a : PinAction) :
    Manifests (s.next signing a).rows := by
  cases a with
  | publish settings now pins daysValid =>
      rw [CertPins.next, CertPins.publish]
      cases published : publishManifest signing settings now pins daysValid s.rows with
      | error e => exact kept
      | ok result => exact kept.publish published
  | tick t => exact kept.maybeAutoRepublish
  | restart => exact kept

/-- In every run the versions increase, and after it every tick that reports a healthy or a new
manifest leaves a latest manifest with all the pins observed on it and more than seven days to
run. -/
theorem published_pins_cover {actions : List PinAction} {s : CertPins}
    (run : (pinMachine signing).run actions .start = some s) :
    (s.rows.map Manifest.version).Pairwise (· < ·) ∧
      ∀ tick, (maybeAutoRepublish signing tick s.rows).2.action.reports →
        Covers tick (s.tick signing tick).rows := by
  have kept : Manifests s.rows := by
    refine Machine.run_invariant (I := fun s => Manifests s.rows) ?_
      ⟨.nil, by simp [CertPins.start]⟩ run
    intro a s s' kept step
    cases step
    exact kept.next a
  exact ⟨kept.increasing, fun tick reports => covers_maybeAutoRepublish kept reports⟩

/-- A key that decodes to 32 bytes. -/
def demoSigning : Signing := ⟨fun _ => .ok (List.replicate 32 0), fun _ _ => []⟩

/-- Two hosts, one of them on the new intermediate and one on the old. -/
def rotation : Tick where
  settings := ⟨py "key", py "cz,share", py "cz"⟩
  now := 1000 * microsPerDay
  later := microsPerSecond
  presents n := .printed [.ok (py "leaf"), .ok (if n = 0 then py "YE2" else py "YE1")]

/-- The old intermediate alone is published by hand. -/
def oldPinAlone : List PinAction := [.publish rotation.settings (990 * microsPerDay) [py "YE1"] 60]

/-- What is stored then. -/
def publishedByHand : CertPins :=
  CertPins.start.publish demoSigning rotation.settings (990 * microsPerDay) [py "YE1"] 60

theorem oldPinAlone_run : (pinMachine demoSigning).run oldPinAlone .start = some publishedByHand := rfl

theorem rotation_is_drift :
    (maybeAutoRepublish demoSigning rotation publishedByHand.rows).2.action = .republishedDrift := by
  decide +kernel

/-- The tick after it finds the drift. -/
theorem rotation_covered :
    (pinMachine demoSigning).run oldPinAlone .start = some publishedByHand ∧
      (maybeAutoRepublish demoSigning rotation publishedByHand.rows).2.action = .republishedDrift ∧
      Covers rotation (publishedByHand.tick demoSigning rotation).rows :=
  ⟨oldPinAlone_run, rotation_is_drift, (published_pins_cover oldPinAlone_run).2 rotation
    (.inr (.inr rotation_is_drift))⟩

end GhostPour.Certificates
