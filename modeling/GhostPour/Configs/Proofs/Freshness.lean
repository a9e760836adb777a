/-
Module: GhostPour.Configs.Proofs.Freshness
Layer: Proofs
Purpose: An answer "not changed" finds the client with the document that its request resolves to,
  exactly when every request resolves to the slug the client's document came from, or to the same
  content, or to a higher version than it holds. The versions of different documents count apart, and
  one number decides, so that of two documents each can be asked for after the other.
Trusted boundary: none
Main exports: NotStale, InStep, Tracks, never_stale_iff, switch_goes_stale,
  locale_goes_stale
-/
import GhostPour.Configs.ConfigDelivery
import GhostPour.Library.Dicts

namespace GhostPour.Configs

variable {shelf : Shelf} {configs : RemoteConfigs} {s s' : ConfigState} {visit visit' : Visit}
  {slug slug' : PyStr} {config config' : RemoteConfig} {h : Held} {sent : Option PyStr}

/-! ### The invariant -/

/-- The slug the client's document came from still has a config, of no lower version, and the same
document while the version is the same. -/
def Tracks (s : ConfigState) : Prop :=
  ∀ h, s.held = some h → ∃ config, s.configs.get h.slug = some config ∧
    (strOfNat h.version.natAbs).length ≤ maxStrDigits ∧
    (h.version < config.version ∨
      h.version = config.version ∧ (filledAtServe h.slug = false → config.doc = h.content))

theorem tracks_edit (tracks : Tracks s) (bumps : Bumps s.configs slug config) :
    Tracks { s with configs := s.configs.set slug config } := by
  intro h held
  obtain ⟨config', stored, short, later⟩ := tracks h held
  change ∃ c, (s.configs.set slug config).get h.slug = some c ∧ _
  by_cases same : h.slug = slug
  · have newer : h.version < config.version := by
      have bumped := bumps config' (same ▸ stored)
      rcases later with below | ⟨equal, -⟩
      · exact below.trans bumped
      · exact equal ▸ bumped
    rw [same, Assoc.get_set_self]
    exact ⟨config, rfl, short, .inl newer⟩
  · rw [Assoc.get_set_of_ne same]
    exact ⟨config', stored, short, later⟩

section
variable [PyRuntime]

/-! ### What is to hold of every request -/

/-- Where a request is answered "not changed", the client holds what it resolves to. -/
def NotStale (shelf : Shelf) : ConfigAction → ConfigState → Prop
  | .get visit, s =>
      ∀ slug version, getConfig shelf s.configs visit s.sent = .notChanged slug version →
        ∃ h config, s.held = some h ∧ s.configs.get slug = some config ∧
          contentOf s.configs slug config = some h.content
  | .edit _ _, _ => True

/-- A request that resolves to something else than the slug the client's document came from, or to the
copy that is filled at serve time, resolves to the same content or to a higher version. -/
def InStep (shelf : Shelf) : ConfigAction → ConfigState → Prop
  | .get visit, s =>
      ∀ h slug config, s.held = some h → resolved shelf s.configs visit = some (slug, config) →
        slug = h.slug ∧ filledAtServe slug = false ∨
          contentOf s.configs slug config = some h.content ∨ h.version < config.version
  | .edit _ _, _ => True

theorem resolved_get (found : resolved shelf configs visit = some (slug, config)) :
    configs.get slug = some config := by
  unfold resolved at found
  obtain ⟨name, -, rest⟩ := Option.bind_eq_some_iff.mp found
  obtain ⟨config', stored, open_⟩ := Option.bind_eq_some_iff.mp rest
  split at open_
  · cases open_
  · cases open_
    exact stored

theorem getConfig_notChanged {version : Int} :
    getConfig shelf configs visit sent = .notChanged slug version ↔
      ∃ config client, resolved shelf configs visit = some (slug, config) ∧
        config.version = version ∧ sent.bind intBase10 = some client ∧ version ≤ client := by
  unfold getConfig
  cases found : resolved shelf configs visit with
  | none => simp
  | some pair =>
      obtain ⟨slug', config⟩ := pair
      cases read : sent.bind intBase10 with
      | none =>
          simp only [Option.any_none, Bool.false_eq_true, if_false]
          cases contentOf configs slug' config <;> simp
      | some client =>
          by_cases current : config.version ≤ client
          · simp only [Option.any_some, current, decide_true, if_true, ConfigAnswer.notChanged.injEq,
              Option.some.injEq, Prod.mk.injEq]
            constructor
            · rintro ⟨rfl, rfl⟩
              exact ⟨config, client, ⟨rfl, rfl⟩, rfl, rfl, current⟩
            · rintro ⟨_, _, ⟨rfl, rfl⟩, same, -, -⟩
              exact ⟨rfl, same⟩
          · simp only [Option.any_some, current, decide_false, Bool.false_eq_true, if_false]
            constructor
            · cases contentOf configs slug' config <;> simp
            · rintro ⟨_, _, same, rfl, read', le⟩
              cases same
              cases read'
              exact absurd le current

theorem getConfig_document {content : Dict} {version : Int}
    (answer : getConfig shelf configs visit sent = .document slug content version) :
    ∃ config, configs.get slug = some config ∧ config.version = version ∧
      contentOf configs slug config = some content := by
  unfold getConfig at answer
  cases found : resolved shelf configs visit with
  | none =>
      rw [found] at answer
      cases answer
  | some pair =>
      obtain ⟨slug', config⟩ := pair
      rw [found] at answer
      dsimp only at answer
      split at answer
      · cases answer
      · cases served : contentOf configs slug' config with
        | none =>
            rw [served] at answer
            cases answer
        | some content' =>
            rw [served] at answer
            cases answer
            exact ⟨config, resolved_get found, rfl, served⟩

theorem sent_bind (tracks : Tracks s) (held : s.held = some h) :
    s.sent.bind intBase10 = some h.version := by
  obtain ⟨-, -, short, -⟩ := tracks h held
  rw [ConfigState.sent, held]
  exact intBase10_strOfInt short

/-! ### What each step does -/

theorem tracks_receive (tracks : Tracks s) :
    Tracks (s.receive (getConfig shelf s.configs visit s.sent)) := by
  cases answer : getConfig shelf s.configs visit s.sent with
  | unknown => exact tracks
  | notChanged slug version => exact tracks
  | failed => exact tracks
  | document slug content version =>
      obtain ⟨config, stored, rfl, served⟩ := getConfig_document answer
      intro h held
      cases held
      refine ⟨config, stored, config.legible, .inr ⟨rfl, fun plain => ?_⟩⟩
      rw [contentOf, plain] at served
      exact Option.some.inj served

theorem tracks_step (a : ConfigAction) (s s' : ConfigState) (tracks : Tracks s)
    (step : (configMachine shelf).step a s = some s') : Tracks s' := by
  cases a with
  | get visit =>
      cases step
      exact tracks_receive tracks
  | edit slug config =>
      obtain ⟨bumps, taken⟩ := Option.ite_none_right_eq_some.mp step
      cases taken
      exact tracks_edit tracks bumps

/-- A request is answered as it should be exactly when it is in step. -/
theorem notStale_iff (tracks : Tracks s) (a : ConfigAction) :
    NotStale shelf a s ↔ InStep shelf a s := by
  cases a with
  | edit slug config => exact Iff.rfl
  | get visit =>
      constructor
      · intro fresh h slug config held found
        by_cases newer : h.version < config.version
        · exact .inr (.inr newer)
        · have answer : getConfig shelf s.configs visit s.sent = .notChanged slug config.version :=
            getConfig_notChanged.mpr
              ⟨config, h.version, found, rfl, sent_bind tracks held, not_lt.mp newer⟩
          obtain ⟨h', config', held', stored, served⟩ := fresh slug config.version answer
          cases held.symm.trans held'
          cases (resolved_get found).symm.trans stored
          exact .inr (.inl served)
      · intro step slug version answer
        obtain ⟨config, client, found, rfl, sent, le⟩ := getConfig_notChanged.mp answer
        cases held : s.held with
        | none =>
            rw [ConfigState.sent, held] at sent
            cases sent
        | some h =>
            cases sent.symm.trans (sent_bind tracks held)
            refine ⟨h, config, rfl, resolved_get found, ?_⟩
            rcases step h slug config held found with ⟨same, plain⟩ | served | newer
            · obtain ⟨config', stored, -, later⟩ := tracks h held
              cases (same ▸ stored).symm.trans (resolved_get found)
              rcases later with newer | ⟨-, kept⟩
              · exact absurd le (not_le.mpr newer)
              · rw [contentOf, plain, ← kept (same ▸ plain)]
                rfl
            · exact served
            · exact absurd le (not_le.mpr newer)

/-! ### Every run -/

/-- From the first request of a client on, "not changed" is never said of another document exactly when
every request is in step. -/
theorem never_stale_iff (shelf : Shelf) (configs : RemoteConfigs) (actions : List ConfigAction) :
    (configMachine shelf).Along (NotStale shelf) actions ⟨configs, none⟩ ↔
      (configMachine shelf).Along (InStep shelf) actions ⟨configs, none⟩ := by
  have start : Tracks ⟨configs, none⟩ := by
    intro h held
    cases held
  exact Machine.along_congr tracks_step (fun a s tracks => notStale_iff tracks a) start

/-- A client with a document of no lower version is not given another one. -/
theorem older_is_withheld {content content' : Dict}
    (first : resolved shelf configs visit = some (slug, config))
    (served : contentOf configs slug config = some content)
    (second : resolved shelf configs visit' = some (slug', config'))
    (served' : contentOf configs slug' config' = some content') (other : content ≠ content')
    (older : config'.version ≤ config.version) :
    ¬ (configMachine shelf).Along (NotStale shelf) [.get visit, .get visit'] ⟨configs, none⟩ := by
  rintro ⟨-, after⟩
  have answer : getConfig shelf configs visit none = .document slug content config.version := by
    unfold getConfig
    rw [first]
    simp only [Option.bind_none, Option.any_none, Bool.false_eq_true, if_false, served]
  obtain ⟨fresh, -⟩ := after ⟨configs, some ⟨slug, content, config.version⟩⟩ (by
    change some (ConfigState.receive _ (getConfig shelf configs visit none)) = _
    rw [answer]
    rfl)
  have withheld : getConfig shelf configs visit' (some (strOfInt config.version)) =
      .notChanged slug' config'.version :=
    getConfig_notChanged.mpr
      ⟨config', config.version, second, rfl, intBase10_strOfInt config.legible, older⟩
  obtain ⟨h, config'', held, stored, same⟩ := fresh slug' config'.version withheld
  cases held
  cases (resolved_get second).symm.trans stored
  rw [served', Option.some.injEq] at same
  exact other same.symm

/-- Of two requests that resolve to different documents, one made after the other finds a stale "not
changed", in the one order or in the other. -/
theorem switch_goes_stale {content content' : Dict}
    (first : resolved shelf configs visit = some (slug, config))
    (served : contentOf configs slug config = some content)
    (second : resolved shelf configs visit' = some (slug', config'))
    (served' : contentOf configs slug' config' = some content') (other : content ≠ content') :
    ¬ ((configMachine shelf).Along (NotStale shelf) [.get visit, .get visit'] ⟨configs, none⟩ ∧
      (configMachine shelf).Along (NotStale shelf) [.get visit', .get visit] ⟨configs, none⟩) := by
  rintro ⟨forth, back⟩
  rcases le_total config'.version config.version with older | newer
  · exact older_is_withheld first served second served' other older forth
  · exact older_is_withheld second served' first served other.symm newer back

end

/-- A config that holds its version and nothing else. -/
def bareConfig (version : Nat) (legible : (strOfNat version).length ≤ maxStrDigits) : RemoteConfig :=
  ⟨[(py "version", .int version)], version, rfl, legible⟩

theorem seven_legible : (strOfNat 7).length ≤ maxStrDigits := by decide

theorem five_legible : (strOfNat 5).length ≤ maxStrDigits := by decide

/-- English tips of version 7 and Spanish ones of version 5. -/
def tips : RemoteConfigs :=
  [(py "idle-tips", bareConfig 7 seven_legible), (py "idle-tips.es", bareConfig 5 five_legible)]

/-- A client of the default app, in a language. -/
def tipsReader (language : PyStr) : Visit := ⟨none, none, some language, false⟩

/-- `idle-tips` of ShoulderSurf, without build ceilings. -/
def tipsShelf : Shelf := ⟨⟨py "shouldersurf", []⟩, [], py "idle-tips"⟩

/-- A client that has the English tips and changes to Spanish is told that nothing has changed. -/
theorem locale_goes_stale :
    letI := PyRuntime.ascii
    ¬ (configMachine tipsShelf).Along (NotStale tipsShelf)
      [.get (tipsReader (py "en-US")), .get (tipsReader (py "es-MX,es;q=0.9"))] ⟨tips, none⟩ := by
  letI := PyRuntime.ascii
  have english : resolved tipsShelf tips (tipsReader (py "en-US")) =
      some (py "idle-tips", bareConfig 7 seven_legible) := rfl
  have spanish : resolved tipsShelf tips (tipsReader (py "es-MX,es;q=0.9")) =
      some (py "idle-tips.es", bareConfig 5 five_legible) := rfl
  apply older_is_withheld english rfl spanish rfl
  · intro same
    injection same with same
    injection same with _ same
    injection same with same
    cases same
  · decide

end GhostPour.Configs
