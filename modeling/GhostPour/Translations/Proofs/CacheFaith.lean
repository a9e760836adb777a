/-
Module: GhostPour.Translations.Proofs.CacheFaith
Layer: Proofs
Purpose: What a call answered from the cache returns, and what the sweep leaves of the renditions of
  transcripts. The key tells segments and languages apart but not artifacts, so both hold in a run
  exactly when no call finds a row stored for an artifact with another prompt.
Trusted boundary: none
Main exports: canonText_inj, key_inj, Provenance, Faithful, NoOldTranscript, SamePrompt,
  cache_faithful_iff, summary_answers_transcript
-/
import GhostPour.Library.JsonCanonical
import GhostPour.Library.RegexLemmas
import GhostPour.Translations.TranslationsCache

namespace GhostPour.Translations

open Regex

/-! ### The key -/

theorem Segment.canonText_append_inj {s s' : Segment} {rest rest' : PyStr}
    (same : s.canonText ++ rest = s'.canonText ++ rest') : s = s' ∧ rest = rest' := by
  obtain ⟨id, text⟩ := s
  obtain ⟨id', text'⟩ := s'
  simp only [Segment.canonText, List.cons_append, List.append_assoc, List.cons.injEq, true_and,
    List.append_cancel_left_eq] at same
  obtain ⟨rfl, afterId⟩ := dumpsStr_append_inj same
  rw [List.append_cancel_left_eq] at afterId
  obtain ⟨rfl, afterText⟩ := dumpsStr_append_inj afterId
  exact ⟨rfl, (List.cons.inj afterText).2⟩

/-- The segments after the first. -/
def canonRest (segments : List Segment) : PyStr := segments.flatMap fun s => comma :: s.canonText

theorem canonText_cons (s : Segment) (segments : List Segment) :
    canonText (s :: segments) = lbracket :: (s.canonText ++ (canonRest segments ++ [rbracket])) := by
  unfold canonText canonRest
  rw [List.map_cons, join_eq_flatMap, List.flatMap_map, List.append_assoc]
  rfl

theorem canonRest_inj : ∀ {first second : List Segment},
    canonRest first ++ [rbracket] = canonRest second ++ [rbracket] → first = second
  | [], [], _ => rfl
  | [], _ :: _, same => absurd (List.cons.inj same).1 (by decide)
  | _ :: _, [], same => absurd (List.cons.inj same).1 (by decide)
  | s :: first, s' :: second, same => by
      have tails : s.canonText ++ (canonRest first ++ [rbracket]) =
          s'.canonText ++ (canonRest second ++ [rbracket]) := by
        simpa [canonRest] using same
      obtain ⟨rfl, later⟩ := Segment.canonText_append_inj tails
      rw [canonRest_inj later]

/-- The canonical text tells lists of segments apart. -/
theorem canonText_inj {first second : List Segment} (same : canonText first = canonText second) :
    first = second := by
  cases first with
  | nil =>
      cases second with
      | nil => rfl
      | cons s second =>
          rw [canonText_cons] at same
          exact absurd (List.cons.inj (List.cons.inj same).2).1 (by decide)
  | cons s first =>
      cases second with
      | nil =>
          rw [canonText_cons] at same
          exact absurd (List.cons.inj (List.cons.inj same).2).1 (by decide)
      | cons s' second =>
          rw [canonText_cons, canonText_cons] at same
          obtain ⟨rfl, later⟩ := Segment.canonText_append_inj (List.cons.inj same).2
          rw [canonRest_inj later]

/-- A tag has no colon. -/
theorem LanguageTag.colon_not_mem (tag : LanguageTag) : colon ∉ tag.text := by
  have sets : languagePattern.SetsIn (· != colon) := by
    have atoms : ∀ x, (isAsciiAlpha x || isAsciiDigit x) = true → (x != colon) = true := by
      intro x atom
      rw [bne_iff_ne]
      rintro rfl
      exact absurd atom (by decide)
    have letters : letter.SetsIn (· != colon) := fun x isLetter => atoms x (by rw [isLetter]; rfl)
    have either : letterOrDigit.SetsIn (· != colon) := atoms
    have dash : (lit ['-']).SetsIn (· != colon) := by
      intro x isDash
      obtain rfl : x = 45 := by simpa using isDash
      rfl
    simp only [languagePattern, seqs, times, upTo, opt, SetsIn, letters, either, dash, and_self]
  intro member
  have notColon := chars_of_fullmatch sets tag.ok _ member
  simp at notColon

theorem LanguageTag.eq_of_text {s t : LanguageTag} (same : s.text = t.text) : s = t := by
  cases s
  cases t
  cases same
  rfl

section
variable {sha256 : PyStr → PyStr} (hexDigits : ∀ text, (sha256 text).length = 64)
include hexDigits

/-- Two keys are one only where digest and languages are. -/
theorem key_inj {q q' : Request} (same : q.key sha256 = q'.key sha256) :
    sha256 (canonText q.segments) = sha256 (canonText q'.segments) ∧ q.source = q'.source ∧
      q.target = q'.target := by
  unfold Request.key cacheKey at same
  obtain ⟨digest, rest⟩ := List.append_inj same ((hexDigits _).trans (hexDigits _).symm)
  have tags : (q.source.text ++ colon :: q.target.text) ++ (py ":v" ++ strOfNat engineVersion) =
      (q'.source.text ++ colon :: q'.target.text) ++ (py ":v" ++ strOfNat engineVersion) := by
    rw [List.append_assoc, List.append_assoc]
    exact (List.cons.inj rest).2
  obtain ⟨source, -, target⟩ := (List.append_cons_inj_of_notMem q.source.colon_not_mem
    q.target.colon_not_mem).mp (List.append_cancel_right tags)
  exact ⟨digest, LanguageTag.eq_of_text source, LanguageTag.eq_of_text target⟩

end

/-! ### Where the rows are from -/

/-- The requests of the calls. -/
def asked (actions : List CacheAction) : List Request :=
  actions.filterMap fun
    | .ask _ q => some q
    | _ => none

/-- No two texts that the calls digest have one digest. -/
def CollisionFree (sha256 : PyStr → PyStr) (requests : List Request) : Prop :=
  ∀ q ∈ requests, ∀ q' ∈ requests, sha256 (canonText q.segments) = sha256 (canonText q'.segments) →
    canonText q.segments = canonText q'.segments

/-- A row is as its model call stored it, under the key of that call's request; a model call was sent a
request that was asked; an answer is the output of its model call. -/
structure Provenance (sha256 : PyStr → PyStr) (requests : List Request) (s : CacheState) : Prop where
  row : ∀ k row, s.cache.get k = some row →
    row = rowOf row.call ∧ k = row.call.request.key sha256 ∧ row.call ∈ s.calls
  call : ∀ c ∈ s.calls, c.engineVersion = engineVersion ∧ c.sent = chatRequest c.request ∧
    c.request ∈ requests ∧ encodable (canonText c.request.segments) = true
  waits : ∀ id q, s.waiting.get id = some q →
    q ∈ requests ∧ encodable (canonText q.segments) = true
  answered : ∀ a ∈ s.answers, a.call ∈ s.calls ∧ a.segments = segmentsJson a.call.output ∧
    (a.cached = false → a.call.request = a.request)

section
variable {sha256 : PyStr → PyStr} {requests : List Request} {s s' : CacheState}

theorem Provenance.start : Provenance sha256 requests .start where
  row _ _ stored := by cases stored
  call _ member := by cases member
  waits _ _ stored := by cases stored
  answered _ member := by cases member

namespace Provenance

variable (inv : Provenance sha256 requests s)
include inv

theorem drop (id : Nat) : Provenance sha256 requests (s.drop id) where
  row := inv.row
  call := inv.call
  answered := inv.answered
  waits id' q stored := by
    apply inv.waits id' q
    change (s.waiting.delete id).get id' = some q at stored
    rw [Table.get_delete] at stored
    split at stored
    · cases stored
    · exact stored

theorem purge (now : Reading) (maxAgeDays : Nat) :
    Provenance sha256 requests (s.purge now maxAgeDays) where
  row k row stored := by
    apply inv.row k row
    change (purgeTranscriptTranslations now maxAgeDays s.cache).get k = some row at stored
    rw [purgeTranscriptTranslations, Table.get_deleteWhere] at stored
    exact (Option.filter_eq_some_iff.mp stored).1
  call := inv.call
  waits := inv.waits
  answered := inv.answered

theorem keep {call : ModelCall} (version : call.engineVersion = engineVersion)
    (sent : call.sent = chatRequest call.request) (listed : call.request ∈ requests)
    (encoded : encodable (canonText call.request.segments) = true) :
    Provenance sha256 requests (s.keep sha256 call) where
  row k row stored := by
    change (cachePut s.cache (call.request.key sha256) call).get k = some row at stored
    by_cases here : k = call.request.key sha256
    · rw [here, cachePut, Table.get_replace_self] at stored
      cases stored
      exact ⟨rfl, here, List.mem_append_right _ (List.mem_singleton_self call)⟩
    · rw [cachePut, Table.get_upsert_of_ne _ _ _ here] at stored
      obtain ⟨shape, key, made⟩ := inv.row k row stored
      exact ⟨shape, key, List.mem_append_left _ made⟩
  call c member := by
    rcases List.mem_append.mp member with old | new
    · exact inv.call c old
    · rw [List.mem_singleton.mp new]
      exact ⟨version, sent, listed, encoded⟩
  waits := inv.waits
  answered a member := by
    rcases List.mem_append.mp member with old | new
    · obtain ⟨made, output, own⟩ := inv.answered a old
      exact ⟨List.mem_append_left _ made, output, own⟩
    · rw [List.mem_singleton.mp new]
      exact ⟨List.mem_append_right _ (List.mem_singleton_self call), rfl, fun _ => rfl⟩

end Provenance

section
variable [PyRuntime]

theorem readResponse_dumps (out : List Segment) :
    readResponse (dumps (segmentsJson out)) = some (segmentsJson out) := by
  have canonical : (segmentsJson out).Canonical := by
    rw [segmentsJson, canonical_arr_iff]
    intro v member
    obtain ⟨s, -, rfl⟩ := List.mem_map.mp member
    rw [Segment.dict, canonical_obj_iff]
    refine ⟨by simp only [List.map_cons, List.map_nil]; decide, ?_⟩
    simp [Json.Canonical]
  unfold readResponse
  rw [loads_dumps canonical]
  rfl

namespace Provenance

variable (inv : Provenance sha256 requests s)
include inv

/-- Every row is read back. -/
theorem cacheGet_eq (k : PyStr) :
    cacheGet s.cache k =
      (s.cache.get k).map fun row => (segmentsJson row.call.output, row.call) := by
  unfold cacheGet
  cases stored : s.cache.get k with
  | none => rfl
  | some row =>
      obtain ⟨shape, -, -⟩ := inv.row k row stored
      have text : row.responseJson = dumps (segmentsJson row.call.output) := by rw [shape]; rfl
      rw [Option.bind_some, text, readResponse_dumps]
      rfl

theorem ask {id : Nat} {q : Request} (listed : q ∈ requests) :
    Provenance sha256 requests (s.ask sha256 id q) := by
  unfold CacheState.ask
  split
  · next encoded =>
    rw [inv.cacheGet_eq]
    cases stored : s.cache.get (q.key sha256) with
    | none =>
        refine ⟨inv.row, inv.call, fun id' q' waits => ?_, inv.answered⟩
        change (s.waiting.upsert id q fun _ => q).get id' = some q' at waits
        by_cases here : id' = id
        · rw [here, Table.get_replace_self] at waits
          cases waits
          exact ⟨listed, encoded⟩
        · rw [Table.get_upsert_of_ne _ _ _ here] at waits
          exact inv.waits id' q' waits
    | some row =>
        refine ⟨inv.row, inv.call, inv.waits, fun a member => ?_⟩
        rcases List.mem_append.mp member with old | new
        · exact inv.answered a old
        · rw [List.mem_singleton.mp new]
          exact ⟨(inv.row _ row stored).2.2, rfl, fun own => by cases own⟩
  · exact inv

theorem answer {id : Nat} {q : Request} (waits : s.waiting.get id = some q) (payer : Payer)
    (replies : List Reply) (now : Reading) :
    Provenance sha256 requests (s.answer sha256 id q payer replies now) := by
  obtain ⟨listed, encoded⟩ := inv.waits id q waits
  unfold CacheState.answer
  split
  · split
    · split
      · exact (inv.drop id).keep rfl rfl listed encoded
      · exact inv.drop id
    · exact inv.drop id
  · exact inv.drop id

theorem step {actions : List CacheAction} (within : asked actions ⊆ requests) {a : CacheAction}
    (member : a ∈ actions) (taken : (translationsMachine sha256).step a s = some s') :
    Provenance sha256 requests s' := by
  cases a with
  | ask id q =>
      obtain ⟨-, asks⟩ := Option.ite_none_right_eq_some.mp taken
      cases asks
      exact inv.ask (within (List.mem_filterMap.mpr ⟨_, member, rfl⟩))
  | answer id payer first second now =>
      obtain ⟨q, waits, rfl⟩ := Option.map_eq_some_iff.mp taken
      exact inv.answer waits payer _ now
  | lose id =>
      cases taken
      exact inv.drop id
  | purge now maxAgeDays =>
      cases taken
      exact inv.purge now maxAgeDays

end Provenance

/-! ### What the cache answers -/

/-- The answer is the output of a model call made with the same segments, languages, engine version and
system prompt. -/
structure Answer.Faithful (calls : List ModelCall) (a : Answer) : Prop where
  made : a.call ∈ calls
  segments : a.call.request.segments = a.request.segments
  source : a.call.request.source = a.request.source
  target : a.call.request.target = a.request.target
  version : a.call.engineVersion = engineVersion
  prompt : a.call.sent.systemPrompt = systemPrompt a.request.artifact
  output : a.segments = segmentsJson a.call.output

/-- So is every answer from the cache. -/
def Faithful (s : CacheState) : Prop := ∀ a ∈ s.answers, a.cached = true → a.Faithful s.calls

/-- No rendition that a call for a transcript obtained, and that is older than the cut-off, is in the
cache. -/
def NoOldTranscript (now : Reading) (maxAgeDays : Nat) (s : CacheState) : Prop :=
  ∀ a ∈ s.answers, a.request.artifact = transcript →
    a.call.finished.instant + maxAgeDays * microsPerDay < now.instant →
      ∀ k row, s.cache.get k = some row → row.call ≠ a.call

/-- What the cache answers is faithful, and a sweep, whenever it comes, leaves no transcript that is too
old. -/
def Kept (s : CacheState) : Prop :=
  Faithful s ∧ ∀ now maxAgeDays, NoOldTranscript now maxAgeDays (s.purge now maxAgeDays)

/-- A call finds no row stored for an artifact with another prompt. -/
def SamePrompt (sha256 : PyStr → PyStr) : CacheAction → CacheState → Prop
  | .ask _ q, s => ∀ row ∈ s.cache.get (q.key sha256), systemPrompt row.artifact = systemPrompt q.artifact
  | _, _ => True

section
variable (inv : Provenance sha256 requests s)
include inv

omit [PyRuntime] in
/-- Faithful answers are swept in time: a transcript was answered by a row that says so. -/
theorem Provenance.noOldTranscript (faithful : Faithful s) (now : Reading) (maxAgeDays : Nat) :
    NoOldTranscript now maxAgeDays (s.purge now maxAgeDays) := by
  intro a member isTranscript old k row stored same
  change (purgeTranscriptTranslations now maxAgeDays s.cache).get k = some row at stored
  rw [purgeTranscriptTranslations, Table.get_deleteWhere, Option.filter_eq_some_iff] at stored
  obtain ⟨before, kept⟩ := stored
  obtain ⟨shape, -, made⟩ := inv.row k row before
  obtain ⟨-, sent, -, -⟩ := inv.call _ made
  have artifact : row.call.request.artifact = transcript := by
    cases cached : a.cached with
    | false => rw [same, (inv.answered a member).2.2 cached, isTranscript]
    | true =>
        have prompt := (faithful a member cached).prompt
        rw [← same, sent, isTranscript] at prompt
        exact systemPrompt_eq_transcript.mp prompt
  have early : row.call.finished.instant < now.instant - maxAgeDays * microsPerDay := by
    rw [same]
    exact Nat.lt_sub_of_add_lt old
  have text : row.createdAt <
      (DateTime.ofInstant (now.instant - maxAgeDays * microsPerDay)).isoformat := by
    rw [shape]
    exact (DateTime.isoformat_lt_iff row.call.finished.dated
      (now.dated.of_le (Nat.sub_le _ _))).mpr early
  have column : row.artifact = transcript := by
    rw [shape]
    exact artifact
  simp [column, text] at kept

omit [PyRuntime] in
theorem Provenance.kept_iff : Kept s ↔ Faithful s :=
  ⟨And.left, fun faithful => ⟨faithful, inv.noOldTranscript faithful⟩⟩

/-- A call that finds a row is answered faithfully exactly when the row's artifact has its prompt. -/
theorem Provenance.ask_faithful_iff (hexDigits : ∀ text, (sha256 text).length = 64)
    (free : CollisionFree sha256 requests) {id : Nat} {q : Request} (listed : q ∈ requests)
    (faithful : Faithful s) :
    Faithful (s.ask sha256 id q) ↔
      ∀ row ∈ s.cache.get (q.key sha256), systemPrompt row.artifact = systemPrompt q.artifact := by
  have answered := inv.cacheGet_eq (q.key sha256)
  cases stored : s.cache.get (q.key sha256) with
  | none =>
      rw [stored] at answered
      refine iff_of_true ?_ (by simp)
      unfold CacheState.ask
      split
      · rw [answered]
        exact faithful
      · exact faithful
  | some row =>
      rw [stored] at answered
      obtain ⟨shape, key, made⟩ := inv.row _ row stored
      obtain ⟨version, sent, listed', encoded⟩ := inv.call _ made
      obtain ⟨digest, source, target⟩ := key_inj hexDigits key
      have segments := canonText_inj (free _ listed _ listed' digest)
      have artifact : row.artifact = row.call.request.artifact := by rw [shape]; rfl
      rw [← segments] at encoded
      unfold CacheState.ask
      rw [if_pos encoded, answered]
      constructor
      · intro each row' same
        cases same
        have new := each _ (List.mem_append_right _ (List.mem_singleton_self _)) rfl
        have prompt := new.prompt
        rw [sent] at prompt
        rw [artifact]
        exact prompt
      · intro same a member cached
        rcases List.mem_append.mp member with old | new
        · exact faithful a old cached
        · rw [List.mem_singleton.mp new]
          refine ⟨made, segments.symm, source.symm, target.symm, version, ?_, rfl⟩
          rw [sent, ← same row rfl, artifact]
          rfl

end

omit [PyRuntime] in
/-- What is faithful stays so where calls are added. -/
theorem Answer.Faithful.mono {calls calls' : List ModelCall} {a : Answer} (faithful : a.Faithful calls)
    (more : calls ⊆ calls') : a.Faithful calls' :=
  { faithful with made := more faithful.made }

theorem Faithful.answer (faithful : Faithful s) (id : Nat) (q : Request) (payer : Payer)
    (replies : List Reply) (now : Reading) :
    Faithful (s.answer sha256 id q payer replies now) := by
  unfold CacheState.answer
  split
  · split
    · split
      · intro a member cached
        rcases List.mem_append.mp member with old | new
        · exact (faithful a old cached).mono (List.subset_append_left _ _)
        · rw [List.mem_singleton.mp new] at cached
          cases cached
      · exact faithful
    · exact faithful
  · exact faithful

/-- Every state of a run has its provenance. -/
theorem Provenance.run {actions : List CacheAction} {last : CacheState}
    (run : (translationsMachine sha256).run actions .start = some last) :
    Provenance sha256 (asked actions) last := by
  have along : (translationsMachine sha256).Along (fun a _ => a ∈ actions) actions .start :=
    Machine.along_of_forall (fun _ member _ => member) _
  exact Machine.run_invariant_along
    (fun a s s' member inv taken => inv.step (List.Subset.refl _) member taken) along .start run

/-- In every state of a run, what was answered from the cache is the output of a model call made with the
same segments, languages, engine version and system prompt, and a sweep leaves no rendition obtained for
a transcript that is older than the cut-off, if and only if no call finds a row stored for an artifact
with another prompt. -/
theorem cache_faithful_iff {actions : List CacheAction} {last : CacheState}
    (hexDigits : ∀ text, (sha256 text).length = 64) (free : CollisionFree sha256 (asked actions))
    (run : (translationsMachine sha256).run actions .start = some last) :
    (∀ front, front <+: actions → ∀ mid, (translationsMachine sha256).run front .start = some mid →
        Kept mid) ↔
      (translationsMachine sha256).Along (SamePrompt sha256) actions .start := by
  have begins : Faithful CacheState.start := by
    intro a member
    cases member
  have origin : Provenance sha256 (asked actions) CacheState.start := .start
  refine Machine.throughout_iff_along_under (fun a member _ _ inv taken =>
    inv.step (List.Subset.refl _) member taken) ?_ origin (origin.kept_iff.mpr begins) run
  intro a member s s' inv kept taken
  have faithful := kept.1
  rw [(inv.step (List.Subset.refl _) member taken).kept_iff]
  cases a with
  | ask id q =>
      obtain ⟨-, asks⟩ := Option.ite_none_right_eq_some.mp taken
      cases asks
      exact inv.ask_faithful_iff hexDigits free (List.mem_filterMap.mpr ⟨_, member, rfl⟩) faithful
  | answer id payer first second now =>
      obtain ⟨q, waits, rfl⟩ := Option.map_eq_some_iff.mp taken
      exact iff_of_true (faithful.answer id q payer _ now) trivial
  | lose id =>
      cases taken
      exact iff_of_true faithful trivial
  | purge now maxAgeDays =>
      cases taken
      exact iff_of_true faithful trivial

end

end

/-! ### A card, and the transcript after it -/

theorem es_ok : (fullmatch languagePattern (py "es")).isSome = true := by decide +kernel

theorem en_ok : (fullmatch languagePattern (py "en")).isSome = true := by decide +kernel

/-- One segment of Spanish, for an artifact. -/
def oneSegment (artifact : PyStr) : Request :=
  ⟨[⟨py "a0", py "Enviar la oferta"⟩], ⟨py "es", es_ok⟩, ⟨py "en", en_ok⟩, artifact⟩

/-- The digest of that segment; no other text is digested. -/
def sampleSha256 (text : PyStr) : PyStr :=
  if text = canonText (oneSegment transcript).segments then
    py "9ea866e35d5c094785b28f630640c0448fe321a9e31efb4abfe5d70d719da7bc"
  else List.replicate 64 (ord '0')

theorem sampleSha256_length (text : PyStr) : (sampleSha256 text).length = 64 := by
  unfold sampleSha256
  split
  · decide +kernel
  · exact List.length_replicate

/-- Noon of the first of September 2026, so many days later. -/
def noonAfter (days : Nat) : Instant :=
  (daysBeforeMonth (12 * 2025 + 8) + days) * microsPerDay + microsPerDay / 2

theorem noonAfter_dated : (DateTime.ofInstant (noonAfter 0)).Dated := by decide +kernel

theorem noonAfter_later_dated : (DateTime.ofInstant (noonAfter 42)).Dated := by decide +kernel

/-- A user without a limit. -/
def proUser : Payer := ⟨Billing.tiersYml.get (py "pro"), false, none⟩

/-- The card of a shared meeting is translated, then the same segment of the transcript. -/
def cardThenTranscript : List CacheAction :=
  [.ask 0 (oneSegment (py "summary")),
    .answer 0 proUser (.text (py "[\x7b\"id\": \"a0\", \"text\": \"Send the quote\"\x7d]")) .raised
      ⟨noonAfter 0, noonAfter_dated⟩,
    .ask 1 (oneSegment transcript)]

/-- The transcript is answered with the rendition of the card, which no model made from the prompt of
transcripts, and the sweep six weeks later leaves it. -/
theorem summary_answers_transcript :
    letI := PyRuntime.ascii
    ∃ mid, (translationsMachine sampleSha256).run cardThenTranscript .start = some mid ∧
      ¬ Faithful mid ∧
      ¬ NoOldTranscript ⟨noonAfter 42, noonAfter_later_dated⟩ 30
        (mid.purge ⟨noonAfter 42, noonAfter_later_dated⟩ 30) := by
  let _ := PyRuntime.ascii
  have shown : ((translationsMachine sampleSha256).run cardThenTranscript .start).any (fun mid =>
      decide (mid.calls.length = 1 ∧
        (∃ a ∈ mid.answers, a.cached = true ∧ a.request.artifact = transcript ∧
          a.call.request.artifact ≠ transcript ∧
          a.call.finished.instant + 30 * microsPerDay < noonAfter 42) ∧
        (mid.purge ⟨noonAfter 42, noonAfter_later_dated⟩ 30).cache.rows ≠ [])) =
      true := by decide +kernel
  obtain ⟨mid, run, holds⟩ := (Option.any_eq_true _ _).mp shown
  obtain ⟨one, ⟨a, member, cached, isTranscript, other, old⟩, left⟩ := of_decide_eq_true holds
  have inv : Provenance sampleSha256 (asked cardThenTranscript) mid := .run run
  obtain ⟨made, -, -⟩ := inv.answered a member
  refine ⟨mid, run, fun faithful => other ?_, fun swept => ?_⟩
  · have prompt := (faithful a member cached).prompt
    rw [(inv.call a.call made).2.1, isTranscript] at prompt
    exact systemPrompt_eq_transcript.mp prompt
  · -- the one model call is the one both of the answer and of the row that stays
    obtain ⟨r, rows, whole⟩ := List.exists_cons_of_ne_nil left
    have stored := Table.get_of_mem (whole ▸ List.mem_cons_self : (r.1, r.2) ∈ _)
    obtain ⟨-, -, made'⟩ := (inv.purge ⟨noonAfter 42, noonAfter_later_dated⟩ 30).row r.1 r.2 stored
    obtain ⟨call, only⟩ := List.length_eq_one_iff.mp one
    have calls : (mid.purge ⟨noonAfter 42, noonAfter_later_dated⟩ 30).calls = [call] := only
    rw [only, List.mem_singleton] at made
    rw [calls, List.mem_singleton] at made'
    exact swept a member isTranscript old r.1 r.2 stored (made'.trans made.symm)

theorem cardThenTranscript_free : CollisionFree sampleSha256 (asked cardThenTranscript) := by
  have segments : ∀ q ∈ asked cardThenTranscript, q.segments = (oneSegment transcript).segments := by
    intro q member
    have whole : asked cardThenTranscript = [oneSegment (py "summary"), oneSegment transcript] := rfl
    rw [whole, List.mem_pair] at member
    rcases member with rfl | rfl <;> rfl
  intro q member q' member' _
  rw [segments q member, segments q' member']

theorem card_then_transcript_iff :
    letI := PyRuntime.ascii
    ∃ last, (translationsMachine sampleSha256).run cardThenTranscript .start = some last ∧
      ((∀ front, front <+: cardThenTranscript → ∀ mid,
          (translationsMachine sampleSha256).run front .start = some mid → Kept mid) ↔
        (translationsMachine sampleSha256).Along (SamePrompt sampleSha256) cardThenTranscript .start) := by
  let _ := PyRuntime.ascii
  have returns : ((translationsMachine sampleSha256).run cardThenTranscript .start).isSome = true := by
    decide +kernel
  obtain ⟨last, run⟩ := Option.isSome_iff_exists.mp returns
  exact ⟨last, run, cache_faithful_iff sampleSha256_length cardThenTranscript_free run⟩

end GhostPour.Translations
