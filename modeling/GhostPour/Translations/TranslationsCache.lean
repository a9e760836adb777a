/-
Module: GhostPour.Translations.TranslationsCache
Layer: Model
Purpose: `app/services/translations.py`: the prompts, the key of a segment group, the table of stored
  renditions with its purge, and `translate_group` as the two steps it takes around the awaited model,
  for any number of calls beside each other. The metadata of a model call, which the usage log alone
  reads, the log lines and the metering are left out.
Trusted boundary: human-reviewed spec
Main exports: systemPrompt, LanguageTag, normalizeLanguage, Segment, cacheKey, cacheGet, cachePut,
  purgeTranscriptTranslations, parseModelOutput, Request, ModelCall, CacheState, CacheAction,
  translationsMachine
-/
import GhostPour.Billing.Users
import GhostPour.Library.IsoText
import GhostPour.Library.Json
import GhostPour.Library.Machine
import GhostPour.Library.Regex

namespace GhostPour.Translations

open Billing Regex

/-! ### Prompts -/

/-- `ENGINE_VERSION`. -/
def engineVersion : Nat := 1

/-- The artifact whose renditions the retention of transcripts covers. -/
abbrev transcript : PyStr := py "transcript"

/-- `_PROMPT_BASE`. -/
def promptBase : PyStr :=
  py "You translate meeting content segments. Input is a JSON array of " ++
  py "\x7bid, text\x7d objects in the source language. Return ONLY a JSON array " ++
  py "of \x7bid, text\x7d objects: every id present exactly once, in the same " ++
  py "order, each text translated to the target language. Translate " ++
  py "faithfully: keep the register, fillers, and punctuation style of " ++
  py "the speaker; never summarize, never omit, never add. Personal " ++
  py "names, company names, and product names are never translated."

/-- `_PROMPT_PROSE_EXTRA`. -/
def promptProseExtra : PyStr :=
  py " Never use em dashes or en dashes anywhere in your output, even " ++
  py "when the source contains them; use a comma, colon, or parentheses " ++
  py "instead."

/-- `_PROMPT_TITLE_EXTRA`. -/
def promptTitleExtra : PyStr :=
  py " Every text here is the TITLE OF ONE MEETING: a name, not a sentence. " ++
  py "Return a name. No trailing period, no article you had to invent, no " ++
  py "explanatory clause. Never make a title more generic than the one you " ++
  py "were given: a title that no longer says WHICH meeting this was has " ++
  py "failed, even if it is shorter and reads well. Keep each title at or " ++
  py "under 60 characters where the language allows it; when a literal " ++
  py "rendering would run longer, choose the shorter faithful wording " ++
  py "rather than padding or truncating mid-word."

/-- `system_prompt`. -/
def systemPrompt (artifact : PyStr) : PyStr :=
  if artifact = transcript then promptBase
  else if artifact = py "title" then promptBase ++ promptProseExtra ++ promptTitleExtra
  else promptBase ++ promptProseExtra

/-- No other artifact has the prompt of transcripts. -/
theorem systemPrompt_eq_transcript {artifact : PyStr} :
    systemPrompt artifact = systemPrompt transcript ↔ artifact = transcript := by
  constructor
  · intro same
    by_contra other
    have longer : (systemPrompt artifact).length = promptBase.length :=
      congrArg List.length (same.trans (if_pos rfl))
    have extra : 0 < promptProseExtra.length := by
      unfold promptProseExtra
      rw [List.length_append, List.length_append]
      exact Nat.add_pos_left (Nat.add_pos_left (by decide +kernel) _) _
    unfold systemPrompt at longer
    rw [if_neg other] at longer
    split at longer
    · simp only [List.length_append] at longer
      omega
    · simp only [List.length_append] at longer
      omega
  · intro same
    rw [same]

/-! ### Languages -/

/-- `[A-Za-z]`. -/
def letter : Regex := .set isAsciiAlpha

/-- `[A-Za-z0-9]`. -/
def letterOrDigit : Regex := .set fun c => isAsciiAlpha c || isAsciiDigit c

/-- `[A-Za-z]{2,3}(-[A-Za-z0-9]{2,8})*`. -/
def languagePattern : Regex :=
  seqs [times 2 letter, upTo 1 letter,
    .many (seqs [lit ['-'], times 2 letterOrDigit, upTo 6 letterOrDigit])]

/-- A tag that `normalize_language` lets through. -/
structure LanguageTag where
  text : PyStr
  ok : (fullmatch languagePattern text).isSome = true
deriving DecidableEq

/-- `normalize_language`. -/
def normalizeLanguage : Json → Option LanguageTag
  | .str tag =>
      if ok : (fullmatch languagePattern (strip tag)).isSome = true then some ⟨strip tag, ok⟩ else none
  | _ => none

/-! ### Segments -/

/-- A segment: both callers of the engine build a dict of `id` and `text`. -/
structure Segment where
  id : PyStr
  text : PyStr
deriving DecidableEq

/-- The dict of a segment. -/
def Segment.dict (s : Segment) : Json := .obj [(py "id", .str s.id), (py "text", .str s.text)]

/-- A list of segments as JSON. -/
def segmentsJson (segments : List Segment) : Json := .arr (segments.map Segment.dict)

/-- A segment without white space, its keys in order. -/
def Segment.canonText (s : Segment) : PyStr :=
  lbrace :: (py "\"id\":" ++ (dumpsStr s.id ++ (py ",\"text\":" ++ (dumpsStr s.text ++ [rbrace]))))

/-- `json.dumps(_, sort_keys=True, separators=(",", ":"), ensure_ascii=False)` of segments. -/
def canonText (segments : List Segment) : PyStr :=
  lbracket :: (join (py ",") (segments.map Segment.canonText) ++ [rbracket])

/-- Whether a string can be written as UTF-8: a surrogate cannot. -/
def encodable (s : PyStr) : Bool := s.all fun c => !(isHighSurrogate c || isLowSurrogate c)

/-! ### The cache -/

/-- `cache_key`, over the digest. -/
def cacheKey (sha256 : PyStr → PyStr) (segments : List Segment) (source target : PyStr) : PyStr :=
  sha256 (canonText segments) ++ (colon :: (source ++ (colon :: (target ++ (py ":v" ++
    strOfNat engineVersion)))))

/-- A clock reading, in a year that `datetime` has. -/
structure Reading where
  instant : Instant
  dated : (DateTime.ofInstant instant).Dated
deriving DecidableEq

/-- `isoformat()`. -/
def Reading.text (now : Reading) : PyStr := (DateTime.ofInstant now.instant).isoformat

/-- What is asked of `translate_group`. -/
structure Request where
  segments : List Segment
  source : LanguageTag
  target : LanguageTag
  artifact : PyStr
deriving DecidableEq

/-- Its key. -/
def Request.key (sha256 : PyStr → PyStr) (q : Request) : PyStr :=
  cacheKey sha256 q.segments q.source.text q.target.text

/-- What a model is sent. -/
structure ChatRequest where
  provider : PyStr
  model : PyStr
  systemPrompt : PyStr
  userContent : PyStr
  maxTokens : Nat
deriving DecidableEq

/-- `TRANSLATION_PROVIDER`, `TRANSLATION_MODEL` and the rest of the request `translate_group` sends. -/
def chatRequest (q : Request) : ChatRequest where
  provider := py "anthropic"
  model := py "claude-haiku-4-5-20251001"
  systemPrompt := systemPrompt q.artifact
  userContent :=
    py "Target language: " ++ q.target.text ++ py ". Source language: " ++ q.source.text ++ py ".\n" ++
      dumps (segmentsJson q.segments)
  maxTokens := 8192

/-- A model call whose output was kept. -/
structure ModelCall where
  request : Request
  engineVersion : Nat
  sent : ChatRequest
  output : List Segment
  finished : Reading
deriving DecidableEq

/-- A row of `translations_cache`; `call` is no column: it is the model call the rendition is from. -/
structure Row where
  artifact : PyStr
  sourceLanguage : PyStr
  targetLanguage : PyStr
  engineVersion : Nat
  responseJson : PyStr
  createdAt : PyStr
  call : ModelCall

/-- The table. -/
abbrev Cache := Table PyStr Row

/-- The row `cache_put` writes. -/
def rowOf (call : ModelCall) : Row where
  artifact := call.request.artifact
  sourceLanguage := call.request.source.text
  targetLanguage := call.request.target.text
  engineVersion := engineVersion
  responseJson := dumps (segmentsJson call.output)
  createdAt := call.finished.text
  call := call

/-- `cache_put`: `INSERT OR REPLACE`. -/
def cachePut (cache : Cache) (key : PyStr) (call : ModelCall) : Cache :=
  cache.upsert key (rowOf call) fun _ => rowOf call

/-- `purge_transcript_translations`. -/
def purgeTranscriptTranslations (now : Reading) (maxAgeDays : Nat) (cache : Cache) : Cache :=
  let cutoff := (DateTime.ofInstant (now.instant - maxAgeDays * microsPerDay)).isoformat
  cache.deleteWhere fun _ row => row.artifact = transcript && row.createdAt < cutoff

section
variable [PyRuntime]

/-- What a stored text is read as; one that is no JSON, or null, is no hit. -/
def readResponse (text : PyStr) : Option Json :=
  match loads text with
  | some .null => none
  | read => read

/-- `cache_get`, with the model call of the row. -/
def cacheGet (cache : Cache) (key : PyStr) : Option (Json × ModelCall) :=
  (cache.get key).bind fun row => (readResponse row.responseJson).map fun hit => (hit, row.call)

/-! ### The model -/

/-- A dict with a text for `id` and one for `text`; its other keys are dropped. -/
def cleaned : Json → Option Segment
  | .obj o =>
      match Dict.get o (py "id"), Dict.get o (py "text") with
      | .str id, .str text => some ⟨id, text⟩
      | _, _ => none
  | _ => none

/-- `\[.*\]`, where the point matches a line break too. -/
def bracketed : Regex := seqs [lit ['['], .many (.set fun _ => true), lit [']']]

/-- `parse_model_output`. -/
def parseModelOutput (text : PyStr) (expectedIds : List PyStr) : Option (List Segment) :=
  match (search bracketed text).bind fun m => loads m.text with
  | some (.arr out) => (out.mapM cleaned).filter fun segments => segments.map Segment.id = expectedIds
  | _ => none

/-- What an attempt comes to. -/
inductive Reply where
  | raised
  | text (response : PyStr)

/-- The attempts in turn: a reply that does not round-trip its ids asks for the next. -/
def modelOutput (expectedIds : List PyStr) : List Reply → Except PyStr (List Segment)
  | [] => .error (py "translation_shape_error")
  | .raised :: _ => .error (py "provider_error")
  | .text response :: later =>
      match parseModelOutput response expectedIds with
      | some out => .ok out
      | none => modelOutput expectedIds later

end

/-- What the budget gate reads of the user who pays: the tier, the trial, the meter of the row. -/
structure Payer where
  tier : Option TierDefinition
  isTrial : Bool
  monthlyUsedUsd : Option ℚ

/-- Why the gate raises `TranslationBlocked`, if it does. -/
def Payer.blocked (payer : Payer) : Option PyStr :=
  match payer.tier with
  | none => some (py "unknown_tier")
  | some tier =>
      let effectiveLimit :=
        if payer.isTrial then tier.trialCostLimitUsd.getD tier.monthlyCostLimitUsd
        else tier.monthlyCostLimitUsd
      if effectiveLimit ≠ -1 ∧ effectiveLimit ≤ payer.monthlyUsedUsd.getD 0 then
        some (py "allocation_exhausted")
      else none

/-! ### The calls -/

/-- What a call of `translate_group` returned, and the model call it is from. -/
structure Answer where
  request : Request
  cached : Bool
  segments : Json
  call : ModelCall

/-- The table and the calls that wait for a model; the model calls whose output was kept and the answers
are history. -/
structure CacheState where
  cache : Cache
  waiting : Table Nat Request
  calls : List ModelCall
  answers : List Answer

/-- Before the first call. -/
def CacheState.start : CacheState := ⟨.empty, .empty, [], []⟩

/-- A call looks its key up; the model answers a call that found nothing; a call that found nothing is
cancelled, or raises where the source does not catch; the sweep. -/
inductive CacheAction where
  | ask (id : Nat) (request : Request)
  | answer (id : Nat) (payer : Payer) (first second : Reply) (now : Reading)
  | lose (id : Nat)
  | purge (now : Reading) (maxAgeDays : Nat)

namespace CacheState

/-- The sweep. -/
def purge (now : Reading) (maxAgeDays : Nat) (s : CacheState) : CacheState :=
  { s with cache := purgeTranscriptTranslations now maxAgeDays s.cache }

/-- The call waits no longer. -/
def drop (id : Nat) (s : CacheState) : CacheState := { s with waiting := s.waiting.delete id }

/-- The end of `translate_group`: the output is stored and returned. -/
def keep (sha256 : PyStr → PyStr) (call : ModelCall) (s : CacheState) : CacheState where
  cache := cachePut s.cache (call.request.key sha256) call
  waiting := s.waiting
  calls := s.calls ++ [call]
  answers := s.answers ++ [⟨call.request, false, segmentsJson call.output, call⟩]

/-- `translate_group` up to the first thing it awaits after its cache lookup. Segments that cannot be
encoded have no key. -/
def ask [PyRuntime] (sha256 : PyStr → PyStr) (id : Nat) (q : Request) (s : CacheState) : CacheState :=
  if encodable (canonText q.segments) then
    match cacheGet s.cache (q.key sha256) with
    | some (hit, call) => { s with answers := s.answers ++ [⟨q, true, hit, call⟩] }
    | none => { s with waiting := s.waiting.upsert id q fun _ => q }
  else s

/-- The rest of it. An output that cannot be encoded cannot be stored. -/
def answer [PyRuntime] (sha256 : PyStr → PyStr) (id : Nat) (q : Request) (payer : Payer)
    (replies : List Reply) (now : Reading) (s : CacheState) : CacheState :=
  if payer.blocked = none then
    match modelOutput (q.segments.map Segment.id) replies with
    | .ok out =>
        if encodable (dumps (segmentsJson out)) then
          (s.drop id).keep sha256 ⟨q, engineVersion, chatRequest q, out, now⟩
        else s.drop id
    | .error _ => s.drop id
  else s.drop id

end CacheState

/-- Any number of calls beside each other, with the sweep. -/
def translationsMachine [PyRuntime] (sha256 : PyStr → PyStr) : Machine CacheState CacheAction where
  step
    | .ask id q, s => if s.waiting.get id = none then some (s.ask sha256 id q) else none
    | .answer id payer first second now, s =>
        (s.waiting.get id).map fun q => s.answer sha256 id q payer [first, second] now
    | .lose id, s => some (s.drop id)
    | .purge now maxAgeDays, s => some (s.purge now maxAgeDays)

end GhostPour.Translations
