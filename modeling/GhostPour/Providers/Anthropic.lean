/-
Module: GhostPour.Providers.Anthropic
Layer: Model
Purpose: `app/services/providers/anthropic.py`: the response the adapter builds from a finished message, and
  the one it accumulates from the events of a stream. The API's JSON is given by its documented shapes: a
  content block or an event by its type, a usage record by its counts. The texts kept for the logs
  (`raw_request_json`, `raw_response_json`) and the time to the first token are left out. `_build_body` of
  `app/services/providers/anthropic.py`: the tools, the system blocks and the parts of the user's message,
  each with its cache breakpoint. The settings of the model (sampling, thinking, output, container, tool
  choice) and the headers are left out: no text or breakpoint depends on them.
Trusted boundary: human-reviewed spec
Main exports: Message, StreamEvent, StreamOf, sendRequest, sendRequestStream, Marked, PromptRequest, Body,
  buildSystemBlocks, layoutForReferences, buildBody
-/
import GhostPour.Chat.TurnMeter
import GhostPour.Library.Json

namespace GhostPour.Providers

/-! ### What the API sends -/

/-- A content block of a message. -/
inductive Block where
  | text (text : PyStr)
  | thinking (thinking : PyStr)
  | redactedThinking
  | toolUse (name : PyStr)
  | serverToolUse (name : PyStr)
  | webSearchToolResult
deriving DecidableEq

/-- A usage record: a count the API does not report is null. -/
structure Usage where
  inputTokens : Nat
  cacheCreationInputTokens : Option Nat
  cacheReadInputTokens : Option Nat
  outputTokens : Nat
  /-- `server_tool_use.web_search_requests`. -/
  serverToolUse : Option Nat
deriving DecidableEq

/-- A count that may be null. -/
def countJson : Option Nat → Json
  | none => .null
  | some n => .int n

/-- The record as the body has it. -/
def Usage.toDict (u : Usage) : Dict :=
  [ (py "input_tokens", .int u.inputTokens),
    (py "cache_creation_input_tokens", countJson u.cacheCreationInputTokens),
    (py "cache_read_input_tokens", countJson u.cacheReadInputTokens),
    (py "output_tokens", .int u.outputTokens),
    (py "server_tool_use", match u.serverToolUse with
      | none => .null
      | some n => .obj [(py "web_search_requests", .int n)]) ]

/-- The body of a finished message, which has stopped for good: a turn that pauses is resumed. -/
structure Message where
  id : PyStr
  model : PyStr
  content : List Block
  stopReason : PyStr
  usage : Usage
  id_ne : id ≠ []
  model_ne : model ≠ []
  stopReason_ne : stopReason ≠ []
  stopReason_final : stopReason ≠ py "pause_turn"

/-- The delta of a content block. -/
inductive Delta where
  | textDelta (text : PyStr)
  | citationsDelta
  | inputJsonDelta (partialJson : PyStr)
  | thinkingDelta (thinking : PyStr)
  | signatureDelta
deriving DecidableEq

/-- An event of a stream. -/
inductive StreamEvent where
  | messageStart (id model : PyStr) (usage : Usage)
  | contentBlockStart (contentBlock : Block)
  | contentBlockDelta (delta : Delta)
  | contentBlockStop
  | messageDelta (stopReason : PyStr) (usage : Usage)
  | messageStop
  | ping
deriving DecidableEq

/-- The text a delta adds to a block. -/
def Delta.text : Delta → PyStr
  | .textDelta text => text
  | _ => []

/-- The deltas the API sends for a block: they add up to its text, and only a text block has any. -/
def Block.DeltasOf (block : Block) (deltas : List Delta) : Prop :=
  match block with
  | .text t => deltas.flatMap Delta.text = t
  | _ => ∀ delta ∈ deltas, delta.text = []

/-- The block a `content_block_start` announces: what the deltas will fill in is still empty. -/
def Block.announced : Block → Block
  | .text _ => .text []
  | .thinking _ => .thinking []
  | block => block

/-- The events of some blocks, one block after the other. -/
inductive BlocksStream : List Block → List StreamEvent → Prop
  | nil : BlocksStream [] []
  | block {block : Block} {deltas : List Delta} {blocks : List Block} {events : List StreamEvent}
      (sum : block.DeltasOf deltas) (rest : BlocksStream blocks events) :
      BlocksStream (block :: blocks)
        (.contentBlockStart block.announced :: deltas.map .contentBlockDelta ++
          .contentBlockStop :: events)

/-- The events of a stream that sends a message, apart from pings. The record at the start has the
counts known before the model answers, the one at the end has those of the message. -/
def StreamOf (m : Message) (start : Usage) (events : List StreamEvent) : Prop :=
  ∃ blocks, BlocksStream m.content blocks ∧
    events.filter (· ≠ .ping) =
      .messageStart m.id m.model start :: blocks ++
        [.messageDelta m.stopReason m.usage, .messageStop]

/-! ### The adapter -/

/-- What the adapter reads of a request. -/
structure ChatRequest where
  provider : PyStr
  model : PyStr
  generation : Bool

/-- The response of an adapter. -/
structure ChatResponse where
  text : PyStr
  inputTokens : Option Nat
  outputTokens : Option Nat
  model : PyStr
  provider : PyStr
  usage : Dict

mutual

/-- A value of `_flatten_usage`: a dict is flattened under its key, a null is dropped. -/
def flattenValue (fullKey : PyStr) : Json → Dict → Dict
  | .obj members, flat => flattenUsage fullKey members flat
  | .null, flat => flat
  | v, flat => flat.set fullKey v

/-- `_flatten_usage`: nested keys are joined by dots. -/
def flattenUsage (above : PyStr) : List (PyStr × Json) → Dict → Dict
  | [], flat => flat
  | (k, v) :: members, flat =>
      flattenUsage above members
        (flattenValue (if above = [] then k else above ++ py "." ++ k) v flat)

end

/-- The texts of the text blocks. -/
def textParts (content : List Block) : List PyStr :=
  content.filterMap fun
    | .text text => some text
    | _ => none

/-- A search the model asked for. -/
def isWebSearch : Block → Bool
  | .serverToolUse name => name = py "web_search"
  | _ => false

/-- `send_request`, from the body of the answer. -/
def sendRequest (request : ChatRequest) (data : Message) : ChatResponse :=
  let parts := textParts data.content
  let text :=
    if request.generation ∧ parts ≠ [] then parts.getLastD []
    else if parts ≠ [] then join (py "\n") parts
    else []
  let usage := flattenUsage [] data.usage.toDict []
  let searchCount := (data.content.filter isWebSearch).length
  let usage := if searchCount ≠ 0 then usage.set (py "web_search_requests") (.int searchCount)
    else usage
  let usage := if data.id ≠ [] then usage.set (py "response_id") (.str data.id) else usage
  let usage := if data.model ≠ [] then usage.set (py "model_version") (.str data.model) else usage
  let usage := if data.stopReason ≠ [] then usage.set (py "finish_reason") (.str data.stopReason)
    else usage
  { text := text
    inputTokens := some data.usage.inputTokens
    outputTokens := some data.usage.outputTokens
    model := request.model
    provider := request.provider
    usage := usage }

/-- What the stream accumulates. -/
structure Accumulated where
  fullText : PyStr
  inputTokens : Nat
  outputTokens : Nat
  responseId : PyStr
  modelVersion : PyStr
  stopReason : PyStr
  cacheCreation : Option Nat
  cacheRead : Option Nat
  webSearchCount : Nat

/-- Before the first event. -/
def Accumulated.init : Accumulated := ⟨[], 0, 0, [], [], [], some 0, some 0, 0⟩

/-- An event of the stream. -/
def Accumulated.event (acc : Accumulated) : StreamEvent → Accumulated
  | .messageStart id model usage =>
      { acc with
        responseId := id
        modelVersion := model
        inputTokens := usage.inputTokens
        cacheCreation := usage.cacheCreationInputTokens
        cacheRead := usage.cacheReadInputTokens }
  | .contentBlockStart block =>
      if isWebSearch block then { acc with webSearchCount := acc.webSearchCount + 1 } else acc
  | .contentBlockDelta (.textDelta chunk) => { acc with fullText := acc.fullText ++ chunk }
  | .messageDelta stopReason usage =>
      { acc with stopReason := stopReason, outputTokens := usage.outputTokens }
  | _ => acc

/-- `send_request_stream`: the response of the last event it yields. -/
def sendRequestStream (request : ChatRequest) (events : List StreamEvent) : ChatResponse :=
  let acc := events.foldl Accumulated.event .init
  let usage : Dict :=
    [ (py "input_tokens", .int acc.inputTokens),
      (py "output_tokens", .int acc.outputTokens),
      (py "cache_creation_input_tokens", countJson acc.cacheCreation),
      (py "cache_read_input_tokens", countJson acc.cacheRead),
      (py "response_id", .str acc.responseId),
      (py "model_version", .str acc.modelVersion),
      (py "finish_reason", .str acc.stopReason) ]
  let usage := if acc.webSearchCount ≠ 0 then
      usage.set (py "web_search_requests") (.int acc.webSearchCount)
    else usage
  { text := acc.fullText
    inputTokens := some acc.inputTokens
    outputTokens := some acc.outputTokens
    model := request.model
    provider := request.provider
    usage := usage }

end GhostPour.Providers

namespace GhostPour.Providers

/-! ### Blocks -/

/-- A cache breakpoint: `"ttl": "1h"`, or none, which is five minutes. -/
inductive CacheControl where
  | fiveMinutes
  | oneHour
deriving DecidableEq

/-- A block with the breakpoint set on it. -/
structure Marked (α : Type) where
  value : α
  cacheControl : Option CacheControl
deriving DecidableEq

/-- A part of the user's message. -/
inductive ContentPart where
  | text (text : PyStr)
  | document (title : Option PyStr) (mediaType data : PyStr)
  | image (data : PyStr)
deriving DecidableEq

/-- A tool of the request; a supplied one is sent as it is. -/
inductive Tool where
  | webSearch
  | codeExecution
  | supplied (definition : Dict)

structure DocumentAttachment where
  name : PyStr
  mediaType : PyStr
  data : PyStr

/-- What `_build_body` reads of a request. A list or a text that is not there is empty, and metadata that is
not there has no keys. -/
structure PromptRequest extends ChatRequest where
  systemPrompt : PyStr
  userContent : PyStr
  images : List PyStr
  documents : List DocumentAttachment
  referenceText : PyStr
  tools : List (Marked Dict)
  metadata : Dict
  /-- The top-level `call_type`. -/
  callType : Option PyStr
  /-- Whether `get_meta("search_enabled")` is true. -/
  searchEnabled : Bool

/-- `get_meta("call_type") if request.metadata else None`. -/
def PromptRequest.laneCallType (request : PromptRequest) : Option PyStr :=
  if request.metadata.isEmpty then none
  else if request.metadata.has (py "call_type") then
    match request.metadata.get (py "call_type") with
    | .str callType => some callType
    | _ => none
  else request.callType

/-- `get_meta("cq_recall_block") if request.metadata else None`: the text the recall hook stashed. -/
def PromptRequest.recallBlock (request : PromptRequest) : PyStr :=
  match request.metadata.get (py "cq_recall_block") with
  | .str block => block
  | _ => []

/-- `request.system_prompt.find(recall) if recall else -1`. -/
def PromptRequest.recallIndex (request : PromptRequest) : Option Nat :=
  if request.recallBlock = [] then none else find? request.recallBlock request.systemPrompt

/-! ### The system blocks -/

/-- `_system_cache_control`. -/
def systemCacheControl (request : PromptRequest) : CacheControl :=
  match request.laneCallType with
  | none => .fiveMinutes
  | some callType => if callType ∈ Chat.interviewerCallTypes then .oneHour else .fiveMinutes

/-- `_build_system_blocks`. -/
def buildSystemBlocks (request : PromptRequest) : List (Marked PyStr) :=
  match request.recallIndex with
  | none => [⟨request.systemPrompt, some (systemCacheControl request)⟩]
  | some idx =>
      let before := request.systemPrompt.take idx
      let suffix := request.systemPrompt.drop (idx + request.recallBlock.length)
      (if before ≠ [] then [⟨before, some (systemCacheControl request)⟩] else []) ++
        -- a recall that comes last changes every turn: a breakpoint after it would never be read
        (if suffix = [] then [⟨request.recallBlock, none⟩]
         else [⟨request.recallBlock, some .fiveMinutes⟩, ⟨suffix, none⟩])

/-- `_RECALL_LABEL`. -/
def recallLabel : PyStr := py "[CONTEXT FROM PREVIOUS MEETINGS]\n"

/-- The prompt before the recall, without the label the hook may have put there. -/
def withoutLabel (head : PyStr) : PyStr :=
  if endsWith recallLabel head then head.take (head.length - recallLabel.length) else head

/-- `_layout_for_references`: the system blocks, and the text of the recall part where the recall has to come
after the references. -/
def layoutForReferences (request : PromptRequest) : List (Marked PyStr) × Option PyStr :=
  if request.documents.isEmpty ∧ request.referenceText = [] then (buildSystemBlocks request, none)
  else
    match request.recallIndex with
    | none => (buildSystemBlocks request, none)
    | some idx =>
        let head := withoutLabel (request.systemPrompt.take idx)
        let systemText := head ++ request.systemPrompt.drop (idx + request.recallBlock.length)
        ([⟨systemText, some (systemCacheControl request)⟩], some (recallLabel ++ request.recallBlock))

/-! ### The body -/

/-- A breakpoint on the last block. -/
def markLast {α : Type} : List (Marked α) → List (Marked α)
  | [] => []
  | [block] => [{ block with cacheControl := some .fiveMinutes }]
  | block :: blocks => block :: markLast blocks

/-- A breakpoint on the first text part. -/
def markFirstText : List (Marked ContentPart) → List (Marked ContentPart)
  | [] => []
  | part :: parts =>
      match part.value with
      | .text _ => { part with cacheControl := some .fiveMinutes } :: parts
      | _ => part :: markFirstText parts

/-- The parts of the documents. -/
def documentParts (documents : List DocumentAttachment) : List (Marked ContentPart) :=
  markLast (documents.map fun doc =>
    ⟨.document (if doc.name = [] then none else some doc.name) doc.mediaType doc.data, none⟩)

/-- The steering block of a generation request. -/
def generationSteering (stamp : PyStr) : PyStr :=
  py "Inside every file you create, exactly as in your chat answer, never use an em dash or an en dash as " ++
    py "punctuation and never an arrow glyph: join a title and its subtitle with a colon, set off an aside " ++
    py "with commas or parentheses, write a range as 'to'. A dash in a table cell or a heading is the same " ++
    py "defect as a dash in chat. " ++
    py "When creating Word (.docx) files in the sandbox, use the python-docx library, not docx.js or " ++
    py "hand-written OOXML; Word rejects their output. For checklists, use plain paragraphs starting with " ++
    py "the ballot-box glyph, never checkbox glyphs inside bulleted list items (double markers). Style the " ++
    py "document title as Title, sections as Heading 1-3. " ++
    py "Name every file you create so a person browsing a folder immediately knows what it is: a short " ++
    py "lowercase subject slug from the actual content, then a MMDDYY date stamp using the date of the " ++
    py "meeting the content is about (the most recent one when several; use " ++ stamp ++
    py " only when no meeting date is evident), like acme_onboarding_roadmap_071026.xlsx. Never use generic " ++
    py "names like output.xlsx, document.docx, or file.pdf."

/-- What the request sends that has a place in the cache, in the order the cache reads it. -/
structure Body where
  tools : List (Marked Tool)
  system : List (Marked PyStr)
  content : List (Marked ContentPart)

/-- The parts of the user's message, before a generation request marks the last text. -/
def contentParts (request : PromptRequest) (recallPart : Option PyStr) : List (Marked ContentPart) :=
  documentParts request.documents ++
    (if request.referenceText ≠ [] then
      [⟨.text request.referenceText, if request.generation then none else some .fiveMinutes⟩]
     else []) ++
    recallPart.toList.map (fun text => ⟨.text text, none⟩) ++
    (request.images.take 5).map (fun data => ⟨.image data, none⟩) ++
    [⟨.text request.userContent, none⟩]

/-- `_build_body`; `stamp` is the date of the server. -/
def buildBody (request : PromptRequest) (stamp : PyStr) : Body :=
  let layout := layoutForReferences request
  let content := contentParts request layout.2
  let tools := (if request.searchEnabled then [⟨.webSearch, none⟩] else []) ++
    request.tools.map fun tool => ⟨.supplied tool.value, tool.cacheControl⟩
  if request.generation then
    { tools := tools ++ [⟨.codeExecution, none⟩]
      system := layout.1 ++ [⟨generationSteering stamp, none⟩]
      content := (markFirstText content.reverse).reverse }
  else { tools := tools, system := layout.1, content := content }

end GhostPour.Providers
