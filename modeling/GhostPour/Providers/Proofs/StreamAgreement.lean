/-
Module: GhostPour.Providers.Proofs.StreamAgreement
Layer: Proofs
Purpose: The response accumulated from a stream is the one built from the finished message exactly
  when the message has its text in one block and the stream starts with the counts it ends with.
Trusted boundary: none
Main exports: accumulated_eq, Agrees, TextInOneBlock, adapters_agree_iff
-/
import GhostPour.Library.Dicts
import GhostPour.Providers.Anthropic

namespace GhostPour.Providers

/-! ### What a stream accumulates -/

/-- The accumulated state after some blocks. -/
def Accumulated.afterBlocks (acc : Accumulated) (content : List Block) : Accumulated :=
  { acc with
    fullText := acc.fullText ++ (textParts content).flatten
    webSearchCount := acc.webSearchCount + (content.filter isWebSearch).length }

theorem foldl_deltas (deltas : List Delta) (acc : Accumulated) :
    (deltas.map StreamEvent.contentBlockDelta).foldl Accumulated.event acc =
      { acc with fullText := acc.fullText ++ deltas.flatMap Delta.text } := by
  induction deltas generalizing acc with
  | nil => simp
  | cons delta deltas ih =>
      rw [List.map_cons, List.foldl_cons, ih, List.flatMap_cons]
      cases delta <;> simp [Accumulated.event, Delta.text]

theorem isWebSearch_announced (block : Block) : isWebSearch block.announced = isWebSearch block := by
  cases block <;> rfl

/-- The deltas of a block add the text of the block. -/
theorem Block.DeltasOf.text {block : Block} {deltas : List Delta} (sum : block.DeltasOf deltas) :
    deltas.flatMap Delta.text = (textParts [block]).flatten := by
  cases block with
  | text t =>
      rw [show deltas.flatMap Delta.text = t from sum]
      simp [textParts]
  | thinking => exact List.flatMap_eq_nil_iff.mpr sum
  | redactedThinking => exact List.flatMap_eq_nil_iff.mpr sum
  | toolUse => exact List.flatMap_eq_nil_iff.mpr sum
  | serverToolUse => exact List.flatMap_eq_nil_iff.mpr sum
  | webSearchToolResult => exact List.flatMap_eq_nil_iff.mpr sum

theorem textParts_cons (block : Block) (content : List Block) :
    textParts (block :: content) = textParts [block] ++ textParts content := by
  unfold textParts
  rw [← List.filterMap_append, List.singleton_append]

theorem foldl_blocks {content : List Block} {events : List StreamEvent}
    (stream : BlocksStream content events) (acc : Accumulated) :
    events.foldl Accumulated.event acc = acc.afterBlocks content := by
  induction stream generalizing acc with
  | nil => simp [Accumulated.afterBlocks, textParts]
  | @block block deltas blocks events sum _ ih =>
      rw [List.cons_append, List.foldl_cons, List.foldl_append, List.foldl_cons, foldl_deltas, ih]
      simp only [Accumulated.event, isWebSearch_announced, Accumulated.afterBlocks, sum.text,
        textParts_cons block blocks, List.filter_cons]
      cases isWebSearch block
      · simp
      · simp
        omega

theorem foldl_pings (events : List StreamEvent) (acc : Accumulated) :
    events.foldl Accumulated.event acc =
      (events.filter (· ≠ .ping)).foldl Accumulated.event acc := by
  induction events generalizing acc with
  | nil => rfl
  | cons event events ih =>
      rw [List.foldl_cons, ih, List.filter_cons]
      split
      · rw [List.foldl_cons]
      · next ping =>
        obtain rfl : event = .ping := by simpa using ping
        rfl

/-- What a stream of a message accumulates. -/
theorem accumulated_eq {m : Message} {start : Usage} {events : List StreamEvent}
    (stream : StreamOf m start events) :
    events.foldl Accumulated.event .init =
      { fullText := (textParts m.content).flatten
        inputTokens := start.inputTokens
        outputTokens := m.usage.outputTokens
        responseId := m.id
        modelVersion := m.model
        stopReason := m.stopReason
        cacheCreation := start.cacheCreationInputTokens
        cacheRead := start.cacheReadInputTokens
        webSearchCount := (m.content.filter isWebSearch).length } := by
  obtain ⟨blocks, sent, eq⟩ := stream
  rw [foldl_pings, eq, List.cons_append, List.foldl_cons, List.foldl_append, foldl_blocks sent]
  simp [Accumulated.event, Accumulated.afterBlocks, Accumulated.init]

/-! ### The text -/

/-- The text of the message is in one block; in a turn that builds a file, every other text block is
empty and comes before it. -/
def TextInOneBlock (generation : Bool) (content : List Block) : Prop :=
  if generation then ∀ part ∈ (textParts content).dropLast, part = []
  else (textParts content).length ≤ 1

instance (generation : Bool) (content : List Block) : Decidable (TextInOneBlock generation content) := by
  unfold TextInOneBlock
  infer_instance

theorem length_join (parts : List PyStr) :
    (join (py "\n") parts).length = parts.flatten.length + (parts.length - 1) := by
  induction parts with
  | nil => rfl
  | cons part parts ih =>
      cases parts with
      | nil => simp [join]
      | cons next parts =>
          have step : join (py "\n") (part :: next :: parts) =
              part ++ (py "\n" ++ join (py "\n") (next :: parts)) := by
            simp [join, List.intercalate]
          have newline : (py "\n").length = 1 := rfl
          rw [step, List.length_append, List.length_append, ih, newline]
          simp only [List.flatten_cons, List.length_append, List.length_cons]
          omega

theorem join_eq_flatten_iff (parts : List PyStr) :
    join (py "\n") parts = parts.flatten ↔ parts.length ≤ 1 := by
  constructor
  · intro same
    have lengths := length_join parts
    rw [same] at lengths
    omega
  · intro short
    rcases parts with _ | ⟨part, _ | ⟨next, rest⟩⟩
    · rfl
    · simp [join]
    · simp at short

theorem last_eq_flatten_iff (parts : List PyStr) :
    parts.getLastD [] = parts.flatten ↔ ∀ part ∈ parts.dropLast, part = [] := by
  rcases List.eq_nil_or_concat parts with rfl | ⟨init, last, rfl⟩
  · simp
  · simp [List.concat_eq_append, List.flatten_eq_nil_iff, eq_comm]

/-- The text of the finished message is all of its text exactly when it is in one block. -/
theorem sendRequest_text_iff (request : ChatRequest) (m : Message) :
    (sendRequest request m).text = (textParts m.content).flatten ↔
      TextInOneBlock request.generation m.content := by
  simp only [sendRequest, TextInOneBlock]
  by_cases silent : textParts m.content = []
  · simp [silent]
  · rw [if_pos silent]
    cases request.generation with
    | true => simp only [silent, ne_eq, not_false_eq_true, and_self, if_true, last_eq_flatten_iff]
    | false => simp only [Bool.false_eq_true, false_and, if_false, join_eq_flatten_iff]

/-! ### The counts -/

/-- The two responses have the same text, counts and stop reason. -/
structure Agrees (a b : ChatResponse) : Prop where
  text : a.text = b.text
  inputTokens : a.inputTokens = b.inputTokens
  outputTokens : a.outputTokens = b.outputTokens
  cacheCreation : a.usage.get (py "cache_creation_input_tokens") =
    b.usage.get (py "cache_creation_input_tokens")
  cacheRead : a.usage.get (py "cache_read_input_tokens") =
    b.usage.get (py "cache_read_input_tokens")
  searchCount : a.usage.get (py "web_search_requests") = b.usage.get (py "web_search_requests")
  stopReason : a.usage.get (py "finish_reason") = b.usage.get (py "finish_reason")

/-- The number of searches as the usage has it: none are not mentioned. -/
def searchesJson (content : List Block) : Json :=
  if (content.filter isWebSearch).length ≠ 0 then .int (content.filter isWebSearch).length
  else .null

theorem countJson_inj {a b : Option Nat} : countJson a = countJson b ↔ a = b := by
  cases a <;> cases b <;> simp [countJson]

/-- The flattened record keeps the counts that are not null, and no key of the adapter's own. -/
theorem flattenUsage_get (u : Usage) :
    let flat := flattenUsage [] u.toDict []
    flat.get (py "cache_creation_input_tokens") = countJson u.cacheCreationInputTokens ∧
      flat.get (py "cache_read_input_tokens") = countJson u.cacheReadInputTokens ∧
      flat.get (py "web_search_requests") = .null := by
  obtain ⟨i, c, r, o, s⟩ := u
  cases c <;> cases r <;> cases s <;> exact ⟨rfl, rfl, rfl⟩

theorem sendRequest_usage (request : ChatRequest) (m : Message) :
    let usage := (sendRequest request m).usage
    usage.get (py "cache_creation_input_tokens") = countJson m.usage.cacheCreationInputTokens ∧
      usage.get (py "cache_read_input_tokens") = countJson m.usage.cacheReadInputTokens ∧
      usage.get (py "web_search_requests") = searchesJson m.content ∧
      usage.get (py "finish_reason") = .str m.stopReason := by
  obtain ⟨creation, read, searches⟩ := flattenUsage_get m.usage
  simp only [sendRequest, m.id_ne, m.model_ne, m.stopReason_ne, ne_eq, not_false_eq_true, if_true,
    searchesJson]
  split
  · simp +decide [Dict.get_set, creation, read]
  · simp +decide [Dict.get_set, creation, read, searches]

theorem sendRequestStream_usage (request : ChatRequest) {m : Message} {start : Usage}
    {events : List StreamEvent} (stream : StreamOf m start events) :
    let usage := (sendRequestStream request events).usage
    usage.get (py "cache_creation_input_tokens") = countJson start.cacheCreationInputTokens ∧
      usage.get (py "cache_read_input_tokens") = countJson start.cacheReadInputTokens ∧
      usage.get (py "web_search_requests") = searchesJson m.content ∧
      usage.get (py "finish_reason") = .str m.stopReason := by
  simp only [sendRequestStream, accumulated_eq stream, searchesJson]
  split
  · simp +decide [Dict.get_set, Dict.get]
  · simp +decide [Dict.get]

/-! ### The two responses -/

/-- The responses agree exactly when the text is in one block and the stream starts with the input
and cache counts the message ends with. -/
theorem adapters_agree_iff (request : ChatRequest) {m : Message} {start : Usage}
    {events : List StreamEvent} (stream : StreamOf m start events) :
    Agrees (sendRequest request m) (sendRequestStream request events) ↔
      TextInOneBlock request.generation m.content ∧
        start.inputTokens = m.usage.inputTokens ∧
        start.cacheCreationInputTokens = m.usage.cacheCreationInputTokens ∧
        start.cacheReadInputTokens = m.usage.cacheReadInputTokens := by
  obtain ⟨creation, read, searches, reason⟩ := sendRequest_usage request m
  obtain ⟨creation', read', searches', reason'⟩ := sendRequestStream_usage request stream
  have acc := accumulated_eq stream
  have streamText : (sendRequestStream request events).text = (textParts m.content).flatten := by
    rw [sendRequestStream, acc]
  have streamInput : (sendRequestStream request events).inputTokens = some start.inputTokens := by
    rw [sendRequestStream, acc]
  have streamOutput : (sendRequestStream request events).outputTokens =
      some m.usage.outputTokens := by
    rw [sendRequestStream, acc]
  have text := sendRequest_text_iff request m
  constructor
  · intro agrees
    refine ⟨text.mp (agrees.text.trans streamText), ?_, ?_, ?_⟩
    · exact (Option.some.inj (agrees.inputTokens.trans streamInput)).symm
    · rw [← countJson_inj, ← creation', ← creation, agrees.cacheCreation]
    · rw [← countJson_inj, ← read', ← read, agrees.cacheRead]
  · rintro ⟨oneBlock, input, creationSame, readSame⟩
    constructor
    · exact (text.mpr oneBlock).trans streamText.symm
    · rw [streamInput, input]
      rfl
    · rw [streamOutput]
      rfl
    · rw [creation, creation', creationSame]
    · rw [read, read', readSame]
    · rw [searches, searches']
    · rw [reason, reason']

/-! ### One block, and two -/

/-- The deltas of a block that is sent whole. -/
def Block.wholeDeltas : Block → List Delta
  | .text t => [.textDelta t]
  | .thinking t => [.thinkingDelta t, .signatureDelta]
  | .toolUse _ => [.inputJsonDelta (py "\x7b\x7d")]
  | .serverToolUse _ => [.inputJsonDelta (py "\x7b\x7d")]
  | _ => []

/-- The events of blocks that are sent whole. -/
def wholeBlocks : List Block → List StreamEvent
  | [] => []
  | block :: content =>
      .contentBlockStart block.announced :: block.wholeDeltas.map .contentBlockDelta ++
        .contentBlockStop :: wholeBlocks content

/-- A stream of a message, with the counts it starts with. -/
def wholeStream (m : Message) (start : Usage) : List StreamEvent :=
  .messageStart m.id m.model start :: wholeBlocks m.content ++
    [.messageDelta m.stopReason m.usage, .messageStop]

theorem wholeBlocks_stream (content : List Block) : BlocksStream content (wholeBlocks content) := by
  induction content with
  | nil => exact .nil
  | cons block content ih =>
      apply BlocksStream.block ?_ ih
      cases block <;> simp [Block.DeltasOf, Block.wholeDeltas, Delta.text]

theorem wholeBlocks_no_ping (content : List Block) : .ping ∉ wholeBlocks content := by
  induction content with
  | nil => exact List.not_mem_nil
  | cons block content ih => simp [wholeBlocks, ih]

/-- Every message has a stream, whatever counts it starts with. -/
theorem wholeStream_of (m : Message) (start : Usage) : StreamOf m start (wholeStream m start) := by
  refine ⟨_, wholeBlocks_stream m.content, List.filter_eq_self.mpr ?_⟩
  intro event member
  rw [decide_eq_true_eq]
  rintro rfl
  simp [wholeStream, wholeBlocks_no_ping] at member

/-- A turn that may search. -/
def searchTurn : ChatRequest := ⟨py "anthropic", py "claude-sonnet-4-6", false⟩

/-- An answer with some content. -/
def answer (content : List Block) (usage : Usage) : Message where
  id := py "msg_1"
  model := py "claude-sonnet-4-6"
  content := content
  stopReason := py "end_turn"
  usage := usage
  id_ne := by decide
  model_ne := by decide
  stopReason_ne := by decide
  stopReason_final := by decide

theorem adapters_agree_iff_oneBlock :
    let m := answer [.thinking (py "hm"), .text (py "Yes.")] ⟨42, some 0, some 12, 7, none⟩
    Agrees (sendRequest searchTurn m)
      (sendRequestStream searchTurn (wholeStream m ⟨42, some 0, some 12, 1, none⟩)) :=
  (adapters_agree_iff searchTurn (wholeStream_of _ _)).mpr (by decide)

/-- With a block of text on each side of a search the two adapters build different texts. -/
theorem adapters_part_around_search :
    ¬ ∀ request m start events, StreamOf m start events →
      Agrees (sendRequest request m) (sendRequestStream request events) := by
  intro agree
  let m := answer [.text (py "Let me look."), .serverToolUse (py "web_search"),
    .webSearchToolResult, .text (py "Here it is.")] ⟨42, some 0, some 0, 30, some 1⟩
  have same := (agree searchTurn m m.usage _ (wholeStream_of m m.usage)).text
  revert same
  decide

end GhostPour.Providers
