/-
Module: GhostPour.Budget.Proofs.TokenClasses
Layer: Proofs
Purpose: When the cost of an answer of the Anthropic adapter is the sum of its classes of tokens, each at its
  own rate: the adapter counts the tokens that were read from a cache beside those of the input, and the
  cost takes them off the input.
Trusted boundary: none
Main exports: TokenClasses, exactCost, Answer, SoundPricing, soundPricing_iff, cached_tokens_undercharged
-/
import GhostPour.Budget.Pricing
import GhostPour.Providers.Proofs.StreamAgreement

namespace GhostPour.Budget

open Providers

/-! ### Classes of tokens -/

/-- The tokens of a call, none of them in two classes. -/
structure TokenClasses where
  input : ℕ
  cacheRead : ℕ
  cacheCreation : ℕ
  output : ℕ

/-- No class of the first call has more tokens than that of the second. -/
structure TokenClasses.AtMost (less more : TokenClasses) : Prop where
  input : less.input ≤ more.input
  cacheRead : less.cacheRead ≤ more.cacheRead
  cacheCreation : less.cacheCreation ≤ more.cacheCreation
  output : less.output ≤ more.output

/-- The rate of a cache: its own, or that of input where it has none. -/
def ModelPrice.cacheRate (price : ModelPrice) (own : ℚ≥0) : ℚ :=
  if own = 0 then price.inputCostPerToken else own

/-- Each class at its own rate. -/
def ModelPrice.ofClasses (price : ModelPrice) (tokens : TokenClasses) : ℚ :=
  tokens.input * (price.inputCostPerToken : ℚ) +
    tokens.cacheRead * price.cacheRate price.cacheReadInputTokenCost +
    tokens.cacheCreation * price.cacheRate price.cacheCreationInputTokenCost +
    tokens.output * (price.outputCostPerToken : ℚ)

theorem ModelPrice.cacheRate_nonneg (price : ModelPrice) (own : ℚ≥0) : 0 ≤ price.cacheRate own := by
  unfold cacheRate
  split <;> exact NNRat.coe_nonneg _

/-- More tokens of some classes never cost less. -/
theorem ModelPrice.ofClasses_mono (price : ModelPrice) {less more : TokenClasses}
    (atMost : less.AtMost more) : price.ofClasses less ≤ price.ofClasses more := by
  have scaled : ∀ {m n : ℕ} {rate : ℚ}, m ≤ n → 0 ≤ rate → (m : ℚ) * rate ≤ n * rate := by
    intro m n rate le nonneg
    exact mul_le_mul_of_nonneg_right (Nat.cast_le.mpr le) nonneg
  have input := scaled atMost.input (NNRat.coe_nonneg price.inputCostPerToken)
  have read := scaled atMost.cacheRead (price.cacheRate_nonneg price.cacheReadInputTokenCost)
  have created :=
    scaled atMost.cacheCreation (price.cacheRate_nonneg price.cacheCreationInputTokenCost)
  have output := scaled atMost.output (NNRat.coe_nonneg price.outputCostPerToken)
  unfold ofClasses
  linarith only [input, read, created, output]

theorem ModelPrice.ofClasses_nonneg (price : ModelPrice) (tokens : TokenClasses) :
    0 ≤ price.ofClasses tokens := by
  have least : TokenClasses.AtMost ⟨0, 0, 0, 0⟩ tokens :=
    ⟨Nat.zero_le _, Nat.zero_le _, Nat.zero_le _, Nat.zero_le _⟩
  have free : price.ofClasses ⟨0, 0, 0, 0⟩ = 0 := by simp [ofClasses]
  rw [← free]
  exact price.ofClasses_mono least

/-! ### What the cost adds up -/

/-- The total of `calculate_cost` for a response, before it is rounded. -/
def exactCost (price : ModelPrice) (response : ChatResponse) : Option ℚ :=
  (TokenUsage.ofDict response.usage).map fun usage =>
    price.inputTotal usage (response.inputTokens.getD 0) +
      price.outputTotal usage (response.outputTokens.getD 0)

/-- `calculate_cost` rounds the exact total. -/
theorem totalCost_eq {prices : PriceTable} {provider model : PyStr} {price : ModelPrice}
    (found : getModelPricing prices provider model = some price) (response : ChatResponse) :
    (calculateCostOf prices provider model response.usage response.inputTokens
        response.outputTokens).map Cost.totalCost =
      (exactCost price response).map (roundTo 8) := by
  simp only [calculateCostOf, calculateCost, exactCost, found, Option.map_map]
  rfl

/-- The keys of a usage dict that the cost depends on. -/
def costKeys : List PyStr :=
  [ py "prompt_tokens_details.cached_tokens", py "cache_read_input_tokens",
    py "cachedContentTokenCount", py "cache_creation_input_tokens",
    py "completion_tokens_details.reasoning_tokens" ]

/-- Another key changes nothing. -/
theorem ofDict_set {key : PyStr} (other : key ∉ costKeys) (usage : Dict) (v : Json) :
    TokenUsage.ofDict (usage.set key v) = TokenUsage.ofDict usage := by
  simp only [costKeys, List.mem_cons, List.not_mem_nil, or_false, not_or] at other
  obtain ⟨prompt, read, content, creation, reasoning⟩ := other
  simp only [TokenUsage.ofDict, Dict.get_set, Dict.has_set, prompt, read, content, creation, reasoning,
    if_false, false_or]

/-- The counts of the input that `calculate_cost` finds for an answer. -/
def cacheCounts (read creation : Option ℕ) : TokenUsage := ⟨none, read, none, creation, none⟩

/-- A finished message: a null count is dropped from its record. -/
theorem ofDict_sendRequest (request : ChatRequest) (data : Message) :
    TokenUsage.ofDict (sendRequest request data).usage =
      some (cacheCounts data.usage.cacheReadInputTokens data.usage.cacheCreationInputTokens) := by
  have flat : TokenUsage.ofDict (flattenUsage [] data.usage.toDict []) =
      some (cacheCounts data.usage.cacheReadInputTokens data.usage.cacheCreationInputTokens) := by
    obtain ⟨input, creation, read, output, searches⟩ := data.usage
    cases creation <;> cases read <;> cases searches <;> rfl
  have searches : py "web_search_requests" ∉ costKeys := by decide
  have responseId : py "response_id" ∉ costKeys := by decide
  have modelVersion : py "model_version" ∉ costKeys := by decide
  have finishReason : py "finish_reason" ∉ costKeys := by decide
  simp only [sendRequest, data.id_ne, data.model_ne, data.stopReason_ne, ne_eq, not_false_eq_true, if_true,
    ofDict_set responseId, ofDict_set modelVersion, ofDict_set finishReason]
  split
  · rw [ofDict_set searches, flat]
  · exact flat

/-- A stream: its record keeps a null count. -/
theorem ofDict_sendRequestStream (request : ChatRequest) (events : List StreamEvent) :
    let acc := events.foldl Accumulated.event .init
    TokenUsage.ofDict (sendRequestStream request events).usage =
      if acc.cacheCreation = none then none
      else some (cacheCounts acc.cacheRead acc.cacheCreation) := by
  intro acc
  have searches : py "web_search_requests" ∉ costKeys := by decide
  change TokenUsage.ofDict (sendRequestStream request events).usage = _
  simp only [sendRequestStream, show events.foldl Accumulated.event .init = acc from rfl]
  clear_value acc
  obtain ⟨text, input, output, responseId, modelVersion, stopReason, creation, read, count⟩ := acc
  split
  · rw [ofDict_set searches]
    cases creation <;> cases read <;> rfl
  · cases creation <;> cases read <;> rfl

/-! ### An answer of the adapter -/

/-- What the adapter is given: the body of a message, or the events of a stream. -/
inductive Answer where
  | finished (data : Message)
  | streamed (events : List StreamEvent)

/-- The response the adapter makes of it. -/
def Answer.response (request : ChatRequest) : Answer → ChatResponse
  | .finished data => sendRequest request data
  | .streamed events => sendRequestStream request events

/-- The tokens it reports; a null count is no tokens. -/
def Answer.tokens : Answer → TokenClasses
  | .finished data =>
      { input := data.usage.inputTokens
        cacheRead := data.usage.cacheReadInputTokens.getD 0
        cacheCreation := data.usage.cacheCreationInputTokens.getD 0
        output := data.usage.outputTokens }
  | .streamed events =>
      let acc := events.foldl Accumulated.event .init
      { input := acc.inputTokens
        cacheRead := acc.cacheRead.getD 0
        cacheCreation := acc.cacheCreation.getD 0
        output := acc.outputTokens }

/-- A stream whose record keeps a null for the tokens put into the cache. -/
def Answer.keepsNull : Answer → Prop
  | .finished _ => False
  | .streamed events => (events.foldl Accumulated.event .init).cacheCreation = none

/-- No token is charged in two classes: an input that is free, absent, or all of it not from a cache; and the
count of tokens put into the cache is a number. -/
structure Answer.CountedApart (price : ModelPrice) (answer : Answer) : Prop where
  number : ¬answer.keepsNull
  apart : price.inputCostPerToken = 0 ∨ answer.tokens.input = 0 ∨ answer.tokens.cacheRead = 0

theorem cachedInput_cacheCounts (read creation : Option ℕ) :
    (cacheCounts read creation).cachedInput = read.getD 0 := by
  unfold cacheCounts TokenUsage.cachedInput orCount
  cases read with
  | none => rfl
  | some n => simp [eq_comm]

/-- What is charged falls short of the sum by the input that the cache is taken to have served. -/
theorem inputTotal_add_outputTotal (price : ModelPrice) (input output : ℕ) (read creation : Option ℕ) :
    price.inputTotal (cacheCounts read creation) input +
        price.outputTotal (cacheCounts read creation) output =
      price.ofClasses ⟨input, read.getD 0, creation.getD 0, output⟩ -
        (min input (read.getD 0) : ℕ) * (price.inputCostPerToken : ℚ) := by
  have split_ : (input - read.getD 0) + min input (read.getD 0) = input := by omega
  have whole : ((input - read.getD 0 : ℕ) : ℚ) + (min input (read.getD 0) : ℕ) = input := by
    exact_mod_cast split_
  have reasoning : (cacheCounts read creation).reasoningTokens.getD 0 = 0 := rfl
  simp only [ModelPrice.inputTotal, ModelPrice.outputTotal, cachedInput_cacheCounts, reasoning,
    ModelPrice.ofClasses, ModelPrice.cacheRate, ne_eq, not_true, false_and, if_false]
  have created : (cacheCounts read creation).cacheCreationInputTokens = creation := rfl
  rw [created, ← whole]
  ring

/-- The exact cost of an answer. -/
theorem exactCost_eq (price : ModelPrice) (request : ChatRequest) (answer : Answer)
    (number : ¬answer.keepsNull) :
    exactCost price (answer.response request) =
      some (price.ofClasses answer.tokens -
        (min answer.tokens.input answer.tokens.cacheRead : ℕ) * (price.inputCostPerToken : ℚ)) := by
  cases answer with
  | finished data =>
      rw [exactCost, Answer.response, ofDict_sendRequest, Option.map_some]
      exact congrArg some (inputTotal_add_outputTotal price _ _ _ _)
  | streamed events =>
      rw [Answer.keepsNull] at number
      rw [exactCost, Answer.response, ofDict_sendRequestStream, if_neg number, Option.map_some]
      exact congrArg some (inputTotal_add_outputTotal price _ _ _ _)

/-- Without a number `calculate_cost` raises. -/
theorem exactCost_of_keepsNull (price : ModelPrice) (request : ChatRequest) {answer : Answer}
    (null : answer.keepsNull) : exactCost price (answer.response request) = none := by
  cases answer with
  | finished data => exact null.elim
  | streamed events =>
      rw [Answer.keepsNull] at null
      rw [exactCost, Answer.response, ofDict_sendRequestStream, if_pos null, Option.map_none]

/-- The cost is the sum of the classes exactly when they are counted apart. -/
theorem exactCost_eq_ofClasses_iff (price : ModelPrice) (request : ChatRequest) (answer : Answer) :
    exactCost price (answer.response request) = some (price.ofClasses answer.tokens) ↔
      answer.CountedApart price := by
  by_cases null : answer.keepsNull
  · rw [exactCost_of_keepsNull price request null]
    constructor
    · intro raised
      cases raised
    · intro counted
      exact absurd null counted.number
  · rw [exactCost_eq price request answer null, Option.some_inj, sub_eq_self, mul_eq_zero,
      Nat.cast_eq_zero, NNRat.cast_eq_zero]
    constructor
    · rintro (none_ | free)
      · exact ⟨null, .inr (by omega)⟩
      · exact ⟨null, .inl free⟩
    · rintro ⟨-, free | none_⟩
      · exact .inr free
      · exact .inl (by omega)

/-! ### Pricing -/

/-- The pricing of two answers: each costs the sum of its classes, never less than nothing, and the one with
more tokens never costs less. -/
structure SoundPricing (price : ModelPrice) (request : ChatRequest) (answer grown : Answer) : Prop where
  additive : exactCost price (answer.response request) = some (price.ofClasses answer.tokens)
  additive_grown : exactCost price (grown.response request) = some (price.ofClasses grown.tokens)
  nonneg : ∀ cost ∈ exactCost price (answer.response request), 0 ≤ cost
  monotone : answer.tokens.AtMost grown.tokens →
    ∀ cost ∈ exactCost price (answer.response request),
      ∀ more ∈ exactCost price (grown.response request), cost ≤ more

/-- For a model with a price and any two answers of the adapter: apart from rounding, the pricing is sound if
and only if both answers have their tokens counted apart. -/
theorem soundPricing_iff {prices : PriceTable} {request : ChatRequest} {price : ModelPrice}
    (found : getModelPricing prices request.provider request.model = some price)
    (answer grown : Answer) :
    (∀ given : Answer,
      (calculateCostOf prices request.provider request.model (given.response request).usage
        (given.response request).inputTokens (given.response request).outputTokens).map
          Cost.totalCost = (exactCost price (given.response request)).map (roundTo 8)) ∧
      (SoundPricing price request answer grown ↔
        answer.CountedApart price ∧ grown.CountedApart price) := by
  have one := exactCost_eq_ofClasses_iff price request answer
  have two := exactCost_eq_ofClasses_iff price request grown
  refine ⟨fun given => totalCost_eq found _, ?_, ?_⟩
  · intro sound
    exact ⟨one.mp sound.additive, two.mp sound.additive_grown⟩
  · rintro ⟨counted, counted'⟩
    have additive := one.mpr counted
    have additive' := two.mpr counted'
    refine ⟨additive, additive', ?_, ?_⟩
    · intro cost isCost
      rw [additive] at isCost
      cases isCost
      exact price.ofClasses_nonneg answer.tokens
    · intro atMost cost isCost more isMore
      rw [additive] at isCost
      rw [additive'] at isMore
      cases isCost
      cases isMore
      exact price.ofClasses_mono atMost

/-- The prices of a model, in USD for a million tokens. -/
def sonnet : ModelPrice where
  inputCostPerToken := 300 / 100000000
  outputCostPerToken := 1500 / 100000000
  cacheReadInputTokenCost := 30 / 100000000
  cacheCreationInputTokenCost := 375 / 100000000
  outputCostPerReasoningToken := 0

/-- An answer with some counts. -/
def counted (usage : Usage) : Answer := .finished (answer [.text (py "Yes.")] usage)

/-- A call that reads nothing from a cache. -/
theorem soundPricing_iff_uncached :
    SoundPricing sonnet searchTurn (counted ⟨1000, some 100, none, 500, none⟩)
      (counted ⟨1200, some 100, some 0, 500, none⟩) := by
  have found : getModelPricing [(py "claude-sonnet-4-6", sonnet)] searchTurn.provider searchTurn.model =
      some sonnet := by
    rfl
  have apart := (soundPricing_iff found (counted ⟨1000, some 100, none, 500, none⟩)
    (counted ⟨1200, some 100, some 0, 500, none⟩)).2
  exact apart.mpr ⟨⟨not_false, .inr (.inr rfl)⟩, ⟨not_false, .inr (.inr rfl)⟩⟩

/-- Three hundred tokens from a cache are charged as if they were part of the input, so that the call costs
less than the same call without them; and a stream that has a null for the tokens put into the cache has no
cost. -/
theorem cached_tokens_undercharged :
    let uncached := counted ⟨1000, some 100, some 0, 500, none⟩
    let cached := counted ⟨1000, some 100, some 300, 500, none⟩
    let null := Answer.streamed
      [.messageStart (py "msg_1") (py "claude-sonnet-4-6") ⟨1000, none, some 0, 1, none⟩]
    ¬SoundPricing sonnet searchTurn cached cached ∧ ¬SoundPricing sonnet searchTurn uncached cached ∧
      ¬SoundPricing sonnet searchTurn null null ∧ uncached.tokens.AtMost cached.tokens ∧
      exactCost sonnet (uncached.response searchTurn) = some (10875 / 1000000) ∧
      exactCost sonnet (cached.response searchTurn) = some (10065 / 1000000) := by
  intro uncached cached null
  have below : uncached.tokens.AtMost cached.tokens := by
    constructor <;> decide
  have cost : exactCost sonnet (uncached.response searchTurn) = some (10875 / 1000000) := by
    decide +kernel
  have cost' : exactCost sonnet (cached.response searchTurn) = some (10065 / 1000000) := by
    decide +kernel
  have raised : exactCost sonnet (null.response searchTurn) = none := by
    decide +kernel
  have less : ¬((10875 : ℚ) / 1000000 ≤ 10065 / 1000000) := by norm_num
  have sum : sonnet.ofClasses cached.tokens = 10965 / 1000000 := by
    decide +kernel
  refine ⟨?_, ?_, ?_, below, cost, cost'⟩
  · intro sound
    have additive := sound.additive
    rw [cost', sum, Option.some_inj] at additive
    norm_num at additive
  · intro sound
    exact less (sound.monotone below _ cost _ cost')
  · intro sound
    have additive := sound.additive
    rw [raised] at additive
    cases additive

end GhostPour.Budget
