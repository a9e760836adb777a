/-
Module: GhostPour.Budget.Pricing
Layer: Model
Purpose: `app/services/pricing.py`: what a call of a model costs. A price is an amount of USD for one
  token; sums and products are exact, and the results are rounded as `round(_, 8)` rounds them.
Trusted boundary: human-reviewed spec
Main exports: ModelPrice, PriceTable, TokenUsage, Cost, roundTo, calculateCost, calculateCostOf,
  total_cost_nonneg
-/
import Mathlib.Data.NNRat.Defs
import Mathlib.Tactic.Positivity
import GhostPour.Library.Json

namespace GhostPour.Budget

/-! ### Rounding -/

/-- The nearest integer, the even one of two. -/
def roundHalfEven (q : ℚ) : ℤ :=
  let rest := q - ⌊q⌋
  if rest < 1 / 2 then ⌊q⌋
  else if 1 / 2 < rest then ⌊q⌋ + 1
  else if ⌊q⌋ % 2 = 0 then ⌊q⌋ else ⌊q⌋ + 1

/-- `round(q, digits)`. -/
def roundTo (digits : ℕ) (q : ℚ) : ℚ := roundHalfEven (q * 10 ^ digits) / 10 ^ digits

theorem roundHalfEven_nonneg {q : ℚ} (nonneg : 0 ≤ q) : 0 ≤ roundHalfEven q := by
  have floor : 0 ≤ ⌊q⌋ := Int.floor_nonneg.mpr nonneg
  unfold roundHalfEven
  simp only
  split
  · exact floor
  · split
    · exact Int.add_nonneg floor Int.one_nonneg
    · split
      · exact floor
      · exact Int.add_nonneg floor Int.one_nonneg

theorem roundTo_nonneg (digits : ℕ) {q : ℚ} (nonneg : 0 ≤ q) : 0 ≤ roundTo digits q := by
  have scaled : 0 ≤ q * 10 ^ digits := mul_nonneg nonneg (by positivity)
  have rounded : (0 : ℚ) ≤ roundHalfEven (q * 10 ^ digits) :=
    Int.cast_nonneg (roundHalfEven_nonneg scaled)
  exact div_nonneg rounded (by positivity)

/-! ### Prices -/

/-- The prices of a model; one that is missing is zero. -/
structure ModelPrice where
  inputCostPerToken : ℚ≥0
  outputCostPerToken : ℚ≥0
  cacheReadInputTokenCost : ℚ≥0
  cacheCreationInputTokenCost : ℚ≥0
  outputCostPerReasoningToken : ℚ≥0

/-- `_prices`: the models that have a price, by key. -/
abbrev PriceTable := List (PyStr × ModelPrice)

/-- `is_loaded`. -/
def PriceTable.isLoaded (prices : PriceTable) : Bool := !prices.isEmpty

/-- The keys of a usage block that `calculate_cost` reads. -/
structure TokenUsage where
  /-- `prompt_tokens_details.cached_tokens`. -/
  promptCachedTokens : Option ℕ
  cacheReadInputTokens : Option ℕ
  cachedContentTokenCount : Option ℕ
  cacheCreationInputTokens : Option ℕ
  /-- `completion_tokens_details.reasoning_tokens`. -/
  reasoningTokens : Option ℕ

/-- A count as a usage block has it; a count is never negative. -/
def readCount : Json → Option ℕ
  | .int n => some n.toNat
  | _ => none

/-- The keys of a usage block, read from its dict. A count that is missing or null reads as zero, except that
a null count of tokens put into the cache is multiplied by a price, which raises. -/
def TokenUsage.ofDict (usage : Dict) : Option TokenUsage :=
  let creation := readCount (usage.get (py "cache_creation_input_tokens"))
  if usage.has (py "cache_creation_input_tokens") ∧ creation = none then none
  else some
    { promptCachedTokens := readCount (usage.get (py "prompt_tokens_details.cached_tokens"))
      cacheReadInputTokens := readCount (usage.get (py "cache_read_input_tokens"))
      cachedContentTokenCount := readCount (usage.get (py "cachedContentTokenCount"))
      cacheCreationInputTokens := creation
      reasoningTokens := readCount (usage.get (py "completion_tokens_details.reasoning_tokens")) }

/-- A usage block without any of them. -/
def TokenUsage.empty : TokenUsage := ⟨none, none, none, none, none⟩

/-- Python's `x or y` on counts: a missing count and zero are false. -/
def orCount (first : Option ℕ) (second : ℕ) : ℕ := if first.getD 0 = 0 then second else first.getD 0

/-- The tokens read from a cache, under the name the provider gives them. -/
def TokenUsage.cachedInput (usage : TokenUsage) : ℕ :=
  orCount usage.promptCachedTokens
    (orCount usage.cacheReadInputTokens (orCount usage.cachedContentTokenCount 0))

/-- The provider's name in the price table. -/
def providerKey (provider : PyStr) : PyStr :=
  if provider = py "google" then py "gemini" else provider

/-- `get_model_pricing`: the first of three keys that has a price. -/
def getModelPricing (prices : PriceTable) (provider model : PyStr) : Option ModelPrice :=
  [providerKey provider ++ py "/" ++ model, model, provider ++ py "/" ++ model].findSome? fun key =>
    (prices.find? (·.1 = key)).map Prod.snd

/-- What `calculate_cost` returns. -/
structure Cost where
  inputCost : ℚ
  outputCost : ℚ
  cachedSavings : ℚ
  totalCost : ℚ
  billableInputTokens : ℕ
  billableOutputTokens : ℕ
  pricingAvailable : Bool

/-- The cost of the prompt: the tokens that are not cached, the cached ones and the ones put into the
cache, each at its price or at the price of input. -/
def ModelPrice.inputTotal (price : ModelPrice) (usage : TokenUsage) (input : ℕ) : ℚ :=
  let orInput (own : ℚ≥0) : ℚ := if own = 0 then price.inputCostPerToken else own
  (input - usage.cachedInput : ℕ) * (price.inputCostPerToken : ℚ) +
    usage.cachedInput * orInput price.cacheReadInputTokenCost +
    usage.cacheCreationInputTokens.getD 0 * orInput price.cacheCreationInputTokenCost

/-- The cost of the answer; reasoning tokens have their own price where there is one. -/
def ModelPrice.outputTotal (price : ModelPrice) (usage : TokenUsage) (output : ℕ) : ℚ :=
  let reasoning := usage.reasoningTokens.getD 0
  if reasoning ≠ 0 ∧ price.outputCostPerReasoningToken ≠ 0 then
    (output - reasoning : ℕ) * (price.outputCostPerToken : ℚ) +
      reasoning * (price.outputCostPerReasoningToken : ℚ)
  else output * (price.outputCostPerToken : ℚ)

/-- `calculate_cost`. -/
def calculateCost (prices : PriceTable) (provider model : PyStr) (usage : Option TokenUsage)
    (inputTokens outputTokens : Option ℕ) : Cost :=
  let usage := usage.getD .empty
  let input := inputTokens.getD 0
  let output := outputTokens.getD 0
  match getModelPricing prices provider model with
  | none =>
      { inputCost := 0
        outputCost := 0
        cachedSavings := 0
        totalCost := 0
        billableInputTokens := input
        billableOutputTokens := output
        pricingAvailable := false }
  | some price =>
      let totalInput := price.inputTotal usage input
      let totalOutput := price.outputTotal usage output
      { inputCost := roundTo 8 totalInput
        outputCost := roundTo 8 totalOutput
        cachedSavings := roundTo 8 (max 0 (input * (price.inputCostPerToken : ℚ) - totalInput))
        totalCost := roundTo 8 (totalInput + totalOutput)
        billableInputTokens := input - usage.cachedInput
        billableOutputTokens := output
        pricingAvailable := true }

/-- `calculate_cost` with the dict of a response; without a price the dict is not read. -/
def calculateCostOf (prices : PriceTable) (provider model : PyStr) (usage : Dict)
    (inputTokens outputTokens : Option ℕ) : Option Cost :=
  match getModelPricing prices provider model with
  | none => some (calculateCost prices provider model none inputTokens outputTokens)
  | some _ => (TokenUsage.ofDict usage).map fun usage =>
      calculateCost prices provider model (some usage) inputTokens outputTokens

/-! ### What a call costs -/

theorem ModelPrice.inputTotal_nonneg (price : ModelPrice) (usage : TokenUsage) (input : ℕ) :
    0 ≤ price.inputTotal usage input := by
  unfold inputTotal
  simp only
  have own : ∀ cost : ℚ≥0,
      (0 : ℚ) ≤ if cost = 0 then (price.inputCostPerToken : ℚ) else cost := by
    intro cost
    split <;> exact NNRat.coe_nonneg _
  have cached := mul_nonneg (Nat.cast_nonneg usage.cachedInput) (own price.cacheReadInputTokenCost)
  have created := mul_nonneg (Nat.cast_nonneg (usage.cacheCreationInputTokens.getD 0))
    (own price.cacheCreationInputTokenCost)
  positivity

theorem ModelPrice.outputTotal_nonneg (price : ModelPrice) (usage : TokenUsage) (output : ℕ) :
    0 ≤ price.outputTotal usage output := by
  unfold outputTotal
  simp only
  split <;> positivity

/-- No call has a negative cost. -/
theorem total_cost_nonneg (prices : PriceTable) (provider model : PyStr) (usage : Option TokenUsage)
    (inputTokens outputTokens : Option ℕ) :
    0 ≤ (calculateCost prices provider model usage inputTokens outputTokens).totalCost := by
  unfold calculateCost
  simp only
  split
  · exact le_refl 0
  · exact roundTo_nonneg 8
      (add_nonneg (ModelPrice.inputTotal_nonneg _ _ _) (ModelPrice.outputTotal_nonneg _ _ _))

/-- Before the prices are loaded every call costs nothing. -/
theorem total_cost_of_not_loaded {prices : PriceTable} (empty : prices.isLoaded = false)
    (provider model : PyStr) (usage : Option TokenUsage) (inputTokens outputTokens : Option ℕ) :
    (calculateCost prices provider model usage inputTokens outputTokens).totalCost = 0 := by
  have none_ : prices = [] := by simpa [PriceTable.isLoaded] using empty
  rw [none_]
  rfl

end GhostPour.Budget
