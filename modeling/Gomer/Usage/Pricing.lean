import Mathlib.Data.Rat.Floor
import Gomer.Database.Entities

/-! What a run is charged. Amounts are doubles in the source, so every arithmetic
operation is followed by the rounding `fl`; no result below depends on which one. -/
namespace Gomer

structure ModelDefinition where
  id : String
  inputPricePerMillion : ℚ
  outputPricePerMillion : ℚ

/-- What `UsageService` gets from its environment: the rounding of the number
type and the gateway models declared in the configuration. -/
structure Pricing where
  fl : ℚ → ℚ
  gatewayModels : List ModelDefinition

structure Rates where
  input : ℚ
  output : ℚ

def creditsPerDollar : Nat := 400
def creditMargin : Nat := 1

def anthropicModels : List ModelDefinition :=
  [⟨"claude-sonnet-5", 3, 15⟩, ⟨"claude-opus-4-8", 5, 25⟩]

/-- Deliberately Opus-priced. -/
def unknownModelRates : Rates := ⟨2, 10⟩

namespace Pricing

variable (p : Pricing)

def buildCatalog : List ModelDefinition := anthropicModels ++ p.gatewayModels

def creditRates (model : ModelDefinition) : Rates :=
  let perCredit := fun pricePerMillion : ℚ =>
    p.fl (p.fl (p.fl (pricePerMillion / 1000) * creditsPerDollar) * creditMargin)
  ⟨perCredit model.inputPricePerMillion, perCredit model.outputPricePerMillion⟩

def definitionFor (model : String) : Option ModelDefinition :=
  p.buildCatalog.find? fun candidate => candidate.id == model

def ratesFor (model : String) : Rates :=
  match p.definitionFor model with
  | some definition => p.creditRates definition
  | none => unknownModelRates

def creditsFor (model : String) (inputTokens outputTokens : Int) : Int :=
  let rates := p.ratesFor model
  let credits := p.fl (p.fl (p.fl (inputTokens / 1000) * rates.input) +
    p.fl (p.fl (outputTokens / 1000) * rates.output))
  max 1 ⌈credits⌉

theorem creditsFor_pos (model : String) (inputTokens outputTokens : Int) :
    1 ≤ p.creditsFor model inputTokens outputTokens := le_max_left _ _

end Pricing

end Gomer
