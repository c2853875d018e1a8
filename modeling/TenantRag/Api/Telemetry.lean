import TenantRag.Foundations.Json
import TenantRag.Foundations.PyError
import Mathlib.Logic.Function.Basic

/-!
# Chat timing telemetry

`backend/api/telemetry.py`: the milliseconds spent in each documented phase of a
chat request, summed where a phase is observed, replaced where it is set, and
rounded when they are sent.

## What is proved

* `mem_timingKeys` — every phase is among those that are sent.
-/

namespace TenantRag

/-- `TIMING_KEYS`. -/
inductive TimingKey where
  /-- `"original_query_embedding"`. -/
  | originalQueryEmbedding
  /-- `"conversation_hybrid_search"`. -/
  | conversationHybridSearch
  /-- `"conversation_mmr_rerank"`. -/
  | conversationMmrRerank
  /-- `"query_rewrite"`. -/
  | queryRewrite
  /-- `"rewritten_query_embedding"`. -/
  | rewrittenQueryEmbedding
  /-- `"knowledge_hybrid_search"`. -/
  | knowledgeHybridSearch
  /-- `"knowledge_cross_encoder_rerank"`. -/
  | knowledgeCrossEncoderRerank
  /-- `"policy_hybrid_search"`. -/
  | policyHybridSearch
  /-- `"policy_cross_encoder_rerank"`. -/
  | policyCrossEncoderRerank
  /-- `"prompt_construction"`. -/
  | promptConstruction
  /-- `"ttft"`. -/
  | ttft
  /-- `"generation"`. -/
  | generation
  /-- `"total_request"`. -/
  | totalRequest
  deriving DecidableEq

/-- The keys in the order of the source. -/
def timingKeys : List TimingKey :=
  [.originalQueryEmbedding, .conversationHybridSearch, .conversationMmrRerank, .queryRewrite,
    .rewrittenQueryEmbedding, .knowledgeHybridSearch, .knowledgeCrossEncoderRerank, .policyHybridSearch,
    .policyCrossEncoderRerank, .promptConstruction, .ttft, .generation, .totalRequest]

/-- The name of a key. -/
def TimingKey.name : TimingKey → Text
  | .originalQueryEmbedding => lit "original_query_embedding"
  | .conversationHybridSearch => lit "conversation_hybrid_search"
  | .conversationMmrRerank => lit "conversation_mmr_rerank"
  | .queryRewrite => lit "query_rewrite"
  | .rewrittenQueryEmbedding => lit "rewritten_query_embedding"
  | .knowledgeHybridSearch => lit "knowledge_hybrid_search"
  | .knowledgeCrossEncoderRerank => lit "knowledge_cross_encoder_rerank"
  | .policyHybridSearch => lit "policy_hybrid_search"
  | .policyCrossEncoderRerank => lit "policy_cross_encoder_rerank"
  | .promptConstruction => lit "prompt_construction"
  | .ttft => lit "ttft"
  | .generation => lit "generation"
  | .totalRequest => lit "total_request"

theorem mem_timingKeys (k : TimingKey) : k ∈ timingKeys := by
  cases k <;> decide

/-- `TELEMETRY_SCHEMA_VERSION`. -/
def telemetrySchemaVersion : Text := lit "1.0"

/-- `TelemetryCollector`: the value of each key. -/
structure TelemetryCollector (F : Type) where
  /-- `_values`. -/
  values : TimingKey → F

namespace TelemetryCollector

variable {F : Type} [PyFloat F]

/-- `TelemetryCollector()`. -/
def new : TelemetryCollector F := ⟨fun _ => PyFloat.zero⟩

/-- `observe(phase, elapsed_ms)`. -/
def observe (t : TelemetryCollector F) (phase : TimingKey) (elapsed : F) : Except PyError (TelemetryCollector F) :=
  if PyFloat.isNegative elapsed then .error (valueError "telemetry values must be non-negative")
  else .ok ⟨Function.update t.values phase (PyFloat.add (t.values phase) elapsed)⟩

/-- `set(phase, elapsed_ms)`. -/
def set (t : TelemetryCollector F) (phase : TimingKey) (elapsed : F) : Except PyError (TelemetryCollector F) :=
  if PyFloat.isNegative elapsed then .error (valueError "telemetry values must be non-negative")
  else .ok ⟨Function.update t.values phase elapsed⟩

/-- The field `timings_ms` of `payload`. -/
def timings (t : TelemetryCollector F) : List (Text × Json F) :=
  timingKeys.map fun k => (k.name, .num (PyFloat.round3 (PyFloat.maxZero (t.values k))))

/-- `payload(request_id)`. -/
def payload (t : TelemetryCollector F) (requestId : Text) : Json F :=
  .obj [(lit "schema_version", .str telemetrySchemaVersion), (lit "request_id", .str requestId),
    (lit "timings_ms", .obj t.timings)]

end TelemetryCollector

end TenantRag
