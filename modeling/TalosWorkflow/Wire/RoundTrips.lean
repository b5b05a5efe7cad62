import TalosWorkflow.Documents.Codec
import TalosWorkflow.Wire.Messages

/-!
# Messages read back

A message is read from its own document as it was written. Where an older
sender has left fields out, the message is read with their defaults, and what a
newer sender has added is ignored.
-/

namespace TalosWorkflow

open Record

section Parts

variable {α : Type} {key k : String}

@[simp] theorem valuesOf_optionalField (value : Option Json) :
    valuesOf key (optionalField k value) = if k = key then value.toList else [] := by
  cases value with
  | none => simp [optionalField]
  | some value => simp [optionalField]

theorem bind_of_eq_some {β : Type} {x : Option α} {f : α → Option β} {a : α} {b : β}
    (hx : x = some a) (hf : f a = some b) : (x >>= f) = some b :=
  Option.bind_eq_some_iff.2 ⟨a, hx, hf⟩

theorem forall_mem_optionalField {p : String × Json → Prop} {value : Option Json} :
    (∀ entry ∈ optionalField k value, p entry) ↔ ∀ v ∈ value, p (k, v) := by
  cases value with
  | none => simp [optionalField]
  | some value => simp [optionalField]

namespace Json

theorem asListOf_map {write : α → Json} {read : Json → Option α} {items : List α}
    (h : ∀ item ∈ items, read (write item) = some item) :
    asListOf read (.array (items.map write)) = some items := by
  change (items.map write).mapM read = some items
  induction items with
  | nil => rfl
  | cons item items ih =>
      rw [List.map_cons, List.mapM_cons, h item List.mem_cons_self,
        ih fun item' h' => h item' (List.mem_cons_of_mem _ h')]
      rfl

theorem asU64_unsigned (n : UInt64) : (unsigned n).asU64 = some n := rfl

theorem asU8_unsigned (n : UInt8) : (unsigned n.toUInt64).asU8 = some n := by
  have hSmall : n.toUInt64.toNat < 256 := n.toNat_lt
  rw [asU8, asU64_unsigned, Option.bind_some, if_pos hSmall, UInt8.toUInt8_toUInt64]

theorem asBytes_byteArray (bytes : List UInt8) : (byteArray bytes).asBytes = some bytes :=
  asListOf_map fun n _ => asU8_unsigned n

theorem asStrings_stringArray (items : List String) :
    (stringArray items).asStrings = some items :=
  asListOf_map fun _ _ => rfl

theorem nullable_some {read : Json → Option α} {j : Json} {a : α} (hNull : j ≠ .null)
    (h : read j = some a) : nullable read j = some (some a) := by
  cases j with
  | null => exact absurd rfl hNull
  | _ => exact congrArg (Option.map some) h

/-- An option that is left out, or written, by what it holds. -/
theorem nullable_map (read : Json → Option α) (write : α → Json) (hNull : ∀ a, write a ≠ .null)
    (h : ∀ a, read (write a) = some a) (value : Option α) :
    (value.map write).elim (some none) (nullable read) = some value := by
  cases value with
  | none => rfl
  | some a => exact nullable_some (hNull a) (h a)

theorem nullable_getD {read : Json → Option α} {write : α → Json} (hNull : ∀ a, write a ≠ .null)
    (h : ∀ a, read (write a) = some a) (value : Option α) :
    nullable read ((value.map write).getD .null) = some value := by
  cases value with
  | none => rfl
  | some a => exact nullable_some (hNull a) (h a)

theorem nullable_asStr (s : Option String) :
    (s.map Json.string).elim (some none) (nullable asStr) = some s :=
  nullable_map asStr .string (fun _ h => by cases h) asStr_string s

theorem nullable_asBytes (bytes : Option (List UInt8)) :
    (bytes.map byteArray).elim (some none) (nullable asBytes) = some bytes :=
  nullable_map asBytes byteArray (fun _ h => by cases h) asBytes_byteArray bytes

theorem nullable_getD_str (s : Option String) :
    nullable asStr ((s.map Json.string).getD .null) = some s :=
  nullable_getD (fun _ h => by cases h) asStr_string s

theorem nullable_getD_bytes (bytes : Option (List UInt8)) :
    nullable asBytes ((bytes.map byteArray).getD .null) = some bytes :=
  nullable_getD (fun _ h => by cases h) asBytes_byteArray bytes

theorem asValue_of_isValue {j : Json} (h : j.IsValue) : (some ∘ asValue) j = some j :=
  congrArg some (asValue_eq j h)

end Json

namespace UuidFormat

variable (U : UuidFormat)

theorem read_text (id : Uuid) : U.read (.string id.text) = some id := U.parse_text id

theorem nullable_read (id : Option Uuid) :
    (id.map fun id => Json.string id.text).elim (some none) (Json.nullable U.read) = some id :=
  Json.nullable_map U.read (fun id => .string id.text) (fun _ h => by cases h) U.read_text id

end UuidFormat

theorem LlmTier.ofJson_asSigningStr (tier : LlmTier) :
    LlmTier.ofJson (.string tier.asSigningStr) = some tier := by
  cases tier with
  | tier1 => rfl
  | tier2 => rfl

theorem JobStatus.ofJson_toJson (status : JobStatus) :
    JobStatus.ofJson status.toJson = some status := by
  cases status with
  | success => rfl
  | failed => rfl
  | timedOut => rfl

theorem EncryptedSecrets.ofJson_toJson (secrets : EncryptedSecrets) :
    EncryptedSecrets.ofJson secrets.toJson = some secrets := by
  have h := Restates.self (List.Subset.refl ["ciphertext", "nonce"])
    [("ciphertext", byteArray secrets.ciphertext), ("nonce", byteArray secrets.nonce)]
  refine bind_of_eq_some rfl ?_
  refine bind_of_eq_some (h.required (by simp) (by simp)
    (Json.asBytes_byteArray secrets.ciphertext)) ?_
  exact bind_of_eq_some (h.required (by simp) (by simp) (Json.asBytes_byteArray secrets.nonce)) rfl

end Parts

section Requests

variable (U : UuidFormat) {kept : String → Bool} {fields entries : List (String × Json)}

namespace JobRequest

def keys : List String :=
  ["job_id", "workflow_execution_id", "module_uri", "input_payload", "encrypted_secrets",
    "timeout_ms", "priority", "deadline_unix_secs", "cancellation_token", "allowed_hosts",
    "allowed_methods", "allowed_secrets", "allowed_sql_operations", "allow_tier2_exposure",
    "signature", "job_nonce", "actor_id", "wasm_bytes", "capability_world", "integration_name",
    "expected_wasm_hash", "max_fuel", "user_id", "max_llm_tier", "dry_run"]

def requiredKeys : List String :=
  ["job_id", "workflow_execution_id", "module_uri", "input_payload", "timeout_ms", "allowed_hosts",
    "signature", "job_nonce"]

/-- The message with the defaults of the fields that are not kept. -/
def keeping (kept : String → Bool) (req : JobRequest) : JobRequest :=
  { req with
    encryptedSecrets := if kept "encrypted_secrets" then req.encryptedSecrets else {}
    priority := if kept "priority" then req.priority else defaultPriority
    deadlineUnixSecs := if kept "deadline_unix_secs" then req.deadlineUnixSecs else 0
    cancellationToken := if kept "cancellation_token" then req.cancellationToken else none
    allowedMethods := if kept "allowed_methods" then req.allowedMethods else []
    allowedSecrets := if kept "allowed_secrets" then req.allowedSecrets else []
    allowedSqlOperations := if kept "allowed_sql_operations" then req.allowedSqlOperations else []
    allowTier2Exposure := if kept "allow_tier2_exposure" then req.allowTier2Exposure else false
    actorId := if kept "actor_id" then req.actorId else none
    wasmBytes := if kept "wasm_bytes" then req.wasmBytes else none
    capabilityWorld := if kept "capability_world" then req.capabilityWorld else none
    integrationName := if kept "integration_name" then req.integrationName else none
    expectedWasmHash := if kept "expected_wasm_hash" then req.expectedWasmHash else none
    maxFuel := if kept "max_fuel" then req.maxFuel else 0
    userId := if kept "user_id" then req.userId else 0
    maxLlmTier := if kept "max_llm_tier" then req.maxLlmTier else default
    dryRun := if kept "dry_run" then req.dryRun else false }

theorem ofJson_restated {req : JobRequest} (hFields : req.toJson = .object fields)
    (h : Restates keys requiredKeys kept fields entries) (hValue : req.inputPayload.IsValue) :
    ofJson U (.object entries) = some (req.keeping kept) := by
  cases hFields
  refine bind_of_eq_some rfl ?_
  refine bind_of_eq_some (h.required (by simp [requiredKeys]) (by simp) (U.read_text req.jobId)) ?_
  refine bind_of_eq_some (h.required (by simp [requiredKeys]) (by simp)
    (U.read_text req.workflowExecutionId)) ?_
  refine bind_of_eq_some (h.required (by simp [requiredKeys]) (by simp)
    (Json.asStr_string req.moduleUri)) ?_
  refine bind_of_eq_some (h.required (by simp [requiredKeys]) (by simp)
    (Json.asValue_of_isValue hValue)) ?_
  refine bind_of_eq_some (h.defaulted_value (by simp [keys]) (by simp)
    (req.encryptedSecrets.ofJson_toJson)) ?_
  refine bind_of_eq_some (h.required (by simp [requiredKeys]) (by simp)
    (Json.asU64_unsigned req.timeoutMs)) ?_
  refine bind_of_eq_some (h.defaulted_value (by simp [keys]) (by simp)
    (Json.asU8_unsigned req.priority)) ?_
  refine bind_of_eq_some (h.defaulted_value (by simp [keys]) (by simp)
    (Json.asU64_unsigned req.deadlineUnixSecs)) ?_
  refine bind_of_eq_some (h.defaulted (by simp [keys]) (by simp)
    (Json.nullable_asStr req.cancellationToken)) ?_
  refine bind_of_eq_some (h.required (by simp [requiredKeys]) (by simp)
    (Json.asStrings_stringArray req.allowedHosts)) ?_
  refine bind_of_eq_some (h.defaulted_value (by simp [keys]) (by simp)
    (Json.asStrings_stringArray req.allowedMethods)) ?_
  refine bind_of_eq_some (h.defaulted_value (by simp [keys]) (by simp)
    (Json.asStrings_stringArray req.allowedSecrets)) ?_
  refine bind_of_eq_some (h.defaulted_value (by simp [keys]) (by simp)
    (Json.asStrings_stringArray req.allowedSqlOperations)) ?_
  refine bind_of_eq_some (h.defaulted_value (by simp [keys]) (by simp)
    (Json.asBool_bool req.allowTier2Exposure)) ?_
  refine bind_of_eq_some (h.required (by simp [requiredKeys]) (by simp)
    (Json.asBytes_byteArray req.signature)) ?_
  refine bind_of_eq_some (h.required (by simp [requiredKeys]) (by simp)
    (Json.asStr_string req.jobNonce)) ?_
  refine bind_of_eq_some (h.defaulted (by simp [keys]) (by simp) (U.nullable_read req.actorId)) ?_
  refine bind_of_eq_some (h.defaulted (by simp [keys]) (by simp)
    (Json.nullable_asBytes req.wasmBytes)) ?_
  refine bind_of_eq_some (h.defaulted (by simp [keys]) (by simp)
    (Json.nullable_asStr req.capabilityWorld)) ?_
  refine bind_of_eq_some (h.defaulted (by simp [keys]) (by simp)
    (Json.nullable_asStr req.integrationName)) ?_
  refine bind_of_eq_some (h.defaulted (by simp [keys]) (by simp)
    (Json.nullable_asStr req.expectedWasmHash)) ?_
  refine bind_of_eq_some (h.defaulted_value (by simp [keys]) (by simp)
    (Json.asU64_unsigned req.maxFuel)) ?_
  refine bind_of_eq_some (h.defaulted_value (by simp [keys]) (by simp) (U.read_text req.userId)) ?_
  refine bind_of_eq_some (h.defaulted_value (by simp [keys]) (by simp)
    (req.maxLlmTier.ofJson_asSigningStr)) ?_
  refine bind_of_eq_some (h.defaulted_value (by simp [keys]) (by simp)
    (Json.asBool_bool req.dryRun)) ?_
  rfl

theorem ofJson_toJson {req : JobRequest} (hValue : req.inputPayload.IsValue) :
    ofJson U req.toJson = some req :=
  ofJson_restated U rfl (Restates.self (by decide) _) hValue

end JobRequest

namespace PipelineStep

def keys : List String :=
  ["module_id", "module_uri", "wasm_bytes", "config", "allowed_hosts", "allowed_methods",
    "allowed_secrets", "allowed_sql_operations", "allow_tier2_exposure", "encrypted_secrets",
    "max_fuel", "max_memory_mb", "timeout_ms", "priority", "cancellation_token",
    "expected_wasm_hash", "integration_name"]

def requiredKeys : List String :=
  ["module_id", "module_uri", "config", "allowed_hosts", "allowed_methods", "encrypted_secrets",
    "max_fuel", "max_memory_mb", "timeout_ms"]

def keeping (kept : String → Bool) (step : PipelineStep) : PipelineStep :=
  { step with
    wasmBytes := if kept "wasm_bytes" then step.wasmBytes else none
    allowedSecrets := if kept "allowed_secrets" then step.allowedSecrets else []
    allowedSqlOperations := if kept "allowed_sql_operations" then step.allowedSqlOperations else []
    allowTier2Exposure := if kept "allow_tier2_exposure" then step.allowTier2Exposure else false
    priority := if kept "priority" then step.priority else defaultPriority
    cancellationToken := if kept "cancellation_token" then step.cancellationToken else none
    expectedWasmHash := if kept "expected_wasm_hash" then step.expectedWasmHash else none
    integrationName := if kept "integration_name" then step.integrationName else none }

theorem ofJson_restated {step : PipelineStep} (hFields : step.toJson = .object fields)
    (h : Restates keys requiredKeys kept fields entries) (hValue : step.config.IsValue) :
    ofJson U (.object entries) = some (step.keeping kept) := by
  cases hFields
  refine bind_of_eq_some rfl ?_
  refine bind_of_eq_some (h.required (by simp [requiredKeys]) (by simp)
    (U.read_text step.moduleId)) ?_
  refine bind_of_eq_some (h.required (by simp [requiredKeys]) (by simp)
    (Json.asStr_string step.moduleUri)) ?_
  refine bind_of_eq_some (h.defaulted_value (by simp [keys]) (by simp)
    (Json.nullable_getD_bytes step.wasmBytes)) ?_
  refine bind_of_eq_some (h.required (by simp [requiredKeys]) (by simp)
    (Json.asValue_of_isValue hValue)) ?_
  refine bind_of_eq_some (h.required (by simp [requiredKeys]) (by simp)
    (Json.asStrings_stringArray step.allowedHosts)) ?_
  refine bind_of_eq_some (h.required (by simp [requiredKeys]) (by simp)
    (Json.asStrings_stringArray step.allowedMethods)) ?_
  refine bind_of_eq_some (h.defaulted_value (by simp [keys]) (by simp)
    (Json.asStrings_stringArray step.allowedSecrets)) ?_
  refine bind_of_eq_some (h.defaulted_value (by simp [keys]) (by simp)
    (Json.asStrings_stringArray step.allowedSqlOperations)) ?_
  refine bind_of_eq_some (h.defaulted_value (by simp [keys]) (by simp)
    (Json.asBool_bool step.allowTier2Exposure)) ?_
  refine bind_of_eq_some (h.required (by simp [requiredKeys]) (by simp)
    (step.encryptedSecrets.ofJson_toJson)) ?_
  refine bind_of_eq_some (h.required (by simp [requiredKeys]) (by simp)
    (Json.asU64_unsigned step.maxFuel)) ?_
  refine bind_of_eq_some (h.required (by simp [requiredKeys]) (by simp)
    (Json.asU64_unsigned step.maxMemoryMb)) ?_
  refine bind_of_eq_some (h.required (by simp [requiredKeys]) (by simp)
    (Json.asU64_unsigned step.timeoutMs)) ?_
  refine bind_of_eq_some (h.defaulted_value (by simp [keys]) (by simp)
    (Json.asU8_unsigned step.priority)) ?_
  refine bind_of_eq_some (h.defaulted (by simp [keys]) (by simp)
    (Json.nullable_asStr step.cancellationToken)) ?_
  refine bind_of_eq_some (h.defaulted (by simp [keys]) (by simp)
    (Json.nullable_asStr step.expectedWasmHash)) ?_
  refine bind_of_eq_some (h.defaulted (by simp [keys]) (by simp)
    (Json.nullable_asStr step.integrationName)) ?_
  rfl

theorem ofJson_toJson {step : PipelineStep} (hValue : step.config.IsValue) :
    ofJson U step.toJson = some step :=
  ofJson_restated U rfl (Restates.self (by decide) _) hValue

end PipelineStep

namespace PipelineJobRequest

def keys : List String :=
  ["job_id", "workflow_execution_id", "steps", "total_timeout_ms", "share_sandbox", "signature",
    "job_nonce", "user_id", "max_llm_tier"]

def requiredKeys : List String :=
  ["job_id", "workflow_execution_id", "steps", "total_timeout_ms", "share_sandbox", "signature",
    "job_nonce", "user_id"]

def keeping (kept : String → Bool) (req : PipelineJobRequest) : PipelineJobRequest :=
  { req with maxLlmTier := if kept "max_llm_tier" then req.maxLlmTier else default }

theorem ofJson_restated {req : PipelineJobRequest} (hFields : req.toJson = .object fields)
    (h : Restates keys requiredKeys kept fields entries)
    (hValues : ∀ step ∈ req.steps, step.config.IsValue) :
    ofJson U (.object entries) = some (req.keeping kept) := by
  cases hFields
  have hSteps : Json.asListOf (PipelineStep.ofJson U)
      (.array (req.steps.map PipelineStep.toJson)) = some req.steps :=
    Json.asListOf_map fun step hStep => PipelineStep.ofJson_toJson U (hValues step hStep)
  refine bind_of_eq_some rfl ?_
  refine bind_of_eq_some (h.required (by simp [requiredKeys]) (by simp) (U.read_text req.jobId)) ?_
  refine bind_of_eq_some (h.required (by simp [requiredKeys]) (by simp)
    (U.read_text req.workflowExecutionId)) ?_
  refine bind_of_eq_some (h.required (by simp [requiredKeys]) (by simp) (hSteps)) ?_
  refine bind_of_eq_some (h.required (by simp [requiredKeys]) (by simp)
    (Json.asU64_unsigned req.totalTimeoutMs)) ?_
  refine bind_of_eq_some (h.required (by simp [requiredKeys]) (by simp)
    (Json.asBool_bool req.shareSandbox)) ?_
  refine bind_of_eq_some (h.required (by simp [requiredKeys]) (by simp)
    (Json.asBytes_byteArray req.signature)) ?_
  refine bind_of_eq_some (h.required (by simp [requiredKeys]) (by simp)
    (Json.asStr_string req.jobNonce)) ?_
  refine bind_of_eq_some (h.required (by simp [requiredKeys]) (by simp) (U.read_text req.userId)) ?_
  refine bind_of_eq_some (h.defaulted_value (by simp [keys]) (by simp)
    (req.maxLlmTier.ofJson_asSigningStr)) ?_
  rfl

theorem ofJson_toJson {req : PipelineJobRequest}
    (hValues : ∀ step ∈ req.steps, step.config.IsValue) : ofJson U req.toJson = some req :=
  ofJson_restated U rfl (Restates.self (by decide) _) hValues

end PipelineJobRequest

end Requests

section Results

variable (U : UuidFormat) {kept : String → Bool} {fields entries : List (String × Json)}

namespace JobResult

def keys : List String :=
  ["job_id", "status", "output_payload", "logs", "execution_time_ms", "signature", "result_nonce"]

def requiredKeys : List String :=
  ["job_id", "status", "output_payload", "logs", "execution_time_ms"]

def keeping (kept : String → Bool) (result : JobResult) : JobResult :=
  { result with
    signature := if kept "signature" then result.signature else []
    resultNonce := if kept "result_nonce" then result.resultNonce else "" }

theorem ofJson_restated {result : JobResult} (hFields : result.toJson = .object fields)
    (h : Restates keys requiredKeys kept fields entries) (hValue : result.outputPayload.IsValue) :
    ofJson U (.object entries) = some (result.keeping kept) := by
  cases hFields
  refine bind_of_eq_some rfl ?_
  refine bind_of_eq_some (h.required (by simp [requiredKeys]) (by simp)
    (U.read_text result.jobId)) ?_
  refine bind_of_eq_some (h.required (by simp [requiredKeys]) (by simp)
    (result.status.ofJson_toJson)) ?_
  refine bind_of_eq_some (h.required (by simp [requiredKeys]) (by simp)
    (Json.asValue_of_isValue hValue)) ?_
  refine bind_of_eq_some (h.required (by simp [requiredKeys]) (by simp)
    (Json.asStrings_stringArray result.logs)) ?_
  refine bind_of_eq_some (h.required (by simp [requiredKeys]) (by simp)
    (Json.asU64_unsigned result.executionTimeMs)) ?_
  refine bind_of_eq_some (h.defaulted_value (by simp [keys]) (by simp)
    (Json.asBytes_byteArray result.signature)) ?_
  refine bind_of_eq_some (h.defaulted_value (by simp [keys]) (by simp)
    (Json.asStr_string result.resultNonce)) ?_
  rfl

theorem ofJson_toJson {result : JobResult} (hValue : result.outputPayload.IsValue) :
    ofJson U result.toJson = some result :=
  ofJson_restated U rfl (Restates.self (by decide) _) hValue

end JobResult

namespace PipelineStepResult

def keys : List String := ["module_id", "status", "output", "execution_time_ms", "error"]

def requiredKeys : List String := ["module_id", "status", "output", "execution_time_ms"]

def keeping (kept : String → Bool) (step : PipelineStepResult) : PipelineStepResult :=
  { step with error := if kept "error" then step.error else none }

theorem ofJson_restated {step : PipelineStepResult} (hFields : step.toJson = .object fields)
    (h : Restates keys requiredKeys kept fields entries) (hValue : step.output.IsValue) :
    ofJson U (.object entries) = some (step.keeping kept) := by
  cases hFields
  refine bind_of_eq_some rfl ?_
  refine bind_of_eq_some (h.required (by simp [requiredKeys]) (by simp)
    (U.read_text step.moduleId)) ?_
  refine bind_of_eq_some (h.required (by simp [requiredKeys]) (by simp)
    (step.status.ofJson_toJson)) ?_
  refine bind_of_eq_some (h.required (by simp [requiredKeys]) (by simp)
    (Json.asValue_of_isValue hValue)) ?_
  refine bind_of_eq_some (h.required (by simp [requiredKeys]) (by simp)
    (Json.asU64_unsigned step.executionTimeMs)) ?_
  refine bind_of_eq_some (h.defaulted_value (by simp [keys]) (by simp)
    (Json.nullable_getD_str step.error)) ?_
  rfl

theorem ofJson_toJson {step : PipelineStepResult} (hValue : step.output.IsValue) :
    ofJson U step.toJson = some step :=
  ofJson_restated U rfl (Restates.self (by decide) _) hValue

end PipelineStepResult

namespace PipelineJobResult

def requiredKeys : List String :=
  ["job_id", "overall_status", "step_results", "final_output", "total_time_ms", "signature",
    "result_nonce"]

theorem ofJson_restated {result : PipelineJobResult} (hFields : result.toJson = .object fields)
    (h : Restates requiredKeys requiredKeys kept fields entries)
    (hValues : ∀ step ∈ result.stepResults, step.output.IsValue)
    (hFinal : result.finalOutput.IsValue) : ofJson U (.object entries) = some result := by
  cases hFields
  have hSteps : Json.asListOf (PipelineStepResult.ofJson U)
      (.array (result.stepResults.map PipelineStepResult.toJson)) = some result.stepResults :=
    Json.asListOf_map fun step hStep => PipelineStepResult.ofJson_toJson U (hValues step hStep)
  refine bind_of_eq_some rfl ?_
  refine bind_of_eq_some (h.required (by simp [requiredKeys]) (by simp)
    (U.read_text result.jobId)) ?_
  refine bind_of_eq_some (h.required (by simp [requiredKeys]) (by simp)
    (result.overallStatus.ofJson_toJson)) ?_
  refine bind_of_eq_some (h.required (by simp [requiredKeys]) (by simp) (hSteps)) ?_
  refine bind_of_eq_some (h.required (by simp [requiredKeys]) (by simp)
    (Json.asValue_of_isValue hFinal)) ?_
  refine bind_of_eq_some (h.required (by simp [requiredKeys]) (by simp)
    (Json.asU64_unsigned result.totalTimeMs)) ?_
  refine bind_of_eq_some (h.required (by simp [requiredKeys]) (by simp)
    (Json.asBytes_byteArray result.signature)) ?_
  refine bind_of_eq_some (h.required (by simp [requiredKeys]) (by simp)
    (Json.asStr_string result.resultNonce)) ?_
  rfl

theorem ofJson_toJson {result : PipelineJobResult}
    (hValues : ∀ step ∈ result.stepResults, step.output.IsValue)
    (hFinal : result.finalOutput.IsValue) : ofJson U result.toJson = some result :=
  ofJson_restated U rfl (Restates.self (by decide) _) hValues hFinal

end PipelineJobResult

end Results

end TalosWorkflow
