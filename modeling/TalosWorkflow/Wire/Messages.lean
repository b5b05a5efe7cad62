import TalosWorkflow.Documents.Kinds
import TalosWorkflow.Library.Records
import TalosWorkflow.Replies

/-!
# Messages as documents

How the messages between controller and worker are written as documents and
read from them. A document is what its bytes parse to, with the fields of an
object as they stand in the text. The positional form of a record, which no
side writes, is left out.
-/

namespace TalosWorkflow

open Record

namespace Json

mutual

/-- A document read as a value: objects are kept in key order, and the last of several fields with
one key stays. -/
def asValue : Json → Json
  | .array items => .array (asValues items)
  | .object fields => .object (OrderedMap.collect (asFields fields))
  | .null => .null
  | .bool b => .bool b
  | .number n => .number n
  | .string s => .string s

def asValues : List Json → List Json
  | [] => []
  | item :: items => item.asValue :: asValues items

def asFields : List (String × Json) → List (String × Json)
  | [] => []
  | (key, value) :: fields => (key, value.asValue) :: asFields fields

end

mutual

/-- All objects within are in key order. -/
def IsValue : Json → Prop
  | .array items => AreValues items
  | .object fields => OrderedMap.Ordered fields ∧ FieldsAreValues fields
  | .null | .bool _ | .number _ | .string _ => True

def AreValues : List Json → Prop
  | [] => True
  | item :: items => item.IsValue ∧ AreValues items

def FieldsAreValues : List (String × Json) → Prop
  | [] => True
  | (_, value) :: fields => value.IsValue ∧ FieldsAreValues fields

end

mutual

theorem asValue_eq : (j : Json) → j.IsValue → j.asValue = j
  | .array items, h => by rw [asValue, asValues_eq items h]
  | .object fields, h => by
      rw [asValue, asFields_eq fields h.2, OrderedMap.collect_of_ordered h.1]
  | .null, _ | .bool _, _ | .number _, _ | .string _, _ => rfl

theorem asValues_eq : (items : List Json) → AreValues items → asValues items = items
  | [], _ => rfl
  | item :: items, h => by rw [asValues, asValue_eq item h.1, asValues_eq items h.2]

theorem asFields_eq : (fields : List (String × Json)) → FieldsAreValues fields →
    asFields fields = fields
  | [], _ => rfl
  | (key, value) :: fields, h => by rw [asFields, asValue_eq value h.1, asFields_eq fields h.2]

end

def asU8 (j : Json) : Option UInt8 :=
  j.asU64.bind fun n => if n.toNat < 256 then some n.toUInt8 else none

def asListOf {α : Type} (read : Json → Option α) (j : Json) : Option (List α) :=
  j.asArray.bind fun items => items.mapM read

def asBytes : Json → Option (List UInt8) := asListOf asU8

def asStrings : Json → Option (List String) := asListOf asStr

/-- An `Option`: `null` is no value. -/
def nullable {α : Type} (read : Json → Option α) : Json → Option (Option α)
  | .null => some none
  | j => (read j).map some

/-- The name of a variant without data, alone or as the key of `null`. -/
def asVariant : Json → Option String
  | .string name => some name
  | .object [(name, .null)] => some name
  | _ => none

end Json

/-- What the parser of UUIDs is known for: it reads what is written. -/
structure UuidFormat where
  parse : String → Option Uuid
  parse_text : ∀ id : Uuid, parse id.text = some id

def UuidFormat.read (U : UuidFormat) (j : Json) : Option Uuid := j.asStr.bind U.parse

def LlmTier.ofJson (j : Json) : Option LlmTier :=
  j.asVariant.bind fun name =>
    if name = "tier1" then some .tier1 else if name = "tier2" then some .tier2 else none

namespace JobStatus

def name : JobStatus → String
  | .success => "Success"
  | .failed => "Failed"
  | .timedOut => "TimedOut"

def toJson (status : JobStatus) : Json := .string status.name

def ofJson (j : Json) : Option JobStatus :=
  j.asVariant.bind fun name =>
    if name = "Success" then some .success
    else if name = "Failed" then some .failed
    else if name = "TimedOut" then some .timedOut
    else none

end JobStatus

section Writing

def JobResult.toJson (result : JobResult) : Json :=
  .object
    [("job_id", .string result.jobId.text),
      ("status", result.status.toJson),
      ("output_payload", result.outputPayload),
      ("logs", stringArray result.logs),
      ("execution_time_ms", unsigned result.executionTimeMs),
      ("signature", byteArray result.signature),
      ("result_nonce", .string result.resultNonce)]

def PipelineStepResult.toJson (step : PipelineStepResult) : Json :=
  .object
    [("module_id", .string step.moduleId.text),
      ("status", step.status.toJson),
      ("output", step.output),
      ("execution_time_ms", unsigned step.executionTimeMs),
      ("error", (step.error.map .string).getD .null)]

def PipelineJobResult.toJson (result : PipelineJobResult) : Json :=
  .object
    [("job_id", .string result.jobId.text),
      ("overall_status", result.overallStatus.toJson),
      ("step_results", .array (result.stepResults.map PipelineStepResult.toJson)),
      ("final_output", result.finalOutput),
      ("total_time_ms", unsigned result.totalTimeMs),
      ("signature", byteArray result.signature),
      ("result_nonce", .string result.resultNonce)]

end Writing

section Reading

def defaultPriority : UInt8 := 100

def EncryptedSecrets.ofJson (j : Json) : Option EncryptedSecrets := do
  let fields ← j.asObject
  let ciphertext ← required Json.asBytes "ciphertext" fields
  let nonce ← required Json.asBytes "nonce" fields
  return { ciphertext, nonce }

variable (U : UuidFormat)

def JobRequest.ofJson (j : Json) : Option JobRequest := do
  let fields ← j.asObject
  let jobId ← required U.read "job_id" fields
  let workflowExecutionId ← required U.read "workflow_execution_id" fields
  let moduleUri ← required Json.asStr "module_uri" fields
  let inputPayload ← required (some ∘ Json.asValue) "input_payload" fields
  let encryptedSecrets ← defaulted {} EncryptedSecrets.ofJson "encrypted_secrets" fields
  let timeoutMs ← required Json.asU64 "timeout_ms" fields
  let priority ← defaulted defaultPriority Json.asU8 "priority" fields
  let deadlineUnixSecs ← defaulted 0 Json.asU64 "deadline_unix_secs" fields
  let cancellationToken ← defaulted none (Json.nullable Json.asStr) "cancellation_token" fields
  let allowedHosts ← required Json.asStrings "allowed_hosts" fields
  let allowedMethods ← defaulted [] Json.asStrings "allowed_methods" fields
  let allowedSecrets ← defaulted [] Json.asStrings "allowed_secrets" fields
  let allowedSqlOperations ← defaulted [] Json.asStrings "allowed_sql_operations" fields
  let allowTier2Exposure ← defaulted false Json.asBool "allow_tier2_exposure" fields
  let signature ← required Json.asBytes "signature" fields
  let jobNonce ← required Json.asStr "job_nonce" fields
  let actorId ← defaulted none (Json.nullable U.read) "actor_id" fields
  let wasmBytes ← defaulted none (Json.nullable Json.asBytes) "wasm_bytes" fields
  let capabilityWorld ← defaulted none (Json.nullable Json.asStr) "capability_world" fields
  let integrationName ← defaulted none (Json.nullable Json.asStr) "integration_name" fields
  let expectedWasmHash ← defaulted none (Json.nullable Json.asStr) "expected_wasm_hash" fields
  let maxFuel ← defaulted 0 Json.asU64 "max_fuel" fields
  let userId ← defaulted 0 U.read "user_id" fields
  let maxLlmTier ← defaulted default LlmTier.ofJson "max_llm_tier" fields
  let dryRun ← defaulted false Json.asBool "dry_run" fields
  return {
    jobId, workflowExecutionId, moduleUri, inputPayload, encryptedSecrets, timeoutMs, priority,
    deadlineUnixSecs, cancellationToken, allowedHosts, allowedMethods, allowedSecrets,
    allowedSqlOperations, allowTier2Exposure, signature, jobNonce, actorId, wasmBytes,
    capabilityWorld, integrationName, expectedWasmHash, maxFuel, userId, maxLlmTier, dryRun }

def PipelineStep.ofJson (j : Json) : Option PipelineStep := do
  let fields ← j.asObject
  let moduleId ← required U.read "module_id" fields
  let moduleUri ← required Json.asStr "module_uri" fields
  let wasmBytes ← defaulted none (Json.nullable Json.asBytes) "wasm_bytes" fields
  let config ← required (some ∘ Json.asValue) "config" fields
  let allowedHosts ← required Json.asStrings "allowed_hosts" fields
  let allowedMethods ← required Json.asStrings "allowed_methods" fields
  let allowedSecrets ← defaulted [] Json.asStrings "allowed_secrets" fields
  let allowedSqlOperations ← defaulted [] Json.asStrings "allowed_sql_operations" fields
  let allowTier2Exposure ← defaulted false Json.asBool "allow_tier2_exposure" fields
  let encryptedSecrets ← required EncryptedSecrets.ofJson "encrypted_secrets" fields
  let maxFuel ← required Json.asU64 "max_fuel" fields
  let maxMemoryMb ← required Json.asU64 "max_memory_mb" fields
  let timeoutMs ← required Json.asU64 "timeout_ms" fields
  let priority ← defaulted defaultPriority Json.asU8 "priority" fields
  let cancellationToken ← defaulted none (Json.nullable Json.asStr) "cancellation_token" fields
  let expectedWasmHash ← defaulted none (Json.nullable Json.asStr) "expected_wasm_hash" fields
  let integrationName ← defaulted none (Json.nullable Json.asStr) "integration_name" fields
  return {
    moduleId, moduleUri, wasmBytes, config, allowedHosts, allowedMethods, allowedSecrets,
    allowedSqlOperations, allowTier2Exposure, encryptedSecrets, maxFuel, maxMemoryMb, timeoutMs,
    priority, cancellationToken, expectedWasmHash, integrationName }

def PipelineJobRequest.ofJson (j : Json) : Option PipelineJobRequest := do
  let fields ← j.asObject
  let jobId ← required U.read "job_id" fields
  let workflowExecutionId ← required U.read "workflow_execution_id" fields
  let steps ← required (Json.asListOf (PipelineStep.ofJson U)) "steps" fields
  let totalTimeoutMs ← required Json.asU64 "total_timeout_ms" fields
  let shareSandbox ← required Json.asBool "share_sandbox" fields
  let signature ← required Json.asBytes "signature" fields
  let jobNonce ← required Json.asStr "job_nonce" fields
  let userId ← required U.read "user_id" fields
  let maxLlmTier ← defaulted default LlmTier.ofJson "max_llm_tier" fields
  return {
    jobId, workflowExecutionId, steps, totalTimeoutMs, shareSandbox, signature, jobNonce, userId,
    maxLlmTier }

def JobResult.ofJson (j : Json) : Option JobResult := do
  let fields ← j.asObject
  let jobId ← required U.read "job_id" fields
  let status ← required JobStatus.ofJson "status" fields
  let outputPayload ← required (some ∘ Json.asValue) "output_payload" fields
  let logs ← required Json.asStrings "logs" fields
  let executionTimeMs ← required Json.asU64 "execution_time_ms" fields
  let signature ← defaulted [] Json.asBytes "signature" fields
  let resultNonce ← defaulted "" Json.asStr "result_nonce" fields
  return { jobId, status, outputPayload, logs, executionTimeMs, signature, resultNonce }

def PipelineStepResult.ofJson (j : Json) : Option PipelineStepResult := do
  let fields ← j.asObject
  let moduleId ← required U.read "module_id" fields
  let status ← required JobStatus.ofJson "status" fields
  let output ← required (some ∘ Json.asValue) "output" fields
  let executionTimeMs ← required Json.asU64 "execution_time_ms" fields
  let error ← defaulted none (Json.nullable Json.asStr) "error" fields
  return { moduleId, status, output, executionTimeMs, error }

def PipelineJobResult.ofJson (j : Json) : Option PipelineJobResult := do
  let fields ← j.asObject
  let jobId ← required U.read "job_id" fields
  let overallStatus ← required JobStatus.ofJson "overall_status" fields
  let stepResults ← required (Json.asListOf (PipelineStepResult.ofJson U)) "step_results" fields
  let finalOutput ← required (some ∘ Json.asValue) "final_output" fields
  let totalTimeMs ← required Json.asU64 "total_time_ms" fields
  let signature ← required Json.asBytes "signature" fields
  let resultNonce ← required Json.asStr "result_nonce" fields
  return {
    jobId, overallStatus, stepResults, finalOutput, totalTimeMs, signature, resultNonce }

end Reading

end TalosWorkflow
