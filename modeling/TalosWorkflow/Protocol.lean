import Mathlib.Data.List.Sort
import Mathlib.Data.List.TakeDrop
import TalosWorkflow.Core

/-!
# The job protocol

The messages that a worker receives, their serialized form, and the texts that
are signed. SHA-256 is a parameter of the texts.
-/

namespace TalosWorkflow

def byteArray (bytes : List UInt8) : Json :=
  .array (bytes.map fun b => .number (.posInt b.toUInt64))

def stringArray (items : List String) : Json := .array (items.map .string)

def unsigned (n : UInt64) : Json := .number (.posInt n)

/-- A field that `skip_serializing_if` leaves out when there is no value. -/
def optionalField (key : String) : Option Json → List (String × Json)
  | some value => [(key, value)]
  | none => []

structure EncryptedSecrets where
  ciphertext : List UInt8 := []
  nonce : List UInt8 := []
  deriving DecidableEq

def EncryptedSecrets.toJson (secrets : EncryptedSecrets) : Json :=
  .object [("ciphertext", byteArray secrets.ciphertext), ("nonce", byteArray secrets.nonce)]

structure JobRequest where
  jobId : Uuid
  workflowExecutionId : Uuid
  moduleUri : String
  inputPayload : Json
  encryptedSecrets : EncryptedSecrets
  timeoutMs : UInt64
  priority : UInt8
  deadlineUnixSecs : UInt64
  cancellationToken : Option String
  allowedHosts : List String
  allowedMethods : List String
  allowedSecrets : List String
  allowedSqlOperations : List String
  allowTier2Exposure : Bool
  signature : List UInt8
  jobNonce : String
  actorId : Option Uuid
  wasmBytes : Option (List UInt8)
  capabilityWorld : Option String
  integrationName : Option String
  expectedWasmHash : Option String
  maxFuel : UInt64
  userId : Uuid
  maxLlmTier : LlmTier
  dryRun : Bool
  deriving DecidableEq

structure PipelineStep where
  moduleId : Uuid
  moduleUri : String
  wasmBytes : Option (List UInt8)
  config : Json
  allowedHosts : List String
  allowedMethods : List String
  allowedSecrets : List String
  allowedSqlOperations : List String
  allowTier2Exposure : Bool
  encryptedSecrets : EncryptedSecrets
  maxFuel : UInt64
  maxMemoryMb : UInt64
  timeoutMs : UInt64
  priority : UInt8
  cancellationToken : Option String
  expectedWasmHash : Option String
  integrationName : Option String
  deriving DecidableEq

structure PipelineJobRequest where
  jobId : Uuid
  workflowExecutionId : Uuid
  steps : List PipelineStep
  totalTimeoutMs : UInt64
  shareSandbox : Bool
  signature : List UInt8
  jobNonce : String
  userId : Uuid
  maxLlmTier : LlmTier
  deriving DecidableEq

section Serialization

def JobRequest.toJson (req : JobRequest) : Json :=
  .object <|
    [("job_id", .string req.jobId.text),
      ("workflow_execution_id", .string req.workflowExecutionId.text),
      ("module_uri", .string req.moduleUri),
      ("input_payload", req.inputPayload),
      ("encrypted_secrets", req.encryptedSecrets.toJson),
      ("timeout_ms", unsigned req.timeoutMs),
      ("priority", unsigned req.priority.toUInt64),
      ("deadline_unix_secs", unsigned req.deadlineUnixSecs)] ++
    optionalField "cancellation_token" (req.cancellationToken.map .string) ++
    [("allowed_hosts", stringArray req.allowedHosts),
      ("allowed_methods", stringArray req.allowedMethods),
      ("allowed_secrets", stringArray req.allowedSecrets),
      ("allowed_sql_operations", stringArray req.allowedSqlOperations),
      ("allow_tier2_exposure", .bool req.allowTier2Exposure),
      ("signature", byteArray req.signature),
      ("job_nonce", .string req.jobNonce)] ++
    optionalField "actor_id" (req.actorId.map fun id => .string id.text) ++
    optionalField "wasm_bytes" (req.wasmBytes.map byteArray) ++
    optionalField "capability_world" (req.capabilityWorld.map .string) ++
    optionalField "integration_name" (req.integrationName.map .string) ++
    optionalField "expected_wasm_hash" (req.expectedWasmHash.map .string) ++
    [("max_fuel", unsigned req.maxFuel),
      ("user_id", .string req.userId.text),
      ("max_llm_tier", .string req.maxLlmTier.asSigningStr),
      ("dry_run", .bool req.dryRun)]

def PipelineStep.toJson (step : PipelineStep) : Json :=
  .object <|
    [("module_id", .string step.moduleId.text),
      ("module_uri", .string step.moduleUri),
      ("wasm_bytes", (step.wasmBytes.map byteArray).getD .null),
      ("config", step.config),
      ("allowed_hosts", stringArray step.allowedHosts),
      ("allowed_methods", stringArray step.allowedMethods),
      ("allowed_secrets", stringArray step.allowedSecrets),
      ("allowed_sql_operations", stringArray step.allowedSqlOperations),
      ("allow_tier2_exposure", .bool step.allowTier2Exposure),
      ("encrypted_secrets", step.encryptedSecrets.toJson),
      ("max_fuel", unsigned step.maxFuel),
      ("max_memory_mb", unsigned step.maxMemoryMb),
      ("timeout_ms", unsigned step.timeoutMs),
      ("priority", unsigned step.priority.toUInt64)] ++
    optionalField "cancellation_token" (step.cancellationToken.map .string) ++
    optionalField "expected_wasm_hash" (step.expectedWasmHash.map .string) ++
    optionalField "integration_name" (step.integrationName.map .string)

def PipelineJobRequest.toJson (req : PipelineJobRequest) : Json :=
  .object
    [("job_id", .string req.jobId.text),
      ("workflow_execution_id", .string req.workflowExecutionId.text),
      ("steps", .array (req.steps.map PipelineStep.toJson)),
      ("total_timeout_ms", unsigned req.totalTimeoutMs),
      ("share_sandbox", .bool req.shareSandbox),
      ("signature", byteArray req.signature),
      ("job_nonce", .string req.jobNonce),
      ("user_id", .string req.userId.text),
      ("max_llm_tier", .string req.maxLlmTier.asSigningStr)]

end Serialization

section Signing

/-- The digest of a byte string. -/
abbrev Sha256 := List UInt8 → BitVec 256

def utf8 (s : String) : List UInt8 := s.toUTF8.data.toList

variable (digest : Sha256)

def hexDigest (bytes : List UInt8) : List Char := hexDigits 64 (digest bytes).toNat

/-- A text behind its length in bytes. -/
def lengthPrefixed (text : List Char) : List Char :=
  (text.map Char.utf8Size).sum.repr.toList ++ ':' :: text

def boolChars (b : Bool) : List Char := if b then "true".toList else "false".toList

/-- `sort_unstable` and `join(",")`. -/
def sortedJoin (items : List String) : List Char :=
  [','].intercalate ((items.mergeSort (· ≤ ·)).map String.toList)

/-- `wasm_bytes` first, then the expected hash, then the given marker. -/
def wasmCommitment (wasmBytes : Option (List UInt8)) (expectedWasmHash : Option String)
    (otherwise : List Char) : List Char :=
  match wasmBytes, expectedWasmHash with
  | some bytes, _ => hexDigest digest bytes
  | none, some hash => hash.toList
  | none, none => otherwise

namespace JobRequest

variable (req : JobRequest)

def signingText : List Char :=
  [':'].intercalate
    [req.jobId.chars, req.workflowExecutionId.chars,
      lengthPrefixed req.moduleUri.toList,
      req.jobNonce.toList,
      hexDigest digest (utf8 req.inputPayload.text),
      hexDigest digest req.encryptedSecrets.ciphertext,
      req.timeoutMs.toNat.repr.toList,
      lengthPrefixed (sortedJoin req.allowedHosts),
      lengthPrefixed (sortedJoin req.allowedMethods),
      wasmCommitment digest req.wasmBytes req.expectedWasmHash "none".toList,
      lengthPrefixed (req.integrationName.getD "-").toList,
      req.userId.chars,
      req.maxLlmTier.asSigningStr.toList,
      lengthPrefixed ((req.actorId.map Uuid.chars).getD "-".toList),
      lengthPrefixed (sortedJoin req.allowedSecrets),
      lengthPrefixed (sortedJoin req.allowedSqlOperations),
      boolChars req.allowTier2Exposure]

def signingPayload : List UInt8 := utf8 (String.ofList (req.signingText digest))

end JobRequest

namespace PipelineStep

variable (step : PipelineStep)

def hash : List Char :=
  wasmCommitment digest step.wasmBytes step.expectedWasmHash (hexDigest digest (utf8 step.moduleUri))

def capabilities : List Char :=
  ['|'].intercalate [lengthPrefixed (sortedJoin step.allowedSecrets),
    lengthPrefixed (sortedJoin step.allowedSqlOperations), boolChars step.allowTier2Exposure]

end PipelineStep

namespace PipelineJobRequest

variable (req : PipelineJobRequest)

def signingText : List Char :=
  [':'].intercalate
    ["pipeline".toList, req.jobId.chars, req.workflowExecutionId.chars,
      req.jobNonce.toList,
      req.totalTimeoutMs.toNat.repr.toList,
      boolChars req.shareSandbox,
      req.steps.length.repr.toList,
      req.userId.chars,
      lengthPrefixed ([':'].intercalate (req.steps.map (PipelineStep.hash digest))),
      lengthPrefixed ([','].intercalate
        (req.steps.map fun step => (step.integrationName.getD "-").toList)),
      req.maxLlmTier.asSigningStr.toList,
      lengthPrefixed ([';', ';'].intercalate (req.steps.map PipelineStep.capabilities))]

def signingPayload : List UInt8 := utf8 (String.ofList (req.signingText digest))

end PipelineJobRequest

end Signing

section Nonces

/-- `str::parse::<u64>`. -/
def parseU64 (text : List Char) : Option UInt64 :=
  let digits := if text.head? = some '+' then text.tail else text
  if digits = [] ∨ ¬ digits.all Char.isDigit then none
  else
    let n := digits.foldl (fun n c => 10 * n + (c.toNat - '0'.toNat)) 0
    if n < 2 ^ 64 then some (UInt64.ofNat n) else none

def isHexChar (c : Char) : Bool := c.isDigit || c ∈ "abcdefABCDEF".toList

/-- `hex::decode` succeeds. -/
def isHexText (text : List Char) : Bool := text.length % 2 == 0 && text.all isHexChar

/-- The form of a nonce that `verify` accepts: a timestamp, a colon and hexadecimal. -/
def nonceTimestamp (nonce : String) : Option UInt64 :=
  match nonce.toList.span (· ≠ ':') with
  | (seconds, _ :: random) => if isHexText random then parseU64 seconds else none
  | (_, []) => none

/-- What signing writes: the time in seconds and sixteen random bytes. -/
def freshNonce (ts : UInt64) (random : BitVec 128) : String :=
  String.ofList (ts.toNat.repr.toList ++ ':' :: hexDigits 32 random.toNat)

theorem freshNonce_injective (ts : UInt64) : Function.Injective (freshNonce ts) := by
  intro a b h
  have hText := String.ofList_injective h
  rw [List.append_cancel_left_eq] at hText
  apply BitVec.eq_of_toNat_eq
  apply hexDigits_injective _ _ (List.cons.inj hText).2
  · exact a.isLt
  · exact b.isLt

theorem isDigit_of_mem_repr {n : Nat} {c : Char} (h : c ∈ n.repr.toList) : c.isDigit = true := by
  rw [Nat.toList_repr] at h
  exact Nat.isDigit_of_mem_toDigits (by omega) (by omega) h

theorem parseU64_repr (ts : UInt64) : parseU64 ts.toNat.repr.toList = some ts := by
  have hDigits : (ts.toNat.repr.toList).all Char.isDigit = true :=
    List.all_eq_true.2 fun c hc => isDigit_of_mem_repr hc
  have hSign : ts.toNat.repr.toList.head? ≠ some '+' := by
    intro hHead
    cases isDigit_of_mem_repr (List.mem_of_mem_head? hHead)
  have hSome : ts.toNat.repr.toList ≠ [] := by
    rw [Nat.toList_repr]
    exact Nat.toDigits_ne_nil
  have hValue : ts.toNat.repr.toList.foldl (fun n c => 10 * n + (c.toNat - '0'.toNat)) 0 =
      ts.toNat := by
    rw [Nat.toList_repr]
    exact Nat.ofDigitChars_ten_toDigits
  simp only [parseU64, if_neg hSign, hSome, hDigits, hValue]
  rw [if_neg (by simp), if_pos ts.toNat_lt, UInt64.ofNat_toNat]

theorem isHexChar_of_mem_hexDigits {width n : Nat} {c : Char} (h : c ∈ hexDigits width n) :
    isHexChar c = true := by
  induction width generalizing n with
  | zero => exact absurd h List.not_mem_nil
  | succ width ih =>
      rw [hexDigits, List.mem_append, List.mem_singleton] at h
      obtain h | rfl := h
      · exact ih h
      · obtain hDigit | hLetter := hexDigit_isHex (Nat.mod_lt n (by omega) : n % 16 < 16)
        · rw [isHexChar, hDigit, Bool.true_or]
        · have hLower : ['a', 'b', 'c', 'd', 'e', 'f'].all isHexChar = true := by decide
          exact List.all_eq_true.1 hLower _ hLetter

theorem notMem_hexDigits {c : Char} (h : isHexChar c = false) {width n : Nat} :
    c ∉ hexDigits width n := by
  intro hIn
  rw [isHexChar_of_mem_hexDigits hIn] at h
  cases h

theorem Uuid.filter_chars (id : Uuid) : id.chars.filter (· ≠ '-') = hexDigits 32 id.toNat := by
  have hDigits : ∀ c ∈ hexDigits 32 id.toNat, decide (c ≠ '-') = true := by
    intro c hc
    rw [decide_eq_true_iff]
    rintro rfl
    exact notMem_hexDigits (by decide) hc
  rw [Uuid.chars]
  generalize hexDigits 32 id.toNat = digits at hDigits
  have hPiece : ∀ k l, ((digits.drop k).take l).filter (· ≠ '-') = (digits.drop k).take l := by
    intro k l
    apply List.filter_eq_self.2
    exact fun c hc => hDigits c (List.mem_of_mem_drop (List.mem_of_mem_take hc))
  have hFirst : (digits.take 8).filter (· ≠ '-') = digits.take 8 := hPiece 0 8
  have hLast : (digits.drop 20).filter (· ≠ '-') = digits.drop 20 :=
    List.filter_eq_self.2 fun c hc => hDigits c (List.mem_of_mem_drop hc)
  have hJoin : ∀ k l, (digits.drop k).take l ++ digits.drop (k + l) = digits.drop k := by
    intro k l
    rw [← List.drop_drop, List.take_append_drop]
  have hDash : ∀ w : List Char, ('-' :: w).filter (· ≠ '-') = w.filter (· ≠ '-') :=
    fun w => List.filter_cons_of_neg (by decide)
  simp only [List.filter_append, hDash, hPiece, hFirst, hLast]
  rw [hJoin 16 4, hJoin 12 4, hJoin 8 4, List.take_append_drop]

theorem isHexText_hexDigits {width : Nat} (n : Nat) (h : width % 2 = 0) :
    isHexText (hexDigits width n) = true := by
  rw [isHexText, length_hexDigits, h, List.all_eq_true.2 fun c hc => isHexChar_of_mem_hexDigits hc]
  rfl

/-- The nonce that signing writes has the form that `verify` accepts, with its own time. -/
theorem nonceTimestamp_freshNonce (ts : UInt64) (random : BitVec 128) :
    nonceTimestamp (freshNonce ts random) = some ts := by
  have hSeconds : ∀ c ∈ ts.toNat.repr.toList, decide (c ≠ ':') = true := by
    intro c hc
    rw [decide_eq_true_iff]
    rintro rfl
    cases isDigit_of_mem_repr hc
  rw [nonceTimestamp, freshNonce, String.toList_ofList, List.span_eq_takeWhile_dropWhile,
    List.takeWhile_append_of_pos hSeconds, List.dropWhile_append_of_pos hSeconds]
  simpa [isHexText_hexDigits] using parseU64_repr ts

end Nonces

end TalosWorkflow
