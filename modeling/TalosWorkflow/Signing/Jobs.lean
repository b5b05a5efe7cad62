import TalosWorkflow.Signing.Texts

/-!
# What the signature of a job commits to

Requests with one signing payload agree on what the payload names. The
capability world is no part of it, and of the secrets only the ciphertext is.
-/

namespace TalosWorkflow

/-- No string of the first list has the digest of another string of the second. -/
def CollisionFree (digest : Sha256) (xs ys : List (List UInt8)) : Prop :=
  ∀ a ∈ xs, ∀ b ∈ ys, digest a = digest b → a = b

inductive WasmSource where
  | inline (bytes : List UInt8)
  | expected (hash : String)
  | unspecified
  deriving DecidableEq

inductive WasmKind where
  | inline
  | expected
  | unspecified
  deriving DecidableEq

def WasmSource.kind : WasmSource → WasmKind
  | .inline _ => .inline
  | .expected _ => .expected
  | .unspecified => .unspecified

def wasmSource : Option (List UInt8) → Option String → WasmSource
  | some bytes, _ => .inline bytes
  | none, some hash => .expected hash
  | none, none => .unspecified

namespace WasmSource

variable (digest : Sha256)

/-- The hash of a source is a text without a colon. -/
def IsPlain (source : WasmSource) : Prop := ∀ hash, source = .expected hash → ':' ∉ hash.toList

/-- Sources of one content: a module and the text of its digest stand for each other, and so do no
module and the text `none`. -/
def Matches : WasmSource → WasmSource → Prop
  | .inline bytes, .inline bytes' => bytes = bytes'
  | .inline bytes, .expected hash => hash.toList = hexDigest digest bytes
  | .expected hash, .inline bytes => hash.toList = hexDigest digest bytes
  | .expected hash, .expected hash' => hash = hash'
  | .expected hash, .unspecified => hash = "none"
  | .unspecified, .expected hash => hash = "none"
  | .unspecified, .unspecified => True
  | .inline _, .unspecified => False
  | .unspecified, .inline _ => False

end WasmSource

section Commitments

variable {digest : Sha256} {wasmBytes wasmBytes' : Option (List UInt8)}
variable {expectedWasmHash expectedWasmHash' : Option String}

theorem plainField_wasmCommitment {otherwise : List Char} (hOtherwise : ':' ∉ otherwise)
    (h : (wasmSource wasmBytes expectedWasmHash).IsPlain) :
    wasmCommitment digest wasmBytes expectedWasmHash otherwise ∈ plainField := by
  cases wasmBytes with
  | some bytes => exact plainField_hexDigest digest bytes
  | none =>
      cases expectedWasmHash with
      | some hash => exact plainField_of_notMem (h hash rfl)
      | none => exact plainField_of_notMem hOtherwise

theorem hexDigest_ne_none (bytes : List UInt8) : hexDigest digest bytes ≠ "none".toList := by
  intro h
  have hLength : (hexDigest digest bytes).length = 64 := length_hexDigits 64 _
  rw [h] at hLength
  cases hLength

theorem matches_of_wasmCommitment
    (hFree : CollisionFree digest wasmBytes.toList wasmBytes'.toList)
    (h : wasmCommitment digest wasmBytes expectedWasmHash "none".toList =
      wasmCommitment digest wasmBytes' expectedWasmHash' "none".toList) :
    (wasmSource wasmBytes expectedWasmHash).Matches digest
      (wasmSource wasmBytes' expectedWasmHash') := by
  cases wasmBytes with
  | some bytes =>
      cases wasmBytes' with
      | some bytes' =>
          exact hFree bytes (by rw [Option.toList_some]; exact List.mem_cons_self) bytes'
            (by rw [Option.toList_some]; exact List.mem_cons_self) (digest_eq_of_hexDigest digest h)
      | none =>
          cases expectedWasmHash' with
          | some hash => exact h.symm
          | none => exact hexDigest_ne_none bytes h
  | none =>
      cases expectedWasmHash with
      | some hash =>
          cases wasmBytes' with
          | some bytes' => exact h
          | none =>
              cases expectedWasmHash' with
              | some hash' => exact String.toList_injective h
              | none => exact String.toList_injective h
      | none =>
          cases wasmBytes' with
          | some bytes' => exact hexDigest_ne_none bytes' h.symm
          | none =>
              cases expectedWasmHash' with
              | some hash' => exact (String.toList_injective h).symm
              | none => exact trivial

end Commitments

namespace JobRequest

def wasm (req : JobRequest) : WasmSource := wasmSource req.wasmBytes req.expectedWasmHash

def hashed (req : JobRequest) : List (List UInt8) :=
  utf8 req.inputPayload.text :: req.encryptedSecrets.ciphertext :: req.wasmBytes.toList

def allowlists (req : JobRequest) : List (List String) :=
  [req.allowedHosts, req.allowedMethods, req.allowedSecrets, req.allowedSqlOperations]

structure SameJob (digest : Sha256) (req req' : JobRequest) : Prop where
  jobId : req.jobId = req'.jobId
  workflowExecutionId : req.workflowExecutionId = req'.workflowExecutionId
  moduleUri : req.moduleUri = req'.moduleUri
  jobNonce : req.jobNonce = req'.jobNonce
  inputPayload : req.inputPayload = req'.inputPayload
  ciphertext : req.encryptedSecrets.ciphertext = req'.encryptedSecrets.ciphertext
  timeoutMs : req.timeoutMs = req'.timeoutMs
  wasm : req.wasm.Matches digest req'.wasm
  integrationName : req.integrationName.getD "-" = req'.integrationName.getD "-"
  userId : req.userId = req'.userId
  maxLlmTier : req.maxLlmTier = req'.maxLlmTier
  actorId : req.actorId = req'.actorId
  allowlists : List.Forall₂ SameEntries req.allowlists req'.allowlists
  allowTier2Exposure : req.allowTier2Exposure = req'.allowTier2Exposure

def fieldClasses : List (Set (List Char)) :=
  [plainField, plainField, prefixedField, stampedField, plainField, plainField, plainField,
    prefixedField, prefixedField, plainField, prefixedField, plainField, plainField, prefixedField,
    prefixedField, prefixedField, plainField]

theorem delimited_fieldClasses : ∀ words ∈ fieldClasses, Delimited ':' words := by
  simp only [fieldClasses, List.forall_mem_cons]
  simp [delimited_plainField, delimited_prefixedField, delimited_stampedField]

variable {digest : Sha256} {req req' : JobRequest}

theorem plainField_wasm (h : req.wasm.IsPlain) :
    wasmCommitment digest req.wasmBytes req.expectedWasmHash "none".toList ∈ plainField :=
  plainField_wasmCommitment (by decide) h

/-- Requests with one signing payload agree on all that the payload names. -/
theorem same_job_of_signingPayload (hNonce : (nonceTimestamp req.jobNonce).isSome)
    (hNonce' : (nonceTimestamp req'.jobNonce).isSome) (hPlain : req.wasm.IsPlain)
    (hPlain' : req'.wasm.IsPlain) (hFree : CollisionFree digest req.hashed req'.hashed)
    (h : req.signingPayload digest = req'.signingPayload digest) : SameJob digest req req' := by
  have hText := String.ofList_injective (utf8_injective h)
  have hFields := fields_inj delimited_fieldClasses ?_ ?_ hText
  · simp only [List.cons.injEq, and_true] at hFields
    obtain ⟨hJob, hExecution, hUri, hStamp, hInput, hSecrets, hTimeout, hHosts, hMethods, hWasm,
      hIntegration, hUser, hTier, hActor, hGrants, hSql, hExposure⟩ := hFields
    have hEntries : ∀ items items' : List String,
        lengthPrefixed (sortedJoin items) = lengthPrefixed (sortedJoin items') →
          SameEntries items items' :=
      fun _ _ hSame => sameEntries_of_sortedJoin (lengthPrefixed_injective hSame)
    have hInputBytes := hFree _ List.mem_cons_self _ List.mem_cons_self
      (digest_eq_of_hexDigest digest hInput)
    have hCiphertext := hFree _ (List.mem_cons_of_mem _ List.mem_cons_self) _
      (List.mem_cons_of_mem _ List.mem_cons_self) (digest_eq_of_hexDigest digest hSecrets)
    have hModule : CollisionFree digest req.wasmBytes.toList req'.wasmBytes.toList :=
      fun a ha b hb => hFree a (List.mem_cons_of_mem _ (List.mem_cons_of_mem _ ha)) b
        (List.mem_cons_of_mem _ (List.mem_cons_of_mem _ hb))
    exact {
      jobId := Uuid.chars_injective hJob
      workflowExecutionId := Uuid.chars_injective hExecution
      moduleUri := String.toList_injective (lengthPrefixed_injective hUri)
      jobNonce := String.toList_injective hStamp
      inputPayload := Json.text_injective (utf8_injective hInputBytes)
      ciphertext := hCiphertext
      timeoutMs := UInt64.toNat_inj.1 (repr_toList_injective hTimeout)
      wasm := matches_of_wasmCommitment hModule hWasm
      integrationName := String.toList_injective (lengthPrefixed_injective hIntegration)
      userId := Uuid.chars_injective hUser
      maxLlmTier := tier_injective hTier
      actorId := getD_chars_injective (lengthPrefixed_injective hActor)
      allowlists := .cons (hEntries _ _ hHosts) (.cons (hEntries _ _ hMethods)
        (.cons (hEntries _ _ hGrants) (.cons (hEntries _ _ hSql) .nil)))
      allowTier2Exposure := boolChars_injective hExposure }
  all_goals
    simp only [fieldClasses, List.forall₂_cons, List.forall₂_nil_left_iff, plainField_chars,
      prefixedField_lengthPrefixed, stampedField_of_nonce hNonce, stampedField_of_nonce hNonce',
      plainField_hexDigest, plainField_repr, plainField_wasm hPlain, plainField_wasm hPlain',
      plainField_tier, plainField_boolChars, and_self]

section Samples

def plainJob : JobRequest where
  jobId := 1
  workflowExecutionId := 2
  moduleUri := "redis:wasm:3"
  inputPayload := .object []
  encryptedSecrets := {}
  timeoutMs := 30000
  priority := 100
  deadlineUnixSecs := 0
  cancellationToken := none
  allowedHosts := ["a", "b"]
  allowedMethods := []
  allowedSecrets := []
  allowedSqlOperations := []
  allowTier2Exposure := false
  signature := []
  jobNonce := "1700000000:00"
  actorId := none
  wasmBytes := none
  capabilityWorld := none
  integrationName := none
  expectedWasmHash := none
  maxFuel := 1000000
  userId := 4
  maxLlmTier := .tier2
  dryRun := true

/-- The true digests of the empty string and of the empty object. -/
def knownDigest : Sha256 := fun bytes =>
  if bytes = [] then 0xe3b0c44298fc1c149afbf4c8996fb92427ae41e4649b934ca495991b7852b855
  else if bytes = [123, 125] then 0x44136fa355b3678a1146ad16f7e8649e94fb4fc21fe77e8310c060f61caaff8a
  else 0

theorem collisionFree_plainJob : CollisionFree knownDigest plainJob.hashed plainJob.hashed := by
  have hInput : utf8 (Json.object []).text = [123, 125] := by decide
  have hAll : ∀ a ∈ [[123, 125], []], ∀ b ∈ [[123, 125], []],
      knownDigest a = knownDigest b → a = b := by decide
  simpa only [CollisionFree, hashed, plainJob, hInput, Option.toList_none] using hAll

theorem same_job_of_signingPayload_plainJob :
    SameJob knownDigest plainJob { plainJob with capabilityWorld := some "agent-node" } :=
  same_job_of_signingPayload (by decide) (by decide) (fun _ h => by cases h) (fun _ h => by cases h)
    collisionFree_plainJob rfl

/-- A job for other hosts, under another hash, in another integration and not as a dry run. -/
def alteredJob : JobRequest :=
  { plainJob with
    encryptedSecrets := ⟨[], [0]⟩
    allowedHosts := ["a,b"]
    capabilityWorld := some "agent-node"
    integrationName := some "-"
    expectedWasmHash := some "none"
    maxFuel := 50000000
    dryRun := false }

theorem signingPayload_alteredJob (digest : Sha256) :
    alteredJob.signingPayload digest = plainJob.signingPayload digest := by
  have hHosts : sortedJoin ["a,b"] = sortedJoin ["a", "b"] := by
    simp [sortedJoin, List.mergeSort]
  simp only [signingPayload, signingText, alteredJob, plainJob, hHosts, wasmCommitment]
  rfl

/-- The hash of the one runs on into the integration name of the other. -/
def shiftedJob (hash name : String) : JobRequest :=
  { plainJob with expectedWasmHash := some hash, integrationName := some name }

/-- One payload for jobs with different fields, and for two splits of a hash and a name. -/
theorem distinct_jobs_share_payload :
    (∃ req req' : JobRequest, (nonceTimestamp req.jobNonce).isSome ∧
      (nonceTimestamp req'.jobNonce).isSome ∧
      (∀ digest, req.signingPayload digest = req'.signingPayload digest) ∧
      req.capabilityWorld ≠ req'.capabilityWorld ∧ req.encryptedSecrets ≠ req'.encryptedSecrets ∧
      req.maxFuel ≠ req'.maxFuel ∧ req.dryRun ≠ req'.dryRun ∧
      req.integrationName ≠ req'.integrationName ∧ ¬ req.allowedHosts.Perm req'.allowedHosts ∧
      req.wasm ≠ req'.wasm) ∧
    ∃ req req' : JobRequest, (nonceTimestamp req.jobNonce).isSome ∧
      (nonceTimestamp req'.jobNonce).isSome ∧
      (∀ digest, req.signingPayload digest = req'.signingPayload digest) ∧
      req.wasm ≠ req'.wasm ∧ req.integrationName ≠ req'.integrationName := by
  refine ⟨⟨alteredJob, plainJob, by decide, by decide, signingPayload_alteredJob, by decide,
    by decide, by decide, by decide, by decide, by decide, by decide⟩,
    shiftedJob "h" "x:1:y", shiftedJob "h:5:x" "y", by decide, by decide, ?_, by decide, by decide⟩
  intro digest
  simp only [signingPayload, signingText, shiftedJob, plainJob]
  rfl

end Samples

end JobRequest

end TalosWorkflow
