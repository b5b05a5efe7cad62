import TalosWorkflow.Replay.NonceCache
import TalosWorkflow.Signing.Jobs

/-!
# What the signature of a pipeline commits to

The payload determines the header of the request and the number of its steps.
Of a step it names the code, the integration and the grants for secrets, as far
as the joined texts can be told apart, but neither the module's id nor the
configuration, hosts, methods, limits and secrets.
-/

namespace TalosWorkflow

namespace PipelineStep

def wasm (step : PipelineStep) : WasmSource := wasmSource step.wasmBytes step.expectedWasmHash

/-- The byte strings that the hash of a step is taken of. -/
def hashed (step : PipelineStep) : List (List UInt8) :=
  match step.wasm with
  | .inline bytes => [bytes]
  | .expected _ => []
  | .unspecified => [utf8 step.moduleUri]

/-- Equal in all that a worker acts on, up to the order within an allowlist. -/
structure SameStep (step step' : PipelineStep) : Prop where
  moduleId : step.moduleId = step'.moduleId
  wasm : step.wasm = step'.wasm
  moduleUri : step.wasm = .unspecified → step.moduleUri = step'.moduleUri
  config : step.config = step'.config
  allowedHosts : step.allowedHosts.Perm step'.allowedHosts
  allowedMethods : step.allowedMethods.Perm step'.allowedMethods
  allowedSecrets : step.allowedSecrets.Perm step'.allowedSecrets
  allowedSqlOperations : step.allowedSqlOperations.Perm step'.allowedSqlOperations
  allowTier2Exposure : step.allowTier2Exposure = step'.allowTier2Exposure
  encryptedSecrets : step.encryptedSecrets = step'.encryptedSecrets
  maxFuel : step.maxFuel = step'.maxFuel
  timeoutMs : step.timeoutMs = step'.timeoutMs
  integrationName : step.integrationName = step'.integrationName

structure SameRest (step step' : PipelineStep) : Prop where
  moduleId : step.moduleId = step'.moduleId
  config : step.config = step'.config
  allowedHosts : step.allowedHosts.Perm step'.allowedHosts
  allowedMethods : step.allowedMethods.Perm step'.allowedMethods
  encryptedSecrets : step.encryptedSecrets = step'.encryptedSecrets
  maxFuel : step.maxFuel = step'.maxFuel
  timeoutMs : step.timeoutMs = step'.timeoutMs

/-- The integration name of the payload, for the one step a name and for the other the marker. -/
def OneUnnamed (step step' : PipelineStep) : Prop :=
  step.integrationName = none ∧ step'.integrationName = some "-" ∨
    step.integrationName = some "-" ∧ step'.integrationName = none

instance (step step' : PipelineStep) : Decidable (OneUnnamed step step') :=
  inferInstanceAs (Decidable (_ ∨ _))

/-- No text of the payload stands for something else in the other step. -/
structure Distinguished (step step' : PipelineStep) : Prop where
  kind : step.wasm.kind = step'.wasm.kind
  integrationName : ¬ OneUnnamed step step'
  allowedSecrets : ¬ Confusable step.allowedSecrets step'.allowedSecrets
  allowedSqlOperations : ¬ Confusable step.allowedSqlOperations step'.allowedSqlOperations

def integration (step : PipelineStep) : List Char := (step.integrationName.getD "-").toList

variable {digest : Sha256} {step step' : PipelineStep}

theorem SameStep.rest (h : SameStep step step') : SameRest step step' where
  moduleId := h.moduleId
  config := h.config
  allowedHosts := h.allowedHosts
  allowedMethods := h.allowedMethods
  encryptedSecrets := h.encryptedSecrets
  maxFuel := h.maxFuel
  timeoutMs := h.timeoutMs

theorem SameStep.distinguished (h : SameStep step step') : Distinguished step step' where
  kind := by rw [h.wasm]
  integrationName := by
    rintro (⟨hNone, hSome⟩ | ⟨hSome, hNone⟩)
    all_goals
      have hName := h.integrationName
      rw [hNone, hSome] at hName
      cases hName
  allowedSecrets := not_confusable_of_perm h.allowedSecrets
  allowedSqlOperations := not_confusable_of_perm h.allowedSqlOperations

theorem hash_eq (step : PipelineStep) : step.hash digest =
    match step.wasm with
    | .inline bytes => hexDigest digest bytes
    | .expected hash => hash.toList
    | .unspecified => hexDigest digest (utf8 step.moduleUri) := by
  unfold hash wasm wasmCommitment wasmSource
  cases step.wasmBytes <;> cases step.expectedWasmHash <;> rfl

theorem SameStep.hash_eq (h : SameStep step step') : step.hash digest = step'.hash digest := by
  rw [PipelineStep.hash_eq, PipelineStep.hash_eq, ← h.wasm]
  cases hWasm : step.wasm with
  | inline bytes => rfl
  | expected hash => rfl
  | unspecified => simp only [h.moduleUri hWasm]

theorem same_source_of_hash (hFree : CollisionFree digest step.hashed step'.hashed)
    (hKind : step.wasm.kind = step'.wasm.kind) (h : step.hash digest = step'.hash digest) :
    step.wasm = step'.wasm ∧ (step.wasm = .unspecified → step.moduleUri = step'.moduleUri) := by
  rw [PipelineStep.hash_eq, PipelineStep.hash_eq] at h
  unfold hashed at hFree
  cases hWasm : step.wasm with
  | inline bytes =>
      cases hWasm' : step'.wasm with
      | inline bytes' =>
          rw [hWasm, hWasm'] at h hFree
          rw [hFree bytes (List.mem_singleton_self _) bytes' (List.mem_singleton_self _)
            (digest_eq_of_hexDigest digest h)]
          exact ⟨rfl, fun hNot => by cases hNot⟩
      | _ => rw [hWasm, hWasm'] at hKind; cases hKind
  | expected hash =>
      cases hWasm' : step'.wasm with
      | expected hash' =>
          rw [hWasm, hWasm'] at h
          rw [String.toList_injective h]
          exact ⟨rfl, fun hNot => by cases hNot⟩
      | _ => rw [hWasm, hWasm'] at hKind; cases hKind
  | unspecified =>
      cases hWasm' : step'.wasm with
      | unspecified =>
          rw [hWasm, hWasm'] at h hFree
          exact ⟨rfl, fun _ => utf8_injective (hFree _ (List.mem_singleton_self _) _
            (List.mem_singleton_self _) (digest_eq_of_hexDigest digest h))⟩
      | _ => rw [hWasm, hWasm'] at hKind; cases hKind

theorem integrationName_eq (h : step.integration = step'.integration)
    (hNot : ¬ OneUnnamed step step') : step.integrationName = step'.integrationName := by
  have hName : step.integrationName.getD "-" = step'.integrationName.getD "-" :=
    String.toList_injective h
  cases hLeft : step.integrationName with
  | none =>
      cases hRight : step'.integrationName with
      | none => rfl
      | some name =>
          rw [hLeft, hRight, Option.getD_none, Option.getD_some] at hName
          exact absurd (.inl ⟨hLeft, hName ▸ hRight⟩) hNot
  | some name =>
      cases hRight : step'.integrationName with
      | none =>
          rw [hLeft, hRight, Option.getD_none, Option.getD_some] at hName
          exact absurd (.inr ⟨hName ▸ hLeft, hRight⟩) hNot
      | some name' =>
          rw [hLeft, hRight, Option.getD_some, Option.getD_some] at hName
          rw [hName]

/-- What the segment of a step tells about its grants. -/
structure SameGrants (step step' : PipelineStep) : Prop where
  allowedSecrets : sortedJoin step.allowedSecrets = sortedJoin step'.allowedSecrets
  allowedSqlOperations :
    sortedJoin step.allowedSqlOperations = sortedJoin step'.allowedSqlOperations
  allowTier2Exposure : step.allowTier2Exposure = step'.allowTier2Exposure

theorem capabilities_eq (step : PipelineStep) : step.capabilities =
    lengthPrefixed (sortedJoin step.allowedSecrets) ++ '|' ::
      (lengthPrefixed (sortedJoin step.allowedSqlOperations) ++ '|' ::
        boolChars step.allowTier2Exposure) := by
  simp [capabilities, List.intercalate]

theorem sameGrants_of_append_eq {r s : List Char}
    (h : step.capabilities ++ r = step'.capabilities ++ s) : SameGrants step step' := by
  simp only [capabilities_eq, List.append_assoc, List.cons_append] at h
  obtain ⟨hSecrets, hRest⟩ := lengthPrefixed_append_inj h
  obtain ⟨hSql, hTail⟩ := lengthPrefixed_append_inj (List.cons.inj hRest).2
  exact ⟨hSecrets, hSql, boolChars_append_inj (List.cons.inj hTail).2⟩

theorem selfDelimiting_capabilities : SelfDelimiting (Set.range capabilities) := by
  rintro - ⟨step, rfl⟩ - ⟨step', rfl⟩ r s h
  obtain ⟨hSecrets, hSql, hTier⟩ := sameGrants_of_append_eq h
  rw [capabilities_eq, capabilities_eq, hSecrets, hSql, hTier]

/-- Steps with one hash, integration and segment differ in what is not covered or not told apart. -/
theorem sameStep_of_texts (hFree : CollisionFree digest step.hashed step'.hashed)
    (hRest : SameRest step step') (hDistinct : Distinguished step step')
    (hHash : step.hash digest = step'.hash digest) (hName : step.integration = step'.integration)
    (hGrants : SameGrants step step') : SameStep step step' := by
  obtain ⟨hWasm, hUri⟩ := same_source_of_hash hFree hDistinct.kind hHash
  exact {
    moduleId := hRest.moduleId
    wasm := hWasm
    moduleUri := hUri
    config := hRest.config
    allowedHosts := hRest.allowedHosts
    allowedMethods := hRest.allowedMethods
    allowedSecrets := perm_of_sortedJoin hGrants.allowedSecrets hDistinct.allowedSecrets
    allowedSqlOperations :=
      perm_of_sortedJoin hGrants.allowedSqlOperations hDistinct.allowedSqlOperations
    allowTier2Exposure := hGrants.allowTier2Exposure
    encryptedSecrets := hRest.encryptedSecrets
    maxFuel := hRest.maxFuel
    timeoutMs := hRest.timeoutMs
    integrationName := integrationName_eq hName hDistinct.integrationName }

end PipelineStep

namespace PipelineJobRequest

def hashed (req : PipelineJobRequest) : List (List UInt8) := req.steps.flatMap PipelineStep.hashed

structure SameHeader (req req' : PipelineJobRequest) : Prop where
  jobId : req.jobId = req'.jobId
  workflowExecutionId : req.workflowExecutionId = req'.workflowExecutionId
  jobNonce : req.jobNonce = req'.jobNonce
  totalTimeoutMs : req.totalTimeoutMs = req'.totalTimeoutMs
  shareSandbox : req.shareSandbox = req'.shareSandbox
  stepCount : req.steps.length = req'.steps.length
  userId : req.userId = req'.userId
  maxLlmTier : req.maxLlmTier = req'.maxLlmTier

structure SamePipeline (req req' : PipelineJobRequest) : Prop extends SameHeader req req' where
  steps : List.Forall₂ PipelineStep.SameStep req.steps req'.steps

def fieldClasses : List (Set (List Char)) :=
  [plainField, plainField, plainField, stampedField, plainField, plainField, plainField, plainField,
    prefixedField, prefixedField, plainField, prefixedField]

theorem delimited_fieldClasses : ∀ words ∈ fieldClasses, Delimited ':' words := by
  simp only [fieldClasses, List.forall_mem_cons]
  simp [delimited_plainField, delimited_prefixedField, delimited_stampedField]

/-- The texts of the steps can be told apart where they are joined and where they are read. -/
structure Distinguished (digest : Sha256) (req req' : PipelineJobRequest) : Prop where
  steps : List.Forall₂ PipelineStep.Distinguished req.steps req'.steps
  hashes : ¬ RunsOn ':' (req.steps.map (PipelineStep.hash digest))
    (req'.steps.map (PipelineStep.hash digest))
  integrations : ¬ RunsOn ',' (req.steps.map PipelineStep.integration)
    (req'.steps.map PipelineStep.integration)

structure SameTexts (digest : Sha256) (req req' : PipelineJobRequest) : Prop where
  hashes : [':'].intercalate (req.steps.map (PipelineStep.hash digest)) =
    [':'].intercalate (req'.steps.map (PipelineStep.hash digest))
  integrations : [','].intercalate (req.steps.map PipelineStep.integration) =
    [','].intercalate (req'.steps.map PipelineStep.integration)
  grants : List.Forall₂ PipelineStep.SameGrants req.steps req'.steps

variable {digest : Sha256} {req req' : PipelineJobRequest}

theorem sameGrants_of_capabilities {steps steps' : List PipelineStep}
    (hLength : steps.length = steps'.length)
    (h : [';', ';'].intercalate (steps.map PipelineStep.capabilities) =
      [';', ';'].intercalate (steps'.map PipelineStep.capabilities)) :
    List.Forall₂ PipelineStep.SameGrants steps steps' := by
  have hSegments := PipelineStep.selfDelimiting_capabilities.intercalate_inj
    (by simp) (by simp) (by simpa using hLength) h
  rw [← List.forall₂_eq_eq_eq, List.forall₂_map_left_iff, List.forall₂_map_right_iff] at hSegments
  refine hSegments.imp fun step step' hSegment => ?_
  exact PipelineStep.sameGrants_of_append_eq (r := []) (s := []) (by rw [hSegment])

theorem same_of_signingPayload (hNonce : (nonceTimestamp req.jobNonce).isSome)
    (hNonce' : (nonceTimestamp req'.jobNonce).isSome)
    (h : req.signingPayload digest = req'.signingPayload digest) :
    SameHeader req req' ∧ SameTexts digest req req' := by
  have hText := String.ofList_injective (utf8_injective h)
  have hMarker : "pipeline".toList ∈ plainField := plainField_of_notMem (by decide)
  have hFields := fields_inj delimited_fieldClasses ?_ ?_ hText
  · simp only [List.cons.injEq, and_true, true_and] at hFields
    obtain ⟨hJob, hExecution, hStamp, hTimeout, hSandbox, hCount, hUser, hHashes, hNames, hTier,
      hCapabilities⟩ := hFields
    have hLength := repr_toList_injective hCount
    refine ⟨?_, lengthPrefixed_injective hHashes, lengthPrefixed_injective hNames,
      sameGrants_of_capabilities hLength (lengthPrefixed_injective hCapabilities)⟩
    exact {
      jobId := Uuid.chars_injective hJob
      workflowExecutionId := Uuid.chars_injective hExecution
      jobNonce := String.toList_injective hStamp
      totalTimeoutMs := UInt64.toNat_inj.1 (repr_toList_injective hTimeout)
      shareSandbox := boolChars_injective hSandbox
      stepCount := hLength
      userId := Uuid.chars_injective hUser
      maxLlmTier := tier_injective hTier }
  all_goals
    simp only [fieldClasses, List.forall₂_cons, List.forall₂_nil_left_iff, hMarker, plainField_chars,
      prefixedField_lengthPrefixed, stampedField_of_nonce hNonce, stampedField_of_nonce hNonce',
      plainField_repr, plainField_tier, plainField_boolChars, and_self]

theorem SamePipeline.distinguished (h : SamePipeline req req') : Distinguished digest req req' where
  steps := h.steps.imp fun _ _ hStep => hStep.distinguished
  hashes := by
    have hHashes : req.steps.map (PipelineStep.hash digest) =
        req'.steps.map (PipelineStep.hash digest) := by
      rw [← List.forall₂_eq_eq_eq, List.forall₂_map_left_iff, List.forall₂_map_right_iff]
      exact h.steps.imp fun _ _ hStep => hStep.hash_eq
    rw [hHashes]
    exact not_runsOn_self _
  integrations := by
    have hNames : req.steps.map PipelineStep.integration =
        req'.steps.map PipelineStep.integration := by
      rw [← List.forall₂_eq_eq_eq, List.forall₂_map_left_iff, List.forall₂_map_right_iff]
      refine h.steps.imp fun step step' hStep => ?_
      rw [PipelineStep.integration, PipelineStep.integration, hStep.integrationName]
    rw [hNames]
    exact not_runsOn_self _

theorem map_eq_of_joined {sep : Char} {text : PipelineStep → List Char}
    (hLength : req.steps.length = req'.steps.length)
    (hNot : ¬ RunsOn sep (req.steps.map text) (req'.steps.map text))
    (h : [sep].intercalate (req.steps.map text) = [sep].intercalate (req'.steps.map text)) :
    List.Forall₂ (fun step step' => text step = text step') req.steps req'.steps := by
  have hEq : req.steps.map text = req'.steps.map text := by
    obtain hNone | hSome := eq_or_ne req.steps []
    · rw [hNone] at hLength ⊢
      rw [List.length_eq_zero_iff.1 hLength.symm]
    · have hSome' : req'.steps ≠ [] := by
        intro hNone
        rw [hNone] at hLength
        exact hSome (List.length_eq_zero_iff.1 hLength)
      exact intercalate_inj_of_not_runsOn hNot (by simpa using hSome) (by simpa using hSome') h
  rwa [← List.forall₂_eq_eq_eq, List.forall₂_map_left_iff, List.forall₂_map_right_iff] at hEq

theorem sameSteps_of_texts (hLength : req.steps.length = req'.steps.length)
    (hFree : CollisionFree digest req.hashed req'.hashed) (hTexts : SameTexts digest req req')
    (hRest : List.Forall₂ PipelineStep.SameRest req.steps req'.steps)
    (hDistinct : Distinguished digest req req') :
    List.Forall₂ PipelineStep.SameStep req.steps req'.steps := by
  have hHashes := map_eq_of_joined hLength hDistinct.hashes hTexts.hashes
  have hNames := map_eq_of_joined hLength hDistinct.integrations hTexts.integrations
  rw [List.forall₂_iff_get] at hRest hHashes hNames ⊢
  have hSteps := List.forall₂_iff_get.1 hDistinct.steps
  have hGrants := List.forall₂_iff_get.1 hTexts.grants
  refine ⟨hLength, fun i hi hi' => ?_⟩
  refine PipelineStep.sameStep_of_texts (fun a ha b hb => hFree a ?_ b ?_) (hRest.2 i hi hi')
    (hSteps.2 i hi hi') (hHashes.2 i hi hi') (hNames.2 i hi hi') (hGrants.2 i hi hi')
  · exact List.mem_flatMap.2 ⟨_, List.get_mem _ _, ha⟩
  · exact List.mem_flatMap.2 ⟨_, List.get_mem _ _, hb⟩

/-- The header is committed to. The steps are, as far as the requests agree on what the payload
leaves out and no text of it stands for different things. -/
theorem signed_steps_iff (hNonce : (nonceTimestamp req.jobNonce).isSome)
    (hNonce' : (nonceTimestamp req'.jobNonce).isSome)
    (hFree : CollisionFree digest req.hashed req'.hashed)
    (h : req.signingPayload digest = req'.signingPayload digest) :
    SameHeader req req' ∧ (SamePipeline req req' ↔
      List.Forall₂ PipelineStep.SameRest req.steps req'.steps ∧ Distinguished digest req req') := by
  obtain ⟨hHeader, hTexts⟩ := same_of_signingPayload hNonce hNonce' h
  refine ⟨hHeader, fun hSame => ⟨?_, hSame.distinguished⟩, fun ⟨hRest, hDistinct⟩ => ?_⟩
  · exact hSame.steps.imp fun _ _ hStep => hStep.rest
  · exact ⟨hHeader, sameSteps_of_texts hHeader.stepCount hFree hTexts hRest hDistinct⟩

section Samples

def registryStep : PipelineStep where
  moduleId := 5
  moduleUri := "redis:wasm:5"
  wasmBytes := none
  config := .object []
  allowedHosts := ["api.example.com"]
  allowedMethods := ["GET"]
  allowedSecrets := []
  allowedSqlOperations := []
  allowTier2Exposure := false
  encryptedSecrets := {}
  maxFuel := 1000000
  maxMemoryMb := 64
  timeoutMs := 30000
  priority := 100
  cancellationToken := none
  expectedWasmHash := some "44136fa355b3678a1146ad16f7e8649e94fb4fc21fe77e8310c060f61caaff8a"
  integrationName := none

def twoSteps : PipelineJobRequest where
  jobId := 1
  workflowExecutionId := 2
  steps := [registryStep, registryStep]
  totalTimeoutMs := 60000
  shareSandbox := true
  signature := []
  jobNonce := "1700000000:00"
  userId := 4
  maxLlmTier := .tier2

/-- The same steps, with other URIs behind the hashes and the grants in another order. -/
def reordered (secrets : List String) (uri : String) : PipelineJobRequest :=
  { twoSteps with
    steps := [registryStep, { registryStep with moduleUri := uri, allowedSecrets := secrets }] }

/-- The last step works for another module and host, with other secrets and limits. -/
def redirected : PipelineJobRequest :=
  { twoSteps with
    steps := [registryStep, { registryStep with
      moduleId := 6
      config := .object [("url", .string "https://example.org")]
      allowedHosts := ["example.org"]
      allowedMethods := ["POST"]
      encryptedSecrets := ⟨[1], [2]⟩
      maxFuel := 50000000
      timeoutMs := 1
      integrationName := some "-" }] }

/-- A redirected pipeline passes whatever checks the signed one passes. -/
theorem redirected_passes :
    (∀ digest, twoSteps.signingPayload digest = redirected.signingPayload digest) ∧
      (∀ digest mac maxAgeSecs v,
        redirected.check digest mac maxAgeSecs v = twoSteps.check digest mac maxAgeSecs v) ∧
      (nonceTimestamp twoSteps.jobNonce).isSome ∧ ¬ SamePipeline twoSteps redirected := by
  have hPayload : ∀ digest, twoSteps.signingPayload digest = redirected.signingPayload digest := by
    intro digest
    simp only [signingPayload, signingText, twoSteps, redirected]
    rfl
  refine ⟨hPayload, ?_, by decide, ?_⟩
  · intro digest mac maxAgeSecs v
    rw [check, check, ← hPayload]
    rfl
  · intro hSame
    cases hSame.steps with
    | cons hFirst hRest =>
        cases hRest with
        | cons hStep hNil => exact absurd hStep.moduleId (by decide)

theorem collisionFree_of_hashed_nil (h : req.hashed = []) :
    CollisionFree digest req.hashed req'.hashed := by
  rw [h]
  exact fun a ha => absurd ha List.not_mem_nil

theorem signingPayload_reordered (digest : Sha256) :
    (reordered ["a", "b"] "redis:wasm:5").signingPayload digest =
      (reordered ["b", "a"] "file://5").signingPayload digest := by
  have hJoin : sortedJoin ["a", "b"] = sortedJoin ["b", "a"] :=
    congrArg [','].intercalate (sortedWords_eq_of_perm (List.Perm.swap "b" "a" []))
  have hCapabilities : (reordered ["a", "b"] "redis:wasm:5").steps.map PipelineStep.capabilities =
      (reordered ["b", "a"] "file://5").steps.map PipelineStep.capabilities := by
    simp only [reordered, List.map_cons, PipelineStep.capabilities, hJoin]
  have hHashes : (reordered ["a", "b"] "redis:wasm:5").steps.map (PipelineStep.hash digest) =
      (reordered ["b", "a"] "file://5").steps.map (PipelineStep.hash digest) := by
    simp only [reordered, List.map_cons, PipelineStep.hash, registryStep, wasmCommitment]
  rw [signingPayload, signingPayload, signingText, signingText, hCapabilities, hHashes]
  simp only [reordered, twoSteps, List.map_cons, List.length_cons]

/-- Steps that differ in the order of their grants are the same; redirected ones are not. -/
theorem signed_steps_iff_twoSteps :
    SamePipeline (reordered ["a", "b"] "redis:wasm:5") (reordered ["b", "a"] "file://5") ∧
      ¬ SamePipeline twoSteps redirected := by
  have hSame := signingPayload_reordered JobRequest.knownDigest
  have hRedirected := redirected_passes.1 JobRequest.knownDigest
  constructor
  · refine (signed_steps_iff (by decide) (by decide) (collisionFree_of_hashed_nil rfl) hSame).2.2
      ⟨?_, ?_, ?_, ?_⟩
    · exact .cons ⟨rfl, rfl, .refl _, .refl _, rfl, rfl, rfl⟩
        (.cons ⟨rfl, rfl, .refl _, .refl _, rfl, rfl, rfl⟩ .nil)
    · refine .cons ⟨rfl, by decide, not_confusable_of_perm (.refl _),
        not_confusable_of_perm (.refl _)⟩ (.cons ⟨rfl, by decide, not_confusable_of_perm ?_,
          not_confusable_of_perm (.refl _)⟩ .nil)
      exact .swap "b" "a" []
    · exact not_runsOn_self _
    · exact not_runsOn_self _
  · intro hPipeline
    obtain ⟨hRest, -⟩ := (signed_steps_iff (by decide) (by decide)
      (collisionFree_of_hashed_nil rfl) hRedirected).2.1 hPipeline
    cases hRest with
    | cons hFirst hTail =>
        cases hTail with
        | cons hStep hNil => exact absurd hStep.moduleId (by decide)

end Samples

end PipelineJobRequest

end TalosWorkflow
