import TalosWorkflow.Protocol
import TalosWorkflow.SchedulerLoop

/-!
# Dispatched jobs

How the engine builds the jobs it dispatches (single modules, loop bodies and
the steps of a chain), and how the NATS dispatcher turns them into messages.
-/

namespace TalosWorkflow

section Secrets

def Secrets.extend (secrets more : Secrets) : Secrets :=
  more.entries.foldl (fun table entry => table.insert entry.1 entry.2) secrets

/-- A set that cannot be resolved is left out. -/
def resolvedSecrets : Except String Secrets → Secrets
  | .ok secrets => secrets
  | .error _ => ∅

def minSealNonceLen : Nat := 12

def validSealOutput (ciphertext nonce : List UInt8) : Bool :=
  match ciphertext.isEmpty, nonce.isEmpty with
  | true, true => true
  | false, false => minSealNonceLen ≤ nonce.length
  | _, _ => false

/-- Jobs below the second tier do without the keys of LLM providers. -/
def prefetchesLlmKeys (maxLlmTier : LlmTier) : Bool := maxLlmTier ≠ .tier1

def buildEncryptedSecretsFor (resolver : SecretsResolver) (envelope : SecretEnvelope)
    (nodeId : Uuid) (userId : Option Uuid) (vaultPaths extraPaths : List String)
    (workerSharedKey : List UInt8) (maxLlmTier : LlmTier) : EncryptedSecrets :=
  let secrets := resolvedSecrets (resolver.resolveModuleSecrets nodeId)
  let secrets := if extraPaths = [] then secrets
    else secrets.extend (resolvedSecrets (resolver.resolveByPaths extraPaths userId))
  let secrets := if vaultPaths = [] then secrets
    else secrets.extend (resolvedSecrets (resolver.resolveByPaths vaultPaths userId))
  let secrets := if prefetchesLlmKeys maxLlmTier then
      secrets.extend (resolvedSecrets (resolver.resolveLlmKeys userId))
    else secrets
  if secrets.entries = [] then {}
  else
    match envelope.sealSecrets secrets workerSharedKey with
    | .ok (ciphertext, nonce) => if validSealOutput ciphertext nonce then ⟨ciphertext, nonce⟩ else {}
    | .error _ => {}

/-- The `vault://` references among the top-level strings. -/
def extractVaultPaths (config : Json) : List String :=
  (config.asObject.getD []).filterMap fun field =>
    match field.2 with
    | .string s =>
        let path := s.toList.drop "vault://".length
        if "vault://".toList <+: s.toList ∧ path ≠ [] then some (String.ofList path) else none
    | _ => none

end Secrets

structure DispatchJob where
  executionId : Uuid
  nodeId : Uuid
  moduleId : Uuid
  jobId : Option Uuid
  userId : Option Uuid
  actorId : Option Uuid
  moduleUri : String
  wasmBytes : Option (List UInt8)
  expectedWasmHash : Option String
  capabilityWorld : Option String
  integrationName : Option String
  inputPayload : Json
  timeoutSecs : UInt64
  maxFuel : UInt64
  allowedHosts : List String
  allowedMethods : List String
  allowedSecrets : List String
  allowedSqlOperations : List String
  allowTier2Exposure : Bool
  encryptedSecretsCiphertext : List UInt8
  encryptedSecretsNonce : List UInt8
  priority : UInt8
  dryRun : Bool
  maxLlmTier : LlmTier
  maxRetries : UInt32
  backoffMs : UInt64
  retryCondition : Option String
  retryDelayExpr : Option String
  emitRetryEvents : Bool

structure ChainDispatchRequest where
  workflowExecutionId : Uuid
  userId : Option Uuid
  jobId : Option Uuid
  steps : List DispatchJob
  shareSandbox : Bool
  maxLlmTier : LlmTier
  totalTimeoutSecs : UInt64
  maxRetries : UInt32
  backoffMs : UInt64
  retryCondition : Option String
  retryDelayExpr : Option String

inductive DispatchFailure where
  | fetchFailed (message : String)
  | approvalPending (nodeId : Uuid) (operations : List String)
  | approvalDenied (reason : String)
  | approvalUnrecognized (nodeId : Uuid)
  | approvalCheckFailed (message : String)
  | missingUser
  | missingUserInChain (nodeId : Uuid)
  | timeoutOverflow

/-- What a dispatch is given beside the engine and the results. -/
structure DispatchContext where
  executionId : Uuid
  freshJobId : Uuid
  workerSharedKey : Option (List UInt8)
  prefetchedModules : Table WasmModuleArtifact
  /-- The local module that a debug build runs without a fetcher. -/
  localModule : Option (Except String (List UInt8))
  accumulated : Option Json
  triggerInput : Option Json
  defaultNodeTimeoutSecs : UInt64
  natsTimeoutFloorSecs : UInt64

namespace Json

def asU64 : Json → Option UInt64
  | .number (.posInt n) => some n
  | _ => none

def insertAll (fields more : List (String × Json)) : List (String × Json) :=
  more.foldl (fun merged field => insertField field.1 field.2 merged) fields

def insertOptional (key : String) (value : Option Json) (fields : List (String × Json)) :
    List (String × Json) :=
  match value with
  | some v => insertField key v fields
  | none => fields

end Json

def WasmModuleArtifact.inlineBytes (artifact : WasmModuleArtifact) : Option (List UInt8) :=
  if artifact.wasmBytes = [] then none else some artifact.wasmBytes

/-- The hash is only committed to when the worker fetches the module by its URI. -/
def WasmModuleArtifact.fetchHash (artifact : WasmModuleArtifact) : Option String :=
  if artifact.wasmBytes = [] then some artifact.contentHash else none

def WasmModuleArtifact.uriOr (artifact : WasmModuleArtifact) (moduleId : Uuid) : String :=
  artifact.ociUrl.getD ("redis:wasm:" ++ moduleId.text)

namespace ParallelWorkflowEngine

variable {H : Host} (E : ParallelWorkflowEngine H)

def retryPolicyOf (nodeId : Uuid) : RetryPolicy :=
  ((E.nodeMeta.lookup nodeId).bind (·.retryPolicy)).getD {}

def fetchModule (d : DispatchContext) (nodeId : Uuid) : Except DispatchFailure WasmModuleArtifact :=
  match d.prefetchedModules.lookup nodeId, E.moduleFetcher, E.userId with
  | some artifact, _, _ => .ok artifact
  | none, none, _ =>
      match d.localModule with
      | some (.ok bytes) =>
          .ok { moduleId := E.resolveModuleId nodeId, contentHash := "example", wasmBytes := bytes
                ociUrl := none, maxFuel := 1000000, capabilityWorld := "unknown"
                allowedHosts := [], allowedMethods := [], allowedSecrets := []
                requiresApprovalFor := [], integrationName := none, config := none }
      | some (.error e) => .error (.fetchFailed ("failed to read wasm module: " ++ e))
      | none => .error (.fetchFailed ("engine has no module fetcher configured; construct with " ++
          "`with_services` or call `set_module_fetcher` before dispatching"))
  | none, some _, none => .error .missingUser
  | none, some fetcher, some userId =>
      (fetcher.fetch (E.resolveModuleId nodeId) userId).mapError .fetchFailed

def checkApproval (executionId nodeId : Uuid) (artifact : WasmModuleArtifact)
    (webhookConfig : Option Json) : Except DispatchFailure Unit :=
  match artifact.requiresApprovalFor, E.approvalGate with
  | [], _ | _, none => .ok ()
  | operations, some gate =>
      let webhook := (webhookConfig.bind (·.get "NOTIFICATION_WEBHOOK")).bind Json.asStr
      match gate.checkOrRequest executionId nodeId operations webhook with
      | .ok .approved => .ok ()
      | .ok .pending => .error (.approvalPending nodeId operations)
      | .ok (.denied reason) => .error (.approvalDenied reason)
      | .ok .unrecognized => .error (.approvalUnrecognized nodeId)
      | .error e => .error (.approvalCheckFailed e)

/-- The secrets of a job, when there is a resolver and a key to seal them with. -/
def secretsFor (d : DispatchContext) (nodeId : Uuid) (vaultPaths extraPaths : List String) :
    EncryptedSecrets :=
  match E.secretsResolver, d.workerSharedKey with
  | some resolver, some key =>
      buildEncryptedSecretsFor resolver E.secretEnvelope nodeId E.userId vaultPaths extraPaths key
        E.maxLlmTier
  | _, _ => {}

section Single

def reservedConfigKeys : List String :=
  ["__skip_condition", "skip_condition", "__continue_on_error", "continue_on_error"]

def mergedConfig (nodeId : Uuid) (artifact : WasmModuleArtifact) : Json :=
  let config := artifact.config.getD (.object [])
  match E.nodeConfigs.lookup nodeId with
  | none => config
  | some nodeConfig =>
      match config, nodeConfig with
      | .object fields, .object own =>
          .object (Json.insertAll fields (own.filter fun field => field.1 ∉ reservedConfigKeys))
      | _, _ => if config = .object [] then nodeConfig else config

def wrappedInput (d : DispatchContext) (config inputs : Json) : Json :=
  let fields := Json.insertAll [] (config.asObject.getD [])
  let fields := match inputs with
    | .object given => Json.insertAll fields given
    | .null => fields
    | other => Json.insertField "input" other fields
  let fields := if config = .object [] then fields else Json.insertField "config" config fields
  let fields := if inputs = .null ∨ inputs = .object [] then fields
    else Json.insertField "input" inputs fields
  .object (Json.insertOptional "__trigger_input__" d.triggerInput
    (Json.insertOptional "__actor_context__" E.actorContext
      (Json.insertOptional "__accumulated__" d.accumulated fields)))

def singleJob (d : DispatchContext) (nodeId : Uuid) (artifact : WasmModuleArtifact)
    (inputs : Json) : DispatchJob :=
  let moduleId := E.resolveModuleId nodeId
  let config := E.mergedConfig nodeId artifact
  let secrets := E.secretsFor d moduleId (extractVaultPaths config) artifact.allowedSecrets
  let retry := E.retryPolicyOf nodeId
  { executionId := d.executionId
    nodeId := nodeId
    moduleId := moduleId
    jobId := some d.freshJobId
    userId := E.userId
    actorId := E.actorId
    moduleUri := artifact.uriOr moduleId
    wasmBytes := artifact.inlineBytes
    expectedWasmHash := artifact.fetchHash
    capabilityWorld := some artifact.capabilityWorld
    integrationName := artifact.integrationName
    inputPayload := E.wrappedInput d config inputs
    timeoutSecs := (E.nodeTimeouts.lookup nodeId).getD d.defaultNodeTimeoutSecs
    maxFuel := min (((config.get "max_fuel").bind Json.asU64).getD artifact.maxFuel) E.maxFuelPerNode
    allowedHosts := artifact.allowedHosts
    allowedMethods := artifact.allowedMethods
    allowedSecrets := artifact.allowedSecrets
    allowedSqlOperations := []
    allowTier2Exposure := false
    encryptedSecretsCiphertext := secrets.ciphertext
    encryptedSecretsNonce := secrets.nonce
    priority := 100
    dryRun := E.dryRun
    maxLlmTier := E.maxLlmTier
    maxRetries := retry.maxRetries
    backoffMs := retry.backoffMs
    retryCondition := retry.retryCondition
    retryDelayExpr := retry.retryDelayExpression
    emitRetryEvents := true }

def runSingleNodeDispatch (d : DispatchContext) (nodeId : Uuid) (inputs : Json) :
    Except DispatchFailure DispatchJob := do
  let artifact ← E.fetchModule d nodeId
  E.checkApproval d.executionId nodeId artifact (E.nodeConfigs.lookup nodeId)
  match E.userId with
  | none => .error .missingUser
  | some _ => return E.singleJob d nodeId artifact inputs

end Single

section Loops

def loopBody (nodeId : Uuid) : Option (Uuid × Uuid) := do
  let label ← ((E.nodeConfigs.lookup nodeId).bind (·.get "body_node_id")).bind Json.asStr
  let entry ← E.nodeLabels.entries.find? fun entry => entry.2 = label
  let info ← E.nodeMeta.lookup entry.1
  let moduleId ← info.moduleId
  return (entry.1, moduleId)

def loopInput (d : DispatchContext) (bodyId : Uuid) (iteration : UInt32) (current : Json) : Json :=
  let count := unsigned iteration.toUInt64
  let fields := Json.insertAll [] (current.asObject.getD [])
  let fields := match E.nodeConfigs.lookup bodyId with
    | some (.object (field :: rest)) =>
        (field :: rest).foldl Json.orInsertField
          (Json.insertField "config" (.object (field :: rest)) fields)
    | _ => fields
  let fields := if current = .null ∨ current = .object [] then fields
    else Json.orInsertField fields ("input", current)
  let fields := Json.insertOptional "__trigger_input__" d.triggerInput fields
  .object (Json.orInsertField (Json.orInsertField fields ("iteration_count", count))
    ("iteration", count))

def loopJob (d : DispatchContext) (bodyId moduleId : Uuid) (artifact : WasmModuleArtifact)
    (iteration : UInt32) (current : Json) : DispatchJob :=
  let secrets := E.secretsFor d moduleId
    (((E.nodeConfigs.lookup moduleId).map extractVaultPaths).getD []) []
  { executionId := d.executionId
    nodeId := bodyId
    moduleId := moduleId
    jobId := none
    userId := E.userId
    actorId := E.actorId
    moduleUri := artifact.uriOr moduleId
    wasmBytes := artifact.inlineBytes
    expectedWasmHash := artifact.fetchHash
    capabilityWorld := some artifact.capabilityWorld
    integrationName := artifact.integrationName
    inputPayload := E.loopInput d bodyId iteration current
    timeoutSecs := (E.nodeTimeouts.lookup bodyId).getD 30
    maxFuel := min artifact.maxFuel E.maxFuelPerNode
    allowedHosts := artifact.allowedHosts
    allowedMethods := artifact.allowedMethods
    allowedSecrets := artifact.allowedSecrets
    allowedSqlOperations := []
    allowTier2Exposure := false
    encryptedSecretsCiphertext := secrets.ciphertext
    encryptedSecretsNonce := secrets.nonce
    priority := 100
    dryRun := E.dryRun
    maxLlmTier := E.maxLlmTier
    maxRetries := 2
    backoffMs := 500
    retryCondition := none
    retryDelayExpr := none
    emitRetryEvents := false }

end Loops

section Chains

def stepFuel (artifact : WasmModuleArtifact) (config : Json) : UInt64 :=
  let moduleFuel := if 0 < artifact.maxFuel then artifact.maxFuel else 1000000
  min (((config.get "max_fuel").bind Json.asU64).getD moduleFuel) E.maxFuelPerNode

def chainStepJob (d : DispatchContext) (userId nodeId : Uuid) (artifact : WasmModuleArtifact) :
    DispatchJob :=
  let config := artifact.config.getD (.object [])
  let secrets := E.secretsFor d nodeId (extractVaultPaths config) []
  { executionId := d.executionId
    nodeId := nodeId
    moduleId := nodeId
    jobId := none
    userId := some userId
    actorId := E.actorId
    moduleUri := artifact.uriOr (E.resolveModuleId nodeId)
    wasmBytes := artifact.inlineBytes
    expectedWasmHash := artifact.fetchHash
    capabilityWorld := none
    integrationName := artifact.integrationName
    inputPayload := config
    timeoutSecs := (E.nodeTimeouts.lookup nodeId).getD 30
    maxFuel := E.stepFuel artifact config
    allowedHosts := artifact.allowedHosts
    allowedMethods := artifact.allowedMethods
    allowedSecrets := artifact.allowedSecrets
    allowedSqlOperations := []
    allowTier2Exposure := false
    encryptedSecretsCiphertext := secrets.ciphertext
    encryptedSecretsNonce := secrets.nonce
    priority := 100
    dryRun := E.dryRun
    maxLlmTier := E.maxLlmTier
    maxRetries := 0
    backoffMs := 0
    retryCondition := none
    retryDelayExpr := none
    emitRetryEvents := false }

def fetchStep (executionId nodeId : Uuid) : Except DispatchFailure (Uuid × WasmModuleArtifact) := do
  match E.moduleFetcher, E.userId with
  | some fetcher, some userId =>
      let artifact ← (fetcher.fetch (E.resolveModuleId nodeId) userId).mapError .fetchFailed
      E.checkApproval executionId nodeId artifact (some (artifact.config.getD (.object [])))
      return (userId, artifact)
  | some _, none => .error .missingUser
  -- Without a fetcher the user is not looked up, and the first step misses it.
  | none, _ => .error (.missingUserInChain nodeId)

def chainSteps (d : DispatchContext) : List Uuid → Except DispatchFailure (List DispatchJob)
  | [] => .ok []
  | nodeId :: rest => do
      let (userId, artifact) ← E.fetchStep d.executionId nodeId
      let jobs ← chainSteps d rest
      return E.chainStepJob d userId nodeId artifact :: jobs

/-- The input of the chain is wrapped into that of its first step. -/
def wrapFirst (d : DispatchContext) (chainInput : Json) : List DispatchJob → List DispatchJob
  | [] => []
  | first :: rest =>
      { first with
        inputPayload := .object (Json.insertOptional "__actor_context__" E.actorContext
          (Json.insertOptional "__accumulated__" d.accumulated
            [("config", first.inputPayload), ("pipeline_input", chainInput)])) } :: rest

def totalTimeoutSecs (nodeIds : List Uuid) : Nat :=
  (nodeIds.map fun id => ((E.nodeTimeouts.lookup id).getD 30).toNat).sum + 5

/-- The sum wraps around unless the build checks for overflow. -/
def chainTimeoutSecs (d : DispatchContext) (nodeIds : List Uuid) : Except DispatchFailure UInt64 :=
  if usizeMax < E.totalTimeoutSecs nodeIds ∧ H.overflowChecks then .error .timeoutOverflow
  else .ok (max (UInt64.ofNat (E.totalTimeoutSecs nodeIds)) d.natsTimeoutFloorSecs)

def runPipelineChainDispatch (d : DispatchContext) (head : NodeIndex) (rest : List NodeIndex)
    (chainInput : Json) : Except DispatchFailure ChainDispatchRequest := do
  let nodeIds := (head :: rest).map E.nodeId
  let retry := E.retryPolicyOf (E.nodeId head)
  let steps ← E.chainSteps d nodeIds
  let timeout ← E.chainTimeoutSecs d nodeIds
  return {
    workflowExecutionId := d.executionId
    userId := E.userId
    jobId := none
    steps := E.wrapFirst d chainInput steps
    shareSandbox := true
    maxLlmTier := E.maxLlmTier
    totalTimeoutSecs := timeout
    maxRetries := retry.maxRetries
    backoffMs := retry.backoffMs
    retryCondition := retry.retryCondition
    retryDelayExpr := retry.retryDelayExpression }

end Chains

end ParallelWorkflowEngine

section Messages

/-- What signing writes into a message; both are empty without a key. -/
structure Stamp where
  jobNonce : String := ""
  signature : List UInt8 := []

def nilUuid : Uuid := 0

/-- `as_millis() as u64`. -/
def millis (secs : UInt64) : UInt64 := UInt64.ofNat (secs.toNat * 1000)

/-- `NatsNodeDispatcher::dispatch`. -/
def dispatch (job : DispatchJob) (freshId : Uuid) (stamp : Stamp) : JobRequest where
  jobId := job.jobId.getD freshId
  workflowExecutionId := job.executionId
  moduleUri := job.moduleUri
  inputPayload := job.inputPayload
  encryptedSecrets := ⟨job.encryptedSecretsCiphertext, job.encryptedSecretsNonce⟩
  timeoutMs := millis job.timeoutSecs
  priority := job.priority
  deadlineUnixSecs := 0
  cancellationToken := none
  allowedHosts := job.allowedHosts
  allowedMethods := job.allowedMethods
  allowedSecrets := job.allowedSecrets
  allowedSqlOperations := job.allowedSqlOperations
  allowTier2Exposure := job.allowTier2Exposure
  signature := stamp.signature
  jobNonce := stamp.jobNonce
  actorId := job.actorId
  wasmBytes := job.wasmBytes
  capabilityWorld := job.capabilityWorld
  integrationName := job.integrationName
  expectedWasmHash := job.expectedWasmHash
  maxFuel := job.maxFuel
  userId := job.userId.getD nilUuid
  maxLlmTier := job.maxLlmTier
  dryRun := job.dryRun

def pipelineStep (job : DispatchJob) : PipelineStep where
  moduleId := job.moduleId
  moduleUri := job.moduleUri
  wasmBytes := job.wasmBytes
  config := job.inputPayload
  allowedHosts := job.allowedHosts
  allowedMethods := job.allowedMethods
  allowedSecrets := job.allowedSecrets
  allowedSqlOperations := job.allowedSqlOperations
  allowTier2Exposure := job.allowTier2Exposure
  encryptedSecrets := ⟨job.encryptedSecretsCiphertext, job.encryptedSecretsNonce⟩
  maxFuel := job.maxFuel
  maxMemoryMb := 128
  timeoutMs := millis job.timeoutSecs
  priority := job.priority
  cancellationToken := none
  expectedWasmHash := job.expectedWasmHash
  integrationName := job.integrationName

/-- `NatsNodeDispatcher::dispatch_chain`. -/
def dispatchChain (request : ChainDispatchRequest) (freshId : Uuid) (stamp : Stamp) :
    PipelineJobRequest where
  jobId := request.jobId.getD freshId
  workflowExecutionId := request.workflowExecutionId
  steps := request.steps.map pipelineStep
  totalTimeoutMs := millis request.totalTimeoutSecs
  shareSandbox := request.shareSandbox
  signature := stamp.signature
  jobNonce := stamp.jobNonce
  userId := request.userId.getD nilUuid
  maxLlmTier := request.maxLlmTier

end Messages

section Specifications

namespace ParallelWorkflowEngine

variable {H : Host} {E : ParallelWorkflowEngine H} {d : DispatchContext}

theorem runSingleNodeDispatch_ok {nodeId : Uuid} {inputs : Json} {job : DispatchJob}
    (h : E.runSingleNodeDispatch d nodeId inputs = .ok job) :
    ∃ artifact, E.fetchModule d nodeId = .ok artifact ∧
      E.checkApproval d.executionId nodeId artifact (E.nodeConfigs.lookup nodeId) = .ok () ∧
      job = E.singleJob d nodeId artifact inputs := by
  simp only [runSingleNodeDispatch, bind, Except.bind] at h
  split at h
  · cases h
  · rename_i artifact hFetch
    split at h
    · cases h
    · rename_i hApproval
      split at h
      · cases h
      · cases h
        exact ⟨artifact, hFetch, hApproval, rfl⟩

theorem chainSteps_ok {nodeIds : List Uuid} {jobs : List DispatchJob}
    (h : E.chainSteps d nodeIds = .ok jobs) :
    jobs.length = nodeIds.length ∧ ∀ job ∈ jobs, ∃ userId nodeId artifact,
      job = E.chainStepJob d userId nodeId artifact := by
  induction nodeIds generalizing jobs with
  | nil =>
      cases h
      exact ⟨rfl, fun job hJob => absurd hJob List.not_mem_nil⟩
  | cons nodeId rest ih =>
      simp only [chainSteps, bind, Except.bind] at h
      split at h
      · cases h
      · rename_i step hStep
        split at h
        · cases h
        · rename_i others hOthers
          cases h
          obtain ⟨hLength, hJobs⟩ := ih hOthers
          refine ⟨by rw [List.length_cons, List.length_cons, hLength], fun job hJob => ?_⟩
          obtain rfl | hJob := List.mem_cons.1 hJob
          · exact ⟨step.1, nodeId, step.2, rfl⟩
          · exact hJobs job hJob

theorem exists_chainSteps {nodeIds : List Uuid} :
    (∃ jobs, E.chainSteps d nodeIds = .ok jobs) ↔
      ∀ nodeId ∈ nodeIds, ∃ step, E.fetchStep d.executionId nodeId = .ok step := by
  induction nodeIds with
  | nil => exact ⟨fun _ nodeId hIn => absurd hIn List.not_mem_nil, fun _ => ⟨[], rfl⟩⟩
  | cons nodeId rest ih =>
      rw [List.forall_mem_cons, ← ih]
      simp only [chainSteps, bind, Except.bind]
      constructor
      · rintro ⟨jobs, h⟩
        split at h
        · cases h
        · rename_i step hStep
          split at h
          · cases h
          · exact ⟨⟨step, hStep⟩, _, ‹_›⟩
      · rintro ⟨⟨step, hStep⟩, jobs, hJobs⟩
        rw [hStep]
        simp only [hJobs]
        exact ⟨_, rfl⟩

theorem runPipelineChainDispatch_ok {head : NodeIndex} {rest : List NodeIndex} {chainInput : Json}
    {request : ChainDispatchRequest}
    (h : E.runPipelineChainDispatch d head rest chainInput = .ok request) :
    request.maxLlmTier = E.maxLlmTier ∧ request.steps.length = rest.length + 1 ∧
      ∀ job ∈ request.steps, ∃ userId nodeId artifact input,
        job = { E.chainStepJob d userId nodeId artifact with inputPayload := input } := by
  simp only [runPipelineChainDispatch, bind, Except.bind] at h
  split at h
  · cases h
  · rename_i jobs hJobs
    split at h
    · cases h
    · cases h
      obtain ⟨hLength, hBuilt⟩ := chainSteps_ok hJobs
      rw [List.length_map, List.length_cons] at hLength
      refine ⟨rfl, ?_, ?_⟩
      · cases jobs with
        | nil => exact hLength
        | cons first others => exact hLength
      · cases jobs with
        | nil => exact fun job hJob => absurd hJob List.not_mem_nil
        | cons first others =>
            intro job hJob
            obtain rfl | hJob := List.mem_cons.1 hJob
            · obtain ⟨userId, nodeId, artifact, rfl⟩ := hBuilt first List.mem_cons_self
              exact ⟨userId, nodeId, artifact, _, rfl⟩
            · obtain ⟨userId, nodeId, artifact, rfl⟩ :=
                hBuilt job (List.mem_cons_of_mem first hJob)
              exact ⟨userId, nodeId, artifact, _, rfl⟩

theorem exists_runPipelineChainDispatch {head : NodeIndex} {rest : List NodeIndex}
    {chainInput : Json} :
    (∃ request, E.runPipelineChainDispatch d head rest chainInput = .ok request) ↔
      (∀ idx ∈ head :: rest, ∃ step, E.fetchStep d.executionId (E.nodeId idx) = .ok step) ∧
        (usizeMax < E.totalTimeoutSecs ((head :: rest).map E.nodeId) → H.overflowChecks = false) := by
  rw [← List.forall_mem_map (f := E.nodeId)
    (P := fun nodeId => ∃ step, E.fetchStep d.executionId nodeId = .ok step), ← exists_chainSteps]
  simp only [runPipelineChainDispatch, bind, Except.bind]
  constructor
  · rintro ⟨request, h⟩
    split at h
    · cases h
    · rename_i jobs hJobs
      refine ⟨⟨jobs, hJobs⟩, fun hLarge => ?_⟩
      rw [chainTimeoutSecs] at h
      by_contra hChecks
      rw [if_pos ⟨hLarge, by simpa using hChecks⟩] at h
      cases h
  · rintro ⟨⟨jobs, hJobs⟩, hFits⟩
    have hTimeout : ¬ (usizeMax < E.totalTimeoutSecs ((head :: rest).map E.nodeId) ∧
        H.overflowChecks = true) := by
      rintro ⟨hLarge, hChecks⟩
      rw [hFits hLarge] at hChecks
      cases hChecks
    rw [hJobs]
    simp only [chainTimeoutSecs, if_neg hTimeout]
    exact ⟨_, rfl⟩

end ParallelWorkflowEngine

end Specifications

end TalosWorkflow
