import TalosWorkflow.Ledger.FreshRuns
import TalosWorkflow.Secrets.Pipeline

/-!
# Secrets of the dispatch paths

A module node may run on its own, as a step of a chain, or as the body of a
loop. Each path calls the secrets pipeline with arguments of its own making.
-/

namespace TalosWorkflow

/-- What a dispatch path passes to the secrets pipeline. -/
structure SecretsArguments where
  moduleId : Uuid
  vaultPaths : List String
  extraPaths : List String

def SecretsArguments.secrets (a : SecretsArguments) (resolver : SecretsResolver)
    (userId : Option Uuid) (maxLlmTier : LlmTier) : Secrets :=
  secretsMap resolver a.moduleId userId a.vaultPaths a.extraPaths maxLlmTier

section Lookups

variable {resolver : SecretsResolver} {userId : Option Uuid} {maxLlmTier : LlmTier}

/-- What a set of paths contributes to a key. -/
def pathsValue (resolver : SecretsResolver) (userId : Option Uuid) (paths : List String)
    (key : String) : Option String :=
  if paths = [] then none
  else (resolvedSecrets (resolver.resolveByPaths paths userId)).lookup key

def llmValue (resolver : SecretsResolver) (userId : Option Uuid) (maxLlmTier : LlmTier)
    (key : String) : Option String :=
  if prefetchesLlmKeys maxLlmTier then
    (resolvedSecrets (resolver.resolveLlmKeys userId)).lookup key
  else none

theorem SecretsArguments.lookup_secrets (a : SecretsArguments) (key : String) :
    (a.secrets resolver userId maxLlmTier).lookup key =
      (llmValue resolver userId maxLlmTier key).or
        ((pathsValue resolver userId a.vaultPaths key).or
          ((pathsValue resolver userId a.extraPaths key).or
            ((resolvedSecrets (resolver.resolveModuleSecrets a.moduleId)).lookup key))) := by
  unfold secrets secretsMap llmValue pathsValue
  by_cases hExtra : a.extraPaths = [] <;> by_cases hVault : a.vaultPaths = [] <;>
    cases prefetchesLlmKeys maxLlmTier <;>
      simp [hExtra, hVault, Secrets.lookup_extend]

end Lookups

section Comparison

/-- The two lists of a path ask the resolver for no other paths than the one list does. -/
def AsksForOnly (vaultPaths extraPaths paths : List String) : Prop :=
  (extraPaths = [] ∨ extraPaths = paths) ∧ (vaultPaths = [] ∨ vaultPaths = paths) ∧
    (extraPaths = paths ∨ vaultPaths = paths)

variable {a b : SecretsArguments}

theorem pathsValue_of_asksForOnly {resolver : SecretsResolver} {userId : Option Uuid}
    {vaultPaths extraPaths paths : List String} (h : AsksForOnly vaultPaths extraPaths paths)
    (key : String) :
    (pathsValue resolver userId vaultPaths key).or (pathsValue resolver userId extraPaths key) =
      pathsValue resolver userId paths key := by
  have hNone : pathsValue resolver userId [] key = none := if_pos rfl
  obtain ⟨hExtra, hVault, hAny⟩ := h
  obtain rfl | rfl := hVault
  · rw [hNone, Option.none_or]
    obtain rfl | rfl := hAny
    · rfl
    · obtain rfl | rfl := hExtra <;> rfl
  · obtain rfl | rfl := hExtra
    · rw [hNone, Option.or_none]
    · exact Option.or_self

/-- A resolver that knows one secret, as a grant of one module or for one list of paths. -/
def probingResolver (moduleId : Option Uuid) (paths : List String) : SecretsResolver where
  resolveModuleSecrets id :=
    if some id = moduleId then .ok (AList.singleton "key" "value") else .error "no grant"
  resolveByPaths asked _ :=
    if asked = paths then .ok (AList.singleton "key" "value") else .error "not found"
  resolveLlmKeys _ := .error "no keys"

theorem lookup_probe : (AList.singleton "key" "value" : Secrets).lookup "key" = some "value" :=
  rfl

theorem probe_module (a : SecretsArguments) (id : Uuid) (userId : Option Uuid)
    (maxLlmTier : LlmTier) :
    ((a.secrets (probingResolver (some id) []) userId maxLlmTier).lookup "key").isSome = true ↔
      a.moduleId = id := by
  have hPaths : ∀ paths, pathsValue (probingResolver (some id) []) userId paths "key" = none := by
    intro paths
    unfold pathsValue
    split
    · rfl
    · rename_i hNe
      simp [probingResolver, hNe, resolvedSecrets]
  rw [a.lookup_secrets, hPaths, hPaths]
  by_cases hSame : a.moduleId = id
  · simp [llmValue, probingResolver, hSame, resolvedSecrets, lookup_probe]
  · simp [llmValue, probingResolver, hSame, resolvedSecrets]

theorem probe_paths (a : SecretsArguments) {paths : List String} (hPaths : paths ≠ [])
    (userId : Option Uuid) (maxLlmTier : LlmTier) :
    ((a.secrets (probingResolver none paths) userId maxLlmTier).lookup "key").isSome = true ↔
      a.vaultPaths = paths ∨ a.extraPaths = paths := by
  have hAsked : ∀ asked,
      (pathsValue (probingResolver none paths) userId asked "key").isSome = true ↔
        asked = paths := by
    intro asked
    unfold pathsValue
    by_cases hSame : asked = paths
    · simp [probingResolver, hSame, hPaths, resolvedSecrets, lookup_probe]
    · simp [probingResolver, hSame, resolvedSecrets]
  have hOwn : (resolvedSecrets
      ((probingResolver none paths).resolveModuleSecrets a.moduleId)).lookup "key" = none := by
    simp [probingResolver, resolvedSecrets]
  have hLlm : llmValue (probingResolver none paths) userId maxLlmTier "key" = none := by
    simp [llmValue, probingResolver, resolvedSecrets]
  rw [a.lookup_secrets, hOwn, hLlm, Option.none_or, Option.or_none, Option.isSome_or,
    Bool.or_eq_true, hAsked, hAsked]

/-- Against a path without extra paths, every resolver gives the same secrets exactly when the
modules and the paths asked for are the same. -/
theorem same_secrets_iff (hExtra : b.extraPaths = []) (userId : Option Uuid)
    (maxLlmTier : LlmTier) :
    (∀ (resolver : SecretsResolver) (key : String),
        (a.secrets resolver userId maxLlmTier).lookup key =
          (b.secrets resolver userId maxLlmTier).lookup key) ↔
      a.moduleId = b.moduleId ∧ AsksForOnly a.vaultPaths a.extraPaths b.vaultPaths := by
  constructor
  · intro hSame
    refine ⟨?_, ?_⟩
    · refine (probe_module a b.moduleId userId maxLlmTier).1 ?_
      rw [hSame]
      exact (probe_module b b.moduleId userId maxLlmTier).2 rfl
    · have hAsked : ∀ paths, paths ≠ [] →
          (a.vaultPaths = paths ∨ a.extraPaths = paths ↔ b.vaultPaths = paths) := by
        intro paths hPaths
        rw [← probe_paths a hPaths userId maxLlmTier, hSame, probe_paths b hPaths, hExtra]
        exact or_iff_left (Ne.symm hPaths)
      refine ⟨?_, ?_, ?_⟩
      · refine or_iff_not_imp_left.2 fun hNe => ((hAsked _ hNe).1 (.inr rfl)).symm
      · refine or_iff_not_imp_left.2 fun hNe => ((hAsked _ hNe).1 (.inl rfl)).symm
      · by_cases hEmpty : b.vaultPaths = []
        · refine .inl ?_
          by_contra hNe
          rw [hEmpty] at hNe
          exact hNe (((hAsked _ hNe).1 (.inr rfl)).symm.trans hEmpty)
        · exact ((hAsked _ hEmpty).2 rfl).symm
  · rintro ⟨hModule, hAsks⟩ resolver key
    have hNone : pathsValue resolver userId [] key = none := if_pos rfl
    rw [a.lookup_secrets, b.lookup_secrets, hExtra, hNone, Option.none_or, hModule,
      ← pathsValue_of_asksForOnly hAsks, Option.or_assoc]

end Comparison

/-- The config of the artifact alone, and the node in place of its module. -/
def chainArguments (nodeId : Uuid) (artifact : WasmModuleArtifact) : SecretsArguments :=
  ⟨nodeId, extractVaultPaths (artifact.config.getD (.object [])), []⟩

namespace ParallelWorkflowEngine

variable {H : Host} (E : ParallelWorkflowEngine H)

/-- The config of the artifact and of the node, and the grants of the artifact. -/
def singleArguments (nodeId : Uuid) (artifact : WasmModuleArtifact) : SecretsArguments :=
  ⟨E.resolveModuleId nodeId, extractVaultPaths (E.mergedConfig nodeId artifact),
    artifact.allowedSecrets⟩

/-- `build_encrypted_secrets`, which looks the config up under the module. -/
def loopArguments (moduleId : Uuid) : SecretsArguments :=
  ⟨moduleId, ((E.nodeConfigs.lookup moduleId).map extractVaultPaths).getD [], []⟩

/-- Whatever the resolver, the three paths prepare the same secrets for the node. -/
def AgreeOnSecrets (nodeId : Uuid) (artifact : WasmModuleArtifact) : Prop :=
  ∀ (resolver : SecretsResolver) (key : String),
    let single := (E.singleArguments nodeId artifact).secrets resolver E.userId E.maxLlmTier
    let chain := (chainArguments nodeId artifact).secrets resolver E.userId E.maxLlmTier
    let loop := (E.loopArguments (E.resolveModuleId nodeId)).secrets resolver E.userId E.maxLlmTier
    single.lookup key = chain.lookup key ∧ single.lookup key = loop.lookup key

section Jobs

variable (d : DispatchContext) (nodeId : Uuid) (artifact : WasmModuleArtifact)

/-- What a job carries is the secrets map of its path, sealed. -/
def sealedFor (a : SecretsArguments) : EncryptedSecrets :=
  E.secretsFor d a.moduleId a.vaultPaths a.extraPaths

theorem sealedFor_eq {resolver : SecretsResolver} {key : List UInt8}
    (hResolver : E.secretsResolver = some resolver) (hKey : d.workerSharedKey = some key)
    (a : SecretsArguments) :
    E.sealedFor d a =
      if (a.secrets resolver E.userId E.maxLlmTier).entries = [] then {}
      else
        forwarded (E.secretEnvelope.sealSecrets (a.secrets resolver E.userId E.maxLlmTier)
          key) := by
  simp only [sealedFor, secretsFor, hResolver, hKey, ← encryptedSecretsRun_fixed,
    encryptedSecretsRun_secretsMap]
  rfl

theorem singleJob_secrets (inputs : Json) :
    ⟨(E.singleJob d nodeId artifact inputs).encryptedSecretsCiphertext,
      (E.singleJob d nodeId artifact inputs).encryptedSecretsNonce⟩ =
        E.sealedFor d (E.singleArguments nodeId artifact) := rfl

theorem chainStepJob_secrets (userId : Uuid) :
    ⟨(E.chainStepJob d userId nodeId artifact).encryptedSecretsCiphertext,
      (E.chainStepJob d userId nodeId artifact).encryptedSecretsNonce⟩ =
        E.sealedFor d (chainArguments nodeId artifact) := rfl

theorem loopJob_secrets (moduleId : Uuid) (iteration : UInt32) (current : Json) :
    ⟨(E.loopJob d nodeId moduleId artifact iteration current).encryptedSecretsCiphertext,
      (E.loopJob d nodeId moduleId artifact iteration current).encryptedSecretsNonce⟩ =
        E.sealedFor d (E.loopArguments moduleId) := rfl

end Jobs

end ParallelWorkflowEngine

/-- The dispatch paths agree on a node's secrets exactly when the node is its own module and the
three places that the paths are read from name one list of vault paths. -/
theorem secrets_agree_iff {H : Host} (E : ParallelWorkflowEngine H) (nodeId : Uuid)
    (artifact : WasmModuleArtifact) :
    E.AgreeOnSecrets nodeId artifact ↔
      E.resolveModuleId nodeId = nodeId ∧
        AsksForOnly (extractVaultPaths (E.mergedConfig nodeId artifact)) artifact.allowedSecrets
          (extractVaultPaths (artifact.config.getD (.object []))) ∧
        AsksForOnly (extractVaultPaths (E.mergedConfig nodeId artifact)) artifact.allowedSecrets
          (((E.nodeConfigs.lookup (E.resolveModuleId nodeId)).map extractVaultPaths).getD []) := by
  have hChain := same_secrets_iff (a := E.singleArguments nodeId artifact)
    (b := chainArguments nodeId artifact) rfl E.userId E.maxLlmTier
  have hLoop := same_secrets_iff (a := E.singleArguments nodeId artifact)
    (b := E.loopArguments (E.resolveModuleId nodeId)) rfl E.userId E.maxLlmTier
  have hOwn : (E.singleArguments nodeId artifact).moduleId =
      (E.loopArguments (E.resolveModuleId nodeId)).moduleId := rfl
  have hSplit : E.AgreeOnSecrets nodeId artifact ↔
      (∀ (resolver : SecretsResolver) (key : String),
        ((E.singleArguments nodeId artifact).secrets resolver E.userId E.maxLlmTier).lookup key =
          ((chainArguments nodeId artifact).secrets resolver E.userId E.maxLlmTier).lookup key) ∧
      ∀ (resolver : SecretsResolver) (key : String),
        ((E.singleArguments nodeId artifact).secrets resolver E.userId E.maxLlmTier).lookup key =
          ((E.loopArguments (E.resolveModuleId nodeId)).secrets resolver E.userId
            E.maxLlmTier).lookup key :=
    ⟨fun h => ⟨fun resolver key => (h resolver key).1, fun resolver key => (h resolver key).2⟩,
      fun h resolver key => ⟨h.1 resolver key, h.2 resolver key⟩⟩
  rw [hSplit, hChain, hLoop, and_iff_right hOwn, and_assoc]
  exact Iff.rfl

section Samples

/-- A module that is granted one secret and names none in its config. -/
def grantedArtifact : WasmModuleArtifact where
  moduleId := 7
  contentHash := ""
  wasmBytes := [0]
  ociUrl := none
  maxFuel := 0
  capabilityWorld := "minimal"
  allowedHosts := []
  allowedMethods := []
  allowedSecrets := ["stripe/key"]
  requiresApprovalFor := []
  integrationName := none
  config := none

def grantedEngine : ParallelWorkflowEngine (bareHost true) :=
  { ParallelWorkflowEngine.new with
    graph := Multigraph.empty.addNode 1
    nodeMeta := nodeTable [(1, moduleNode)] }

/-- The granted secret is prepared for the node on its own, and for neither a step nor a body. -/
theorem declared_grant_missing :
    ¬ grantedEngine.AgreeOnSecrets 1 grantedArtifact ∧
      ((grantedEngine.singleArguments 1 grantedArtifact).secrets
        (probingResolver none ["stripe/key"]) none .tier2).lookup "key" = some "value" ∧
      ((chainArguments 1 grantedArtifact).secrets
        (probingResolver none ["stripe/key"]) none .tier2).lookup "key" = none ∧
      ((grantedEngine.loopArguments 7).secrets
        (probingResolver none ["stripe/key"]) none .tier2).lookup "key" = none := by
  have hSingle : ((grantedEngine.singleArguments 1 grantedArtifact).secrets
      (probingResolver none ["stripe/key"]) none .tier2).lookup "key" = some "value" := by decide
  have hChain : ((chainArguments 1 grantedArtifact).secrets
      (probingResolver none ["stripe/key"]) none .tier2).lookup "key" = none := by decide
  have hLoop : ((grantedEngine.loopArguments 7).secrets
      (probingResolver none ["stripe/key"]) none .tier2).lookup "key" = none := by decide
  refine ⟨fun hAgree => ?_, hSingle, hChain, hLoop⟩
  have hSame := (hAgree (probingResolver none ["stripe/key"]) "key").1
  change ((grantedEngine.singleArguments 1 grantedArtifact).secrets
    (probingResolver none ["stripe/key"]) none .tier2).lookup "key" = _ at hSame
  rw [hSingle] at hSame
  exact absurd (hSame.trans hChain) (by decide)

end Samples

end TalosWorkflow
