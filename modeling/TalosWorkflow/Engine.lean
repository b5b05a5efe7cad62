import TalosWorkflow.Core
import TalosWorkflow.Library.Multigraph

/-!
# The workflow engine

The engine's own data and the adapters it consults. An adapter that is only
handed on is a type of the host.
-/

namespace TalosWorkflow

structure ExpressionEvaluator where
  evalBool : String → Json → Bool

structure ExecutionSanitizer where
  redactError : String → String
  redactOutput : Json → Json

structure OutputSanitizer where
  redactStr : String → String
  redactJson : Json → Json
  newExecution : List Json → ExecutionSanitizer

structure WasmModuleArtifact where
  moduleId : Uuid
  contentHash : String
  wasmBytes : List UInt8
  ociUrl : Option String
  maxFuel : UInt64
  capabilityWorld : String
  allowedHosts : List String
  allowedMethods : List String
  allowedSecrets : List String
  requiresApprovalFor : List String
  integrationName : Option String
  config : Option Json
  deriving DecidableEq

structure ModuleFetcher where
  fetch : Uuid → Uuid → Except String WasmModuleArtifact

/-- `unrecognized` stands for the variants that a later version may add. -/
inductive ApprovalStatus where
  | approved
  | pending
  | denied (reason : String)
  | unrecognized
  deriving DecidableEq

structure ApprovalGate where
  checkOrRequest : Uuid → Uuid → List String → Option String → Except String ApprovalStatus

/-- A `HashMap<String, String>` of resolved secrets. -/
abbrev Secrets := AList fun _ : String => String

structure SecretsResolver where
  resolveModuleSecrets : Uuid → Except String Secrets
  resolveByPaths : List String → Option Uuid → Except String Secrets
  resolveLlmKeys : Option Uuid → Except String Secrets

structure SecretEnvelope where
  sealSecrets : Secrets → List UInt8 → Except String (List UInt8 × List UInt8)

/-- What surrounds the engine: the adapters it never looks into, the process
defaults, and whether the build checks integer overflow. -/
structure Host where
  EventSink : Type
  NodeLifecycleHook : Type
  WorkflowGraphStore : Type
  SubworkflowActorContextResolver : Type
  RetryClassifier : Type
  ModuleExecutionStore : Type
  RateLimitStore : Type
  CancellationToken : Type
  aesGcmSecretEnvelope : SecretEnvelope
  defaultSandboxRoot : String
  overflowChecks : Bool

abbrev NodeIndex := Nat

structure ParallelWorkflowEngine (H : Host) where
  graph : Multigraph Uuid EdgeLogic
  nodeMap : Table NodeIndex
  nodeLabels : Table String
  nodeConfigs : Table Json
  nodeMeta : Table NodeMeta
  nodeTimeouts : Table UInt64
  rateLimits : Table Int
  moduleFetcher : Option ModuleFetcher
  eventSink : Option H.EventSink
  nodeHook : Option H.NodeLifecycleHook
  graphStore : Option H.WorkflowGraphStore
  subActorContextResolver : Option H.SubworkflowActorContextResolver
  secretsResolver : Option SecretsResolver
  expressionEvaluator : Option ExpressionEvaluator
  outputSanitizer : Option OutputSanitizer
  retryClassifier : Option H.RetryClassifier
  moduleExecutionStore : Option H.ModuleExecutionStore
  approvalGate : Option ApprovalGate
  secretEnvelope : SecretEnvelope
  userId : Option Uuid
  actorId : Option Uuid
  actorContext : Option Json
  dryRun : Bool
  maxLlmTier : LlmTier
  sandboxRoot : Option String
  agentLoopMaxHistory : UInt64
  maxPrefetchSuccessors : UInt64
  maxWorkflowNodes : UInt64
  maxNodeOutputBytes : UInt64
  maxFuelPerNode : UInt64
  rateLimitStore : Option H.RateLimitStore
  cancellationToken : Option H.CancellationToken
  maxSubflowDepth : UInt64
  currentSubflowDepth : UInt64

namespace ParallelWorkflowEngine

variable {H : Host}

def new : ParallelWorkflowEngine H where
  graph := .empty
  nodeMap := ∅
  nodeLabels := ∅
  nodeConfigs := ∅
  nodeMeta := ∅
  nodeTimeouts := ∅
  rateLimits := ∅
  moduleFetcher := none
  eventSink := none
  nodeHook := none
  graphStore := none
  subActorContextResolver := none
  secretsResolver := none
  expressionEvaluator := none
  outputSanitizer := none
  retryClassifier := none
  moduleExecutionStore := none
  approvalGate := none
  secretEnvelope := H.aesGcmSecretEnvelope
  userId := none
  actorId := none
  actorContext := none
  dryRun := false
  maxLlmTier := .tier2
  sandboxRoot := some H.defaultSandboxRoot
  agentLoopMaxHistory := 20
  maxPrefetchSuccessors := 8
  maxWorkflowNodes := 500
  maxNodeOutputBytes := 5 * 1024 * 1024
  maxFuelPerNode := 50000000
  rateLimitStore := none
  cancellationToken := none
  maxSubflowDepth := 16
  currentSubflowDepth := 0

variable (E : ParallelWorkflowEngine H)

/-- A node beyond the limit is ignored. -/
def addNode (id : Uuid) (info : NodeMeta) : ParallelWorkflowEngine H :=
  if E.maxWorkflowNodes.toNat ≤ E.graph.nodes.length then E
  else
    { E with
      graph := E.graph.addNode id
      nodeMap := E.nodeMap.insert id E.graph.nodes.length
      nodeMeta := E.nodeMeta.insert id info }

def nodeId (idx : NodeIndex) : Uuid := (E.graph.nodes[idx]?).getD 0

def kindOf (id : Uuid) : Option SystemNodeKind := (E.nodeMeta.lookup id).bind (·.kind)

def resolveModuleId (id : Uuid) : Uuid := ((E.nodeMeta.lookup id).bind (·.moduleId)).getD id

/-- A node that a pipeline may run. -/
def isModuleBacked (idx : NodeIndex) : Bool :=
  match E.nodeMeta.lookup (E.nodeId idx) with
  | some info => info.moduleId.isSome && info.kind.isNone
  | none => false

def nodeFlag (id : Uuid) (key : String) : Bool :=
  (((E.nodeConfigs.lookup id).bind (·.get key)).bind Json.asBool).getD false

def continueOnError (id : Uuid) : Bool := E.nodeFlag id "__continue_on_error"

def labelOrId (id : Uuid) : String := (E.nodeLabels.lookup id).getD id.text

def evalBool (expression : String) (context : Json) : Bool :=
  match E.expressionEvaluator with
  | some evaluator => evaluator.evalBool expression context
  | none => false

def redactStr (s : String) : String :=
  match E.outputSanitizer with
  | some sanitizer => sanitizer.redactStr s
  | none => s

def redactJson (v : Json) : Json :=
  match E.outputSanitizer with
  | some sanitizer => sanitizer.redactJson v
  | none => v

def newExecutionSanitizer : Option ExecutionSanitizer :=
  E.outputSanitizer.map fun sanitizer =>
    sanitizer.newExecution (E.nodeConfigs.entries.map (·.2))

end ParallelWorkflowEngine

/-- Strips the engine's wrapping envelope from a node output. -/
def unwrapOutput (output : Json) : Json :=
  match output with
  | .object fields =>
      match fields.lookup "input" with
      | some (.object inner) =>
          if inner.all (fun field => (fields.lookup field.1).isSome) && !inner.isEmpty then
            .object inner
          else output
      | some .null =>
          match fields.lookup "config" with
          | some (.object config) =>
              if !config.isEmpty then .object config
              else if fields.length = 2 then .null
              else output
          | some _ => if fields.length = 2 then .null else output
          | none => output
      | _ => output
  | _ => output

namespace ParallelWorkflowEngine

variable {H : Host} (E : ParallelWorkflowEngine H)

def parentOutputs (idx : NodeIndex) (results : Table Json) : List (Uuid × Json) :=
  (E.graph.predecessors idx).filterMap fun p =>
    (results.lookup (E.nodeId p)).map fun output => (E.nodeId p, output)

def gatherParents (parents : List (Uuid × Json)) : Json :=
  match parents.map fun parent => (parent.1, unwrapOutput parent.2) with
  | [] => .object []
  | [(_, output)] => output
  | outputs =>
      .object (outputs.foldl
        (fun fields parent => Json.insertField (E.labelOrId parent.1) parent.2 fields) [])

def gatherInputs (idx : NodeIndex) (results : Table Json) : Json :=
  E.gatherParents (E.parentOutputs idx results)

/-- The node labelled `__trigger__`. -/
def triggerId : Option Uuid :=
  (E.nodeLabels.entries.find? fun entry => entry.2 = "__trigger__").map (·.1)

def triggerOutput (results : Table Json) : Option Json := E.triggerId.bind results.lookup

/-- Overlays the trigger's fields that the gathered input does not have. -/
def overlayTrigger (context : Json) (trigger : Option Json) : Json :=
  match trigger, context with
  | some (.object overlay), .object fields => .object (overlay.foldl Json.orInsertField fields)
  | _, _ => context

def skipCondition (id : Uuid) : Option String :=
  ((E.nodeConfigs.lookup id).bind (·.get "__skip_condition")).bind Json.asStr

def skipEnvelope : Json :=
  .object [("__skipped", .bool true), ("reason", .string "skip_condition")]

def checkSkipCondition (idx : NodeIndex) (results : Table Json) : Option Json :=
  match E.skipCondition (E.nodeId idx) with
  | none => none
  | some condition =>
      let context := overlayTrigger (E.gatherInputs idx results) (E.triggerOutput results)
      if E.evalBool condition context then some skipEnvelope else none

end ParallelWorkflowEngine

end TalosWorkflow
