import TalosWorkflow.Jobs

/-!
# Adapter sets

What an engine hands to the engines it builds for sub-workflows.
-/

namespace TalosWorkflow

structure AdapterSet (H : Host) where
  moduleFetcher : Option ModuleFetcher
  eventSink : Option H.EventSink
  nodeHook : Option H.NodeLifecycleHook
  graphStore : Option H.WorkflowGraphStore
  subActorContextResolver : Option H.SubworkflowActorContextResolver
  secretsResolver : Option SecretsResolver
  expressionEvaluator : Option ExpressionEvaluator
  outputSanitizer : Option OutputSanitizer
  retryClassifier : Option H.RetryClassifier
  moduleExecutionStore : Option H.ModuleExecutionStore
  approvalGate : Option ApprovalGate
  secretEnvelope : SecretEnvelope
  userId : Option Uuid
  actorId : Option Uuid
  dryRun : Bool
  maxLlmTier : LlmTier
  sandboxRoot : Option String
  agentLoopMaxHistory : UInt64
  maxPrefetchSuccessors : UInt64
  maxWorkflowNodes : UInt64
  maxNodeOutputBytes : UInt64
  maxFuelPerNode : UInt64
  rateLimitStore : Option H.RateLimitStore
  cancellationToken : Option H.CancellationToken
  maxSubflowDepth : UInt64
  currentSubflowDepth : UInt64

inductive WorkflowEngineError where
  | emptyGraph
  | loadGraph (message : String)
  | subflowRecursionLimit (depth limit : UInt64)
  | invalidGraph (message : String)

structure GraphDocument where
  graph : Multigraph Uuid EdgeLogic
  nodeMap : Table NodeIndex
  nodeLabels : Table String
  nodeConfigs : Table Json
  nodeMeta : Table NodeMeta
  nodeTimeouts : Table UInt64
  rateLimits : Table Int

namespace ParallelWorkflowEngine

variable {H : Host} (E : ParallelWorkflowEngine H)

def adapterSet : AdapterSet H where
  moduleFetcher := E.moduleFetcher
  eventSink := E.eventSink
  nodeHook := E.nodeHook
  graphStore := E.graphStore
  subActorContextResolver := E.subActorContextResolver
  secretsResolver := E.secretsResolver
  expressionEvaluator := E.expressionEvaluator
  outputSanitizer := E.outputSanitizer
  retryClassifier := E.retryClassifier
  moduleExecutionStore := E.moduleExecutionStore
  approvalGate := E.approvalGate
  secretEnvelope := E.secretEnvelope
  userId := E.userId
  actorId := E.actorId
  dryRun := E.dryRun
  maxLlmTier := E.maxLlmTier
  sandboxRoot := E.sandboxRoot
  agentLoopMaxHistory := E.agentLoopMaxHistory
  maxPrefetchSuccessors := E.maxPrefetchSuccessors
  maxWorkflowNodes := E.maxWorkflowNodes
  maxNodeOutputBytes := E.maxNodeOutputBytes
  maxFuelPerNode := E.maxFuelPerNode
  rateLimitStore := E.rateLimitStore
  cancellationToken := E.cancellationToken
  maxSubflowDepth := E.maxSubflowDepth
  currentSubflowDepth := E.currentSubflowDepth

def withDocument (document : GraphDocument) : ParallelWorkflowEngine H :=
  { E with
    graph := document.graph
    nodeMap := document.nodeMap
    nodeLabels := document.nodeLabels
    nodeConfigs := document.nodeConfigs
    nodeMeta := document.nodeMeta
    nodeTimeouts := document.nodeTimeouts
    rateLimits := document.rateLimits }

end ParallelWorkflowEngine

/-- The reader of graph documents; it sees the node limit and the actor of the engine. -/
abbrev GraphReader := UInt64 → Option Uuid → Json → Except WorkflowEngineError GraphDocument

namespace AdapterSet

variable {H : Host} (set : AdapterSet H)

/-- `engine.max_llm_tier` is not assigned, so it stays as `new` leaves it. -/
def intoEngine : ParallelWorkflowEngine H :=
  { (ParallelWorkflowEngine.new : ParallelWorkflowEngine H) with
    moduleFetcher := set.moduleFetcher
    eventSink := set.eventSink
    nodeHook := set.nodeHook
    graphStore := set.graphStore
    subActorContextResolver := set.subActorContextResolver
    secretsResolver := set.secretsResolver
    expressionEvaluator := set.expressionEvaluator
    outputSanitizer := set.outputSanitizer
    retryClassifier := set.retryClassifier
    moduleExecutionStore := set.moduleExecutionStore
    approvalGate := set.approvalGate
    secretEnvelope := set.secretEnvelope
    userId := set.userId
    actorId := set.actorId
    dryRun := set.dryRun
    sandboxRoot := set.sandboxRoot
    agentLoopMaxHistory := set.agentLoopMaxHistory
    maxPrefetchSuccessors := set.maxPrefetchSuccessors
    maxWorkflowNodes := set.maxWorkflowNodes
    maxNodeOutputBytes := set.maxNodeOutputBytes
    maxFuelPerNode := set.maxFuelPerNode
    rateLimitStore := set.rateLimitStore
    cancellationToken := set.cancellationToken
    maxSubflowDepth := set.maxSubflowDepth
    currentSubflowDepth := saturatingAdd set.currentSubflowDepth 1 }

def intoEngineWithGraph (read : GraphReader) (graphJson : Json) :
    Except WorkflowEngineError (ParallelWorkflowEngine H) :=
  let nextDepth := saturatingAdd set.currentSubflowDepth 1
  if set.maxSubflowDepth < nextDepth then
    .error (.subflowRecursionLimit nextDepth set.maxSubflowDepth)
  else
    let engine := set.intoEngine
    (read engine.maxWorkflowNodes engine.actorId graphJson).map engine.withDocument

end AdapterSet

end TalosWorkflow
