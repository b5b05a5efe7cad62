import TalosWorkflow.Documents.Kinds

/-!
# Loading graph documents

A document is a list of nodes and a list of edges. Nodes that name no module
and have no system type are left out, as are edges whose ends are unknown.
-/

namespace TalosWorkflow

open Json

variable {H : Host}

section Retries

/-- A top-level field takes precedence over the same field of the data. -/
def retryField (node : Json) (key : String) : Option Json :=
  (node.get key).or ((node.get "data").bind (·.get key))

def readNodeRetryPolicy (node : Json) : Option RetryPolicy :=
  let retryCount := ((retryField node "retry_count").bind asU64).map UInt64.toUInt32
  let retryBackoff := (retryField node "retry_backoff_ms").bind asU64
  let retryCondition := (retryField node "retry_condition").bind asStr
  let retryDelayExpression := (retryField node "retry_delay_expression").bind asStr
  let hasAny := retryCount.isSome || retryBackoff.isSome || retryCondition.isSome ||
    retryDelayExpression.isSome
  if hasAny then
    some
      { maxRetries := retryCount.getD 2
        backoffMs := retryBackoff.getD 500
        retryCondition := retryCondition
        retryDelayExpression := retryDelayExpression }
  else none

/-- Without an actor nobody pays for retries, and at most three are made. -/
def capRetries (actorId : Option Uuid) (policy : RetryPolicy) : RetryPolicy :=
  if actorId.isNone then { policy with maxRetries := min policy.maxRetries 3 } else policy

def readNodeRetryPolicyWithActorCap (node : Json) (actorId : Option Uuid) : Option RetryPolicy :=
  (readNodeRetryPolicy node).map (capRetries actorId)

end Retries

def stripPrefix (front s : String) : Option String :=
  if front.toList.isPrefixOf s.toList then some (String.ofList (s.toList.drop front.length))
  else none

/-- What loading a node puts into the tables of an engine. -/
structure NodeEntry where
  rfId : String
  id : Uuid
  info : NodeMeta
  data : Option Json
  skipCondition : Option String
  continueOnError : Bool
  timeoutSecs : Option UInt64

namespace NodeEntry

variable (entry : NodeEntry)

/-- `entry(id).or_insert({})`, and a field of it. -/
def reserve (configs : Table Json) (id : Uuid) (key : String) (value : Json) : Table Json :=
  configs.insert id <|
    match (configs.lookup id).getD (.object []) with
    | .object fields => .object (insertField key value fields)
    | other => other

/-- Data that is an object with fields becomes the configuration. -/
def storeData (configs : Table Json) : Table Json :=
  match entry.data with
  | some (.object (field :: rest)) => configs.insert entry.id (.object (field :: rest))
  | _ => configs

def storeSkipCondition (configs : Table Json) : Table Json :=
  match entry.skipCondition with
  | some condition => reserve configs entry.id "__skip_condition" (.string condition)
  | none => configs

def storeContinueOnError (configs : Table Json) : Table Json :=
  if entry.continueOnError then reserve configs entry.id "__continue_on_error" (.bool true)
  else configs

def configure (configs : Table Json) : Table Json :=
  entry.storeContinueOnError (entry.storeSkipCondition (entry.storeData configs))

/-- The label and the configuration are stored even if the node limit has been reached. -/
def install (E : ParallelWorkflowEngine H) : ParallelWorkflowEngine H :=
  let labelled :=
    { E with
      nodeLabels := E.nodeLabels.insert entry.id entry.rfId
      nodeConfigs := entry.configure E.nodeConfigs }
  let added := labelled.addNode entry.id entry.info
  match entry.timeoutSecs with
  | some t => { added with nodeTimeouts := added.nodeTimeouts.insert entry.id t }
  | none => added

end NodeEntry

namespace GraphFormat

variable (F : GraphFormat)

/-- An id that is no UUID is hashed to one. -/
def nodeIdFor (rfId : String) : Uuid := (F.parseUuid rfId).getD (F.digest rfId)

def rfId (node : Json) : String := (node.strField "id").getD ""

/-- The type if it is a UUID, else `data.moduleId`. -/
def moduleIdStr (node : Json) : Option String :=
  ((node.strField "type").filter fun s => (F.parseUuid s).isSome).or
    ((node.get "data").bind (·.strField "moduleId"))

def isSystemType (node : Json) : Bool :=
  match node.strField "type" with
  | some type => (stripPrefix "system:" type).isSome
  | none => false

def configField {α : Type} (read : Json → String → Option α) (node : Json) (key : String) :
    Option α :=
  (node.get "config").bind fun config => read config key

def moduleEntry (actorId : Option Uuid) (node : Json) (moduleId : Uuid) : NodeEntry where
  rfId := rfId node
  id := F.nodeIdFor (rfId node)
  info :=
    { moduleId := some moduleId
      retryPolicy := readNodeRetryPolicyWithActorCap node actorId
      kind := (node.strField "kind").bind fun k => F.parseSystemNodeKind k node }
  data := node.get "data"
  skipCondition :=
    ((node.get "data").bind (·.strField "skip_condition")).or <|
      (node.strField "skip_condition").or (configField strField node "skip_condition")
  continueOnError :=
    match node.get "data" with
    | some data =>
        (data.boolField "continue_on_error").getD false ||
          (node.boolField "continue_on_error").getD false
    | none =>
        ((node.boolField "continue_on_error").or
          (configField boolField node "continue_on_error")).getD false
  timeoutSecs := (((node.get "data").bind (·.get "timeout_secs")).or
    (node.get "timeout_secs")).bind asU64

/-- The kind is the `kind` field, or else what follows the prefix of the type. A system node has
no retry policy and no timeout, and its settings are read only if it has data. -/
def systemEntry (node : Json) : NodeEntry where
  rfId := rfId node
  id := F.nodeIdFor (rfId node)
  info :=
    { moduleId := none
      retryPolicy := none
      kind := ((node.strField "kind").or
        ((node.strField "type").bind (stripPrefix "system:"))).bind
          fun k => F.parseSystemNodeKind k node }
  data := node.get "data"
  skipCondition := (node.get "data").bind fun data =>
    (data.strField "skip_condition").or (node.strField "skip_condition")
  continueOnError :=
    match node.get "data" with
    | some data =>
        (data.boolField "continue_on_error").getD false ||
          (node.boolField "continue_on_error").getD false
    | none => false
  timeoutSecs := none

def readNode (actorId : Option Uuid) (node : Json) : Option NodeEntry :=
  match F.moduleIdStr node with
  | some s => (F.parseUuid s).map fun moduleId => F.moduleEntry actorId node moduleId
  | none => if isSystemType node then some (F.systemEntry node) else none

end GraphFormat

section Edges

/-- Petgraph itself checks the indices, which come from `nodeMap`. -/
def ParallelWorkflowEngine.addEdge (E : ParallelWorkflowEngine H) (source target : Uuid)
    (logic : EdgeLogic) : Except WorkflowEngineError (ParallelWorkflowEngine H) :=
  match E.nodeMap.lookup source, E.nodeMap.lookup target with
  | none, _ => .error (.loadGraph ("Edge source node " ++ source.text ++ " not found"))
  | some _, none => .error (.loadGraph ("Edge target node " ++ target.text ++ " not found"))
  | some a, some b =>
      if h : a < E.graph.nodes.length ∧ b < E.graph.nodes.length then
        .ok { E with graph := E.graph.addEdge a b logic h.1 h.2 }
      else .error (.loadGraph "node indices out of bounds")

def readEdge (edge : Json) : EdgeLogic where
  sourceHandle := (edge.strField "sourceHandle").getD "output"
  targetHandle := (edge.strField "targetHandle").getD "input"
  mapping := none
  condition := edge.strField "condition"
  edgeType := (edge.strField "edge_type").getD "default"

/-- The ids of the document, as the nodes of the engine. -/
abbrev RfIds := AList fun _ : String => Uuid

/-- An edge between nodes that were left out is left out too. -/
def loadEdge (rfToNode : RfIds) (E : ParallelWorkflowEngine H) (edge : Json) :
    ParallelWorkflowEngine H :=
  match rfToNode.lookup ((edge.strField "source").getD ""),
      rfToNode.lookup ((edge.strField "target").getD "") with
  | some source, some target =>
      match E.addEdge source target (readEdge edge) with
      | .ok E' => E'
      | .error _ => E
  | _, _ => E

end Edges

namespace GraphFormat

variable (F : GraphFormat)

def loadNode (loaded : ParallelWorkflowEngine H × RfIds) (node : Json) :
    ParallelWorkflowEngine H × RfIds :=
  match F.readNode loaded.1.actorId node with
  | some entry => (entry.install loaded.1, loaded.2.insert entry.rfId entry.id)
  | none => loaded

def documentNodes (graph : Json) : List Json := ((graph.get "nodes").bind asArray).getD []

def documentEdges (graph : Json) : List Json := ((graph.get "edges").bind asArray).getD []

def parseGraphDocument (E : ParallelWorkflowEngine H) (graph : Json) :
    Except WorkflowEngineError (ParallelWorkflowEngine H) :=
  if documentNodes graph = [] then .error .emptyGraph
  else
    let loaded := (documentNodes graph).foldl F.loadNode (E, ∅)
    .ok ((documentEdges graph).foldl (loadEdge loaded.2) loaded.1)

/-- The reader that nested engines are built with. -/
def graphReader : GraphReader := fun maxWorkflowNodes actorId graph =>
  (F.parseGraphDocument
    { (.new : ParallelWorkflowEngine (bareHost true)) with
      maxWorkflowNodes := maxWorkflowNodes
      actorId := actorId } graph).map fun E =>
    { graph := E.graph
      nodeMap := E.nodeMap
      nodeLabels := E.nodeLabels
      nodeConfigs := E.nodeConfigs
      nodeMeta := E.nodeMeta
      nodeTimeouts := E.nodeTimeouts
      rateLimits := E.rateLimits }

end GraphFormat

section Frames

variable {α : Type} {field : ParallelWorkflowEngine H → α} {E E' : ParallelWorkflowEngine H}

theorem ParallelWorkflowEngine.addNode_frame
    (hField : ∀ (E : ParallelWorkflowEngine H) g m i,
      field { E with graph := g, nodeMap := m, nodeMeta := i } = field E)
    (E : ParallelWorkflowEngine H) (id : Uuid) (info : NodeMeta) :
    field (E.addNode id info) = field E := by
  unfold addNode
  split
  · rfl
  · exact hField E _ _ _

theorem loadEdge_frame
    (hField : ∀ (E : ParallelWorkflowEngine H) g, field { E with graph := g } = field E)
    (rfToNode : RfIds) (E : ParallelWorkflowEngine H) (edge : Json) :
    field (loadEdge rfToNode E edge) = field E := by
  unfold loadEdge
  split
  · split
    · rename_i added hAdded
      unfold ParallelWorkflowEngine.addEdge at hAdded
      split at hAdded
      · cases hAdded
      · cases hAdded
      · split at hAdded
        · cases hAdded
          exact hField E _
        · cases hAdded
    · rfl
  · rfl

theorem loadEdges_frame
    (hField : ∀ (E : ParallelWorkflowEngine H) g, field { E with graph := g } = field E)
    (rfToNode : RfIds) (E : ParallelWorkflowEngine H) (edges : List Json) :
    field (edges.foldl (loadEdge rfToNode) E) = field E :=
  List.foldlRecOn (motive := fun loaded : ParallelWorkflowEngine H => field loaded = field E) _ _
    rfl fun loaded hLoaded edge _ => (loadEdge_frame hField rfToNode loaded edge).trans hLoaded

/-- Installing a node stores its label and its configuration in any case. -/
theorem NodeEntry.install_frame
    (hField : ∀ (E : ParallelWorkflowEngine H) g m i timeouts,
      field { E with graph := g, nodeMap := m, nodeMeta := i, nodeTimeouts := timeouts } = field E)
    (entry : NodeEntry) (E : ParallelWorkflowEngine H) :
    field (entry.install E) =
      field { E with
        nodeLabels := E.nodeLabels.insert entry.id entry.rfId
        nodeConfigs := entry.configure E.nodeConfigs } := by
  have hAdded : ∀ labelled : ParallelWorkflowEngine H,
      field (labelled.addNode entry.id entry.info) = field labelled := fun labelled =>
    ParallelWorkflowEngine.addNode_frame (fun E g m i => hField E g m i _) labelled _ _
  unfold install
  split
  · exact (hField _ _ _ _ _).trans (hAdded _)
  · exact hAdded _

theorem GraphFormat.parseGraphDocument_frame
    (hField : ∀ (E : ParallelWorkflowEngine H) g, field { E with graph := g } = field E)
    {F : GraphFormat} {graph : Json} (hLoad : F.parseGraphDocument E graph = .ok E') :
    field E' = field ((documentNodes graph).foldl F.loadNode (E, ∅)).1 := by
  unfold parseGraphDocument at hLoad
  split at hLoad
  · cases hLoad
  · cases hLoad
    exact loadEdges_frame hField _ _ _

def Untouched (field : ParallelWorkflowEngine H → α) : Prop :=
  ∀ (E : ParallelWorkflowEngine H) g m i labels configs timeouts,
    field { E with
      graph := g, nodeMap := m, nodeMeta := i
      nodeLabels := labels, nodeConfigs := configs, nodeTimeouts := timeouts } = field E

theorem Untouched.install (h : Untouched field) (entry : NodeEntry)
    (E : ParallelWorkflowEngine H) : field (entry.install E) = field E :=
  (entry.install_frame (fun E g m i timeouts => h E g m i _ _ timeouts) E).trans
    (h E _ _ _ _ _ _)

theorem Untouched.loadNode (h : Untouched field) (F : GraphFormat)
    (loaded : ParallelWorkflowEngine H × RfIds) (node : Json) :
    field (F.loadNode loaded node).1 = field loaded.1 := by
  unfold GraphFormat.loadNode
  split
  · exact h.install _ _
  · rfl

theorem Untouched.loadNodes (h : Untouched field) (F : GraphFormat) (nodes : List Json)
    (loaded : ParallelWorkflowEngine H × RfIds) :
    field (nodes.foldl F.loadNode loaded).1 = field loaded.1 := by
  induction nodes generalizing loaded with
  | nil => rfl
  | cons node rest ih => exact (ih _).trans (h.loadNode F loaded node)

theorem Untouched.parseGraphDocument (h : Untouched field) {F : GraphFormat} {graph : Json}
    (hLoad : F.parseGraphDocument E graph = .ok E') : field E' = field E :=
  (GraphFormat.parseGraphDocument_frame (fun E g => h E g _ _ _ _ _) hLoad).trans
    (h.loadNodes F _ _)

theorem untouched_actorId : Untouched fun E : ParallelWorkflowEngine H => E.actorId :=
  fun _ _ _ _ _ _ _ => rfl

end Frames

end TalosWorkflow
