import TalosWorkflow.Documents.Loader

/-!
# The graph builder

Calls that add nodes, settings and edges to a document. A setting for a node
that has not been added is recorded as an error.
-/

namespace TalosWorkflow

open Json

inductive WorkflowGraphBuilderError where
  | unknownNodeId (id method : String)
  deriving DecidableEq

structure WorkflowGraphBuilder where
  nodes : List Json := []
  edges : List Json := []
  executionTimeoutSecs : Option UInt64 := none
  errors : List WorkflowGraphBuilderError := []

namespace WorkflowGraphBuilder

variable (F : GraphFormat) (builder : WorkflowGraphBuilder)

def executionTimeout (secs : UInt64) : WorkflowGraphBuilder :=
  { builder with executionTimeoutSecs := some secs }

def addModule (id : String) (moduleId : Uuid) (config : Option Json) : WorkflowGraphBuilder :=
  { builder with
    nodes := builder.nodes ++ [.object (insertOptional "data" config
      [("id", .string id), ("type", .string moduleId.text)])] }

def addSystemNode (id : String) (kind : SystemNodeKind) : WorkflowGraphBuilder :=
  let (kindStr, data) := F.serializeSystemNodeKind kind
  { builder with
    nodes := builder.nodes ++ [.object [("data", data), ("id", .string id),
      ("kind", .string kindStr), ("type", .string ("system:" ++ kindStr))]] }

/-- Changes the first node of this id, if it is an object. -/
def modifyNode (id : String) (change : List (String × Json) → List (String × Json)) :
    List Json → Option (List Json)
  | [] => none
  | node :: rest =>
      if node.strField "id" = some id then
        node.asObject.map fun fields => .object (change fields) :: rest
      else (modifyNode id change rest).map fun rest => node :: rest

def modify (id method : String) (change : List (String × Json) → List (String × Json)) :
    WorkflowGraphBuilder :=
  match modifyNode id change builder.nodes with
  | some nodes => { builder with nodes := nodes }
  | none => { builder with errors := builder.errors ++ [.unknownNodeId id method] }

def withSkipCondition (id condition : String) : WorkflowGraphBuilder :=
  builder.modify id "with_skip_condition" (insertField "skip_condition" (.string condition))

def withContinueOnError (id : String) : WorkflowGraphBuilder :=
  builder.modify id "with_continue_on_error" (insertField "continue_on_error" (.bool true))

/-- An earlier condition or delay stays if the call gives none. -/
def withRetry (id : String) (maxRetries : UInt32) (backoffMs : UInt64)
    (condition delayExpression : Option String) : WorkflowGraphBuilder :=
  builder.modify id "with_retry" fun fields =>
    insertOptional "retry_delay_expression" (delayExpression.map .string) <|
      insertOptional "retry_condition" (condition.map .string) <|
        insertField "retry_backoff_ms" (.ofU64 backoffMs) <|
          insertField "retry_count" (.ofU64 maxRetries.toUInt64) fields

def edgeWithHandles (source target sourceHandle targetHandle : String) : WorkflowGraphBuilder :=
  { builder with
    edges := builder.edges ++ [.object [("source", .string source),
      ("sourceHandle", .string sourceHandle), ("target", .string target),
      ("targetHandle", .string targetHandle)]] }

def edge (source target : String) : WorkflowGraphBuilder :=
  builder.edgeWithHandles source target "output" "input"

def edgeCondition (source target condition : String) : WorkflowGraphBuilder :=
  let added := builder.edge source target
  match added.edges.getLast? with
  | some (.object fields) =>
      { added with
        edges := added.edges.dropLast ++
          [.object (insertField "condition" (.string condition) fields)] }
  | _ => added

def assembleRoot : Json :=
  .object (insertOptional "execution_timeout_secs" (builder.executionTimeoutSecs.map .ofU64)
    [("edges", .array builder.edges), ("nodes", .array builder.nodes)])

def build : Except (List WorkflowGraphBuilderError) Json :=
  if builder.errors = [] then .ok builder.assembleRoot else .error builder.errors

end WorkflowGraphBuilder

inductive BuilderCall where
  | addModule (id : String) (moduleId : Uuid) (config : Option Json)
  | addSystemNode (id : String) (kind : SystemNodeKind)
  | withSkipCondition (id condition : String)
  | withContinueOnError (id : String)
  | withRetry (id : String) (maxRetries : UInt32) (backoffMs : UInt64)
      (condition delayExpression : Option String)
  | edge (source target : String)
  | edgeCondition (source target condition : String)
  | edgeWithHandles (source target sourceHandle targetHandle : String)

def BuilderCall.apply (F : GraphFormat) (builder : WorkflowGraphBuilder) :
    BuilderCall → WorkflowGraphBuilder
  | .addModule id moduleId config => builder.addModule id moduleId config
  | .addSystemNode id kind => builder.addSystemNode F id kind
  | .withSkipCondition id condition => builder.withSkipCondition id condition
  | .withContinueOnError id => builder.withContinueOnError id
  | .withRetry id maxRetries backoffMs condition delayExpression =>
      builder.withRetry id maxRetries backoffMs condition delayExpression
  | .edge source target => builder.edge source target
  | .edgeCondition source target condition => builder.edgeCondition source target condition
  | .edgeWithHandles source target sourceHandle targetHandle =>
      builder.edgeWithHandles source target sourceHandle targetHandle

def runBuilder (F : GraphFormat) (calls : List BuilderCall) : WorkflowGraphBuilder :=
  calls.foldl (BuilderCall.apply F) {}

section Requests

inductive Addition where
  | module (id : String) (moduleId : Uuid) (config : Option Json)
  | system (id : String) (kind : SystemNodeKind)

def Addition.id : Addition → String
  | .module id _ _ | .system id _ => id

def Addition.moduleId : Addition → Option Uuid
  | .module _ moduleId _ => some moduleId
  | .system _ _ => none

def Addition.kind : Addition → Option SystemNodeKind
  | .module _ _ _ => none
  | .system _ kind => some kind

def BuilderCall.addition : BuilderCall → Option Addition
  | .addModule id moduleId config => some (.module id moduleId config)
  | .addSystemNode id kind => some (.system id kind)
  | _ => none

def additions (calls : List BuilderCall) : List Addition := calls.filterMap BuilderCall.addition

def BuilderCall.skipFor (id : String) : BuilderCall → Option String
  | .withSkipCondition id' condition => if id' = id then some condition else none
  | _ => none

def BuilderCall.continueFor (id : String) : BuilderCall → Option Unit
  | .withContinueOnError id' => if id' = id then some () else none
  | _ => none

def BuilderCall.retryFor (id : String) : BuilderCall → Option RetryPolicy
  | .withRetry id' maxRetries backoffMs condition delayExpression =>
      if id' = id then some ⟨maxRetries, backoffMs, condition, delayExpression⟩ else none
  | _ => none

/-- Of several calls for one node the last one counts. -/
def lastGiven {α : Type} (read : BuilderCall → Option α) (calls : List BuilderCall) : Option α :=
  (calls.filterMap read).getLast?

def BuilderCall.edgeGiven : BuilderCall → Option (String × String × EdgeLogic)
  | .edge source target => some (source, target, {})
  | .edgeCondition source target condition => some (source, target, { condition := condition })
  | .edgeWithHandles source target sourceHandle targetHandle =>
      some (source, target, { sourceHandle := sourceHandle, targetHandle := targetHandle })
  | _ => none

def edgesGiven (calls : List BuilderCall) : List (String × String × EdgeLogic) :=
  calls.filterMap BuilderCall.edgeGiven

end Requests

end TalosWorkflow
