import TalosWorkflow.Exits.Context
import TalosWorkflow.Policy.Inheritance

/-!
# Nested runs

The handlers that run another stored workflow and fold what it returns into
one output. The outcome of each nested run is supplied.
-/

namespace TalosWorkflow

open Multigraph

variable {H : Host}

inductive SubflowError where
  | noRegistry
  | noUserId
  | noSecretsResolver
  | graphNotFound (id : Uuid)
  | buildFailed (e : String)
  | executionFailed (e : String)
  deriving DecidableEq

def errorEnvelope (message : String) : Json :=
  .object [("__error", .bool true), ("error_message", .string message)]

def SubflowError.intoErrorEnvelope (context : String) : SubflowError → Json
  | .noRegistry => errorEnvelope ("Registry not available for " ++ context ++ " node")
  | .noUserId => errorEnvelope "user_id required for sub-workflow execution"
  | .noSecretsResolver =>
      errorEnvelope ("secrets resolver unavailable for " ++ context ++ " execution")
  | .graphNotFound id => errorEnvelope (context ++ " workflow " ++ id.text ++ " not found")
  | .buildFailed e => errorEnvelope ("Failed to build " ++ context ++ " workflow engine: " ++ e)
  | .executionFailed e => errorEnvelope (context ++ " workflow execution failed: " ++ e)

/-- An engine below another one, and the context that a run of it has returned. -/
structure NestedRun (H : Host) where
  engine : ParallelWorkflowEngine H
  context : WorkflowContext
  returned : ∃ executionId initialResults s last t,
    engine.Returns executionId initialResults s last t (.ok context)

inductive RunFailure where
  | build (e : String)
  | execution (e : String)
  deriving DecidableEq

abbrev Outcome (H : Host) := Except RunFailure (NestedRun H)

/-- What surrounds a handler: the stored workflows, how the names in a node lead to them, and the
outcome of each nested run by its number, graph and trigger input. -/
structure Nesting (H : Host) where
  getSubWorkflowGraph : Uuid → Uuid → Option Json
  evaluateDispatchExpression : String → Json → Except String String
  resolveTarget : String → Option Uuid
  resolveByCapabilities : List String → Option (Uuid × String)
  debugStrings : List String → String
  /-- The number of body runs after which an agent loop times out. -/
  deadline : Option Nat
  runGraph : Nat → Json → Json → Outcome H

/-- What a handler reports, and the contexts of the nested runs that it was computed from. -/
structure Handled (H : Host) (α : Type) where
  report : α
  runs : List (NestedRun H)

def returnedRuns {ε : Type} (outcome : Except ε (NestedRun H)) : List (NestedRun H) :=
  outcome.toOption.toList

def Handled.map {α β : Type} (f : α → β) (handled : Handled H α) : Handled H β :=
  ⟨f handled.report, handled.runs⟩

def isReserved (key : String) : Bool := "__".toList.isPrefixOf key.toList

def stripReserved : Json → Json
  | .object fields => .object (fields.filter fun field => !isReserved field.1)
  | value => value

def objectFields (value : Json) : List (String × Json) := value.asObject.getD []

def insertFields (fields added : List (String × Json)) : List (String × Json) :=
  added.foldl (fun fields field => Json.insertField field.1 field.2 fields) fields

def Json.ofCount (n : Nat) : Json := .number (.posInt (.ofNat n))

def isSkippedOutput (output : Json) : Bool :=
  ((output.get "__skipped").bind Json.asBool).getD false

namespace ParallelWorkflowEngine

variable (E : ParallelWorkflowEngine H) (N : Nesting H)

section Collapse

/-- The outputs that are neither skipped nor the trigger's, by label and in iteration order. -/
def namedOutputs (results : Table Json) : List (Uuid × String × Json) :=
  results.entries.filterMap fun entry =>
    if isSkippedOutput entry.2 || E.labelOrId entry.1 = "__trigger__" then none
    else some (entry.1, E.labelOrId entry.1, unwrapOutput entry.2)

/-- The index of the last node with this id. -/
def indexOf (id : Uuid) : Option NodeIndex :=
  E.graph.nodeIndices.reverse.find? fun idx => E.nodeId idx = id

def isTerminal (id : Uuid) : Bool :=
  match E.indexOf id with
  | some idx => (E.graph.successors idx).isEmpty
  | none => false

def collapseSubworkflowOutput (results : Table Json) : Json :=
  let (terminals, nonTerminals) := (E.namedOutputs results).partition fun e => E.isTerminal e.1
  match terminals with
  | [(_, _, output)] => output
  | _ => .object (insertFields [] ((nonTerminals ++ terminals).map (·.2)))

end Collapse

end ParallelWorkflowEngine

def NestedRun.collapsed (run : NestedRun H) : Json :=
  run.engine.collapseSubworkflowOutput run.context.results

def NestedRun.labelled (run : NestedRun H) : List (String × Json) :=
  (run.engine.namedOutputs run.context.results).map (·.2)

namespace ParallelWorkflowEngine

variable (E : ParallelWorkflowEngine H) (N : Nesting H)

section Execution

def executeSubworkflowGraph (call : Nat) (subWfId : Uuid) (triggerInput : Json) :
    Except SubflowError (NestedRun H) :=
  if E.moduleFetcher.isNone then .error .noRegistry
  else
    match E.userId with
    | none => .error .noUserId
    | some userId =>
        if E.secretsResolver.isNone then .error .noSecretsResolver
        else
          match N.getSubWorkflowGraph subWfId userId with
          | none => .error (.graphNotFound subWfId)
          | some graphJson =>
              match N.runGraph call graphJson triggerInput with
              | .ok run => .ok run
              | .error (.build e) => .error (.buildFailed e)
              | .error (.execution e) => .error (.executionFailed e)

def dispatchSubworkflow (inputs : Json) (subWfId : Uuid) : Handled H Json :=
  let outcome := E.executeSubworkflowGraph N 0 subWfId (stripReserved inputs)
  { report :=
      match outcome with
      | .ok run => run.collapsed
      | .error e => e.intoErrorEnvelope "Sub-workflow"
    runs := returnedRuns outcome }

/-- The outer trigger, when the run is itself nested. -/
def extractTriggerInput (results : Table Json) : Option Json :=
  (E.triggerOutput results).map fun blob => (blob.get "__trigger_input__").getD blob

def childTrigger (inputs : Json) : Option Json → Json
  | some trigger =>
      match inputs with
      | .object fields => .object (Json.insertField "__trigger_input__" trigger fields)
      | .null => .object [("__trigger_input__", trigger)]
      | value => .object [("__trigger_input__", trigger), ("input", value)]
  | none => inputs

def tryDispatchSubWorkflow (idx : NodeIndex) (subWfId : Uuid) (results : Table Json) :
    Handled H Json :=
  E.dispatchSubworkflow N
    (childTrigger (E.gatherInputs idx results) (E.extractTriggerInput results)) subWfId

end Execution

end ParallelWorkflowEngine

section Dispatched

inductive DispatchedOrigin where
  | dynamicDispatch (resolvedTarget : String)
  | capabilityDispatch (workflowName : String) (matchedCapabilities : List String)
      (isFallback : Bool)
  deriving DecidableEq

namespace DispatchedOrigin

def notFoundError (subWfId : Uuid) : DispatchedOrigin → Json
  | .dynamicDispatch _ => errorEnvelope ("Dispatched workflow " ++ subWfId.text ++ " not found")
  | .capabilityDispatch .. =>
      errorEnvelope ("Capability-dispatched workflow " ++ subWfId.text ++ " graph not found")

def buildError (e : String) : DispatchedOrigin → Json
  | .dynamicDispatch _ => errorEnvelope ("Failed to build dispatched workflow engine: " ++ e)
  | .capabilityDispatch .. =>
      errorEnvelope ("Failed to build capability-dispatched engine: " ++ e)

def runError (e : String) : DispatchedOrigin → Json
  | .dynamicDispatch _ => errorEnvelope ("Dispatched workflow failed: " ++ e)
  | .capabilityDispatch .. => errorEnvelope ("Capability-dispatched workflow failed: " ++ e)

def prelude (subWfId : Uuid) : DispatchedOrigin → List (String × Json)
  | .dynamicDispatch resolvedTarget =>
      [("__dispatched_workflow_id__", .string subWfId.text),
        ("__dispatched_by", .string "expression_dispatch"),
        ("__dispatch_branch__", .string resolvedTarget)]
  | .capabilityDispatch workflowName matchedCapabilities isFallback =>
      [("__dispatched_workflow_id__", .string subWfId.text),
        ("__dispatched_by", .string "capability_dispatch"),
        ("__dispatched_workflow_name", .string workflowName),
        ("__matched_capabilities", .array (matchedCapabilities.map .string)),
        ("__dispatch_branch__", .string
          (if isFallback then "<fallback>" else matchedCapabilities.head?.getD "<unspecified>"))] ++
      if isFallback then [("__capability_dispatch_fallback", .bool true)] else []

end DispatchedOrigin

end Dispatched

namespace ParallelWorkflowEngine

variable (E : ParallelWorkflowEngine H) (N : Nesting H)

section Dispatch

def runDispatchedSubworkflow (subWfId : Uuid) (inputs : Json) (origin : DispatchedOrigin) :
    Handled H Json :=
  if E.moduleFetcher.isNone then
    ⟨errorEnvelope "Registry not available for dispatch execution", []⟩
  else
    match N.getSubWorkflowGraph subWfId (E.userId.getD 0) with
    | none => ⟨origin.notFoundError subWfId, []⟩
    | some graphJson =>
        match N.runGraph 0 graphJson (stripReserved inputs) with
        | .error (.build e) => ⟨origin.buildError e, []⟩
        | .error (.execution e) => ⟨origin.runError e, []⟩
        | .ok run =>
            ⟨.object (insertFields (insertFields [] (origin.prelude subWfId)) run.labelled),
              [run]⟩

/-- A failed sub-workflow is promoted to an error. -/
def tryDispatchDynamicDispatch (dispatchExpression : String) (inputs : Json) :
    Handled H (Except String Json) :=
  match N.evaluateDispatchExpression dispatchExpression inputs with
  | .error e => ⟨.error e, []⟩
  | .ok target =>
      match N.resolveTarget target with
      | none => ⟨.error ("Could not resolve dispatch target: " ++ target), []⟩
      | some subWfId =>
          let handled := E.runDispatchedSubworkflow N subWfId inputs (.dynamicDispatch target)
          { handled with
            report :=
              if isErrorOutput handled.report then
                .error (errorMessageOr handled.report "DynamicDispatch sub-workflow failed")
              else .ok handled.report }

def tryDispatchCapabilityDispatch (requiredCapabilities : List String)
    (fallbackWorkflowId : Option Uuid) (inputs : Json) : Handled H Json :=
  if E.graphStore.isNone then
    ⟨errorEnvelope "Registry not available for capability dispatch", []⟩
  else
    match N.resolveByCapabilities requiredCapabilities, fallbackWorkflowId with
    | some (subWfId, name), _ =>
        E.runDispatchedSubworkflow N subWfId inputs
          (.capabilityDispatch name requiredCapabilities false)
    | none, some fallback =>
        E.runDispatchedSubworkflow N fallback inputs
          (.capabilityDispatch "<fallback>" requiredCapabilities true)
    | none, none =>
        ⟨errorEnvelope ("No workflow found matching capabilities: " ++
          N.debugStrings requiredCapabilities), []⟩

end Dispatch

section AgentLoop

structure AgentState (H : Host) where
  history : List Json
  lastOutput : Json
  finished : Bool
  iterationsRun : Nat
  runs : List (NestedRun H)

/-- The outputs of a body run without reserved fields; a single one stands for itself. -/
def agentOutput (run : NestedRun H) : Json :=
  match insertFields [] (run.labelled.map fun field => (field.1, stripReserved field.2)) with
  | [(_, output)] => output
  | fields => .object fields

def agentFinished (output : Json) : Bool :=
  ((output.get "finished").bind Json.asBool).getD false ||
    ((output.get "action").bind Json.asStr).any fun action =>
      action.toList.map Char.toUpper = "FINISH".toList

def agentInput (inputs : Json) (iteration : Nat) (injectHistory : Bool) (history : List Json) :
    Json :=
  let fields := Json.insertField "__agent_iteration__" (.ofCount iteration)
    (objectFields (stripReserved inputs))
  .object (if injectHistory && 0 < E.agentLoopMaxHistory.toNat && !history.isEmpty then
    Json.insertField "__agent_history__" (.array history) fields else fields)

/-- The window slides when it is full. -/
def pushHistory (history : List Json) (output : Json) : List Json :=
  if E.agentLoopMaxHistory.toNat = 0 then history
  else if E.agentLoopMaxHistory.toNat ≤ history.length then history.drop 1 ++ [output]
  else history ++ [output]

def agentStep (graphJson inputs : Json) (injectHistory : Bool) (st : AgentState H) :
    AgentState H :=
  let iteration := st.iterationsRun + 1
  let outcome := N.runGraph iteration graphJson
    (E.agentInput inputs iteration injectHistory st.history)
  let output :=
    match outcome with
    | .ok run => agentOutput run
    | .error (.build e) => errorEnvelope ("Failed to build agent body: " ++ e)
    | .error (.execution e) => errorEnvelope e
  { history := E.pushHistory st.history output
    lastOutput := output
    finished := agentFinished output
    iterationsRun := iteration
    runs := st.runs ++ returnedRuns outcome }

def agentIterations (graphJson inputs : Json) (injectHistory : Bool) :
    Nat → AgentState H → AgentState H
  | 0, st => st
  | remaining + 1, st =>
      let st := E.agentStep N graphJson inputs injectHistory st
      if st.finished then st else agentIterations graphJson inputs injectHistory remaining st

def tryDispatchAgentLoop (bodyWfId : Uuid) (maxIters : UInt32) (injectHistory : Bool)
    (timeoutSecs : UInt64) (inputs : Json) : Handled H Json :=
  if E.moduleFetcher.isNone then
    ⟨errorEnvelope "Registry not available for AgentLoop execution", []⟩
  else
    match E.userId with
    | none => ⟨errorEnvelope "user_id required for sub-workflow execution", []⟩
    | some userId =>
        match N.getSubWorkflowGraph bodyWfId userId with
        | none => ⟨errorEnvelope ("AgentLoop body workflow " ++ bodyWfId.text ++ " not found"), []⟩
        | some graphJson =>
            let limit := N.deadline.getD maxIters.toNat
            let st := E.agentIterations N graphJson inputs injectHistory (min limit maxIters.toNat)
              ⟨[], .object [], false, 0, []⟩
            if !st.finished && limit < maxIters.toNat then
              ⟨errorEnvelope ("AgentLoop timed out after " ++ timeoutSecs.toNat.repr ++ "s"), st.runs⟩
            else
              ⟨.object [("final_output", st.lastOutput), ("finished", .bool st.finished),
                ("history", .array st.history), ("iterations", .ofCount st.iterationsRun)], st.runs⟩

end AgentLoop

end ParallelWorkflowEngine

section Errors

theorem isErrorOutput_congr {fields fields' : List (String × Json)}
    (h : fields.lookup "__error" = fields'.lookup "__error") :
    isErrorOutput (.object fields) = isErrorOutput (.object fields') := by
  simp only [isErrorOutput, Json.get, Json.asObject, Option.bind_some, h]

theorem isErrorOutput_objectFields (value : Json) :
    isErrorOutput (.object (objectFields value)) = isErrorOutput value := by
  cases value <;> rfl

theorem isErrorOutput_errorEnvelope (message : String) :
    isErrorOutput (errorEnvelope message) = true := rfl

theorem SubflowError.isErrorOutput_intoErrorEnvelope (context : String) (e : SubflowError) :
    isErrorOutput (e.intoErrorEnvelope context) = true := by
  cases e <;> rfl

theorem lookup_insertFields_ne {key : String} {added : List (String × Json)}
    (h : ∀ field ∈ added, key ≠ field.1) (fields : List (String × Json)) :
    (insertFields fields added).lookup key = fields.lookup key := by
  induction added generalizing fields with
  | nil => rfl
  | cons field added ih =>
      rw [insertFields, List.foldl_cons]
      have hRest := ih (fun other hOther => h other (List.mem_cons_of_mem _ hOther))
        (Json.insertField field.1 field.2 fields)
      rw [insertFields] at hRest
      rw [hRest, Json.lookup_insertField_ne (h field List.mem_cons_self)]

theorem lookup_insertFields_congr {key : String} {fields fields' : List (String × Json)}
    (h : fields.lookup key = fields'.lookup key) (added : List (String × Json)) :
    (insertFields fields added).lookup key = (insertFields fields' added).lookup key := by
  induction added generalizing fields fields' with
  | nil => exact h
  | cons field added ih =>
      refine ih ?_
      by_cases hKey : key = field.1
      · rw [hKey, Json.lookup_insertField_self, Json.lookup_insertField_self]
      · rw [Json.lookup_insertField_ne hKey, Json.lookup_insertField_ne hKey, h]

theorem isErrorOutput_insertFields {value : Json} {added : List (String × Json)}
    (h : ∀ field ∈ added, "__error" ≠ field.1) :
    isErrorOutput (.object (insertFields (objectFields value) added)) = isErrorOutput value := by
  rw [isErrorOutput_congr (lookup_insertFields_ne h (objectFields value)),
    isErrorOutput_objectFields]

theorem DispatchedOrigin.error_not_mem_prelude {subWfId : Uuid} (origin : DispatchedOrigin) :
    ∀ field ∈ origin.prelude subWfId, "__error" ≠ field.1 := by
  cases origin with
  | dynamicDispatch target => simp [prelude]
  | capabilityDispatch name capabilities isFallback =>
      cases isFallback with
      | true => simp [prelude]
      | false => simp [prelude]

end Errors

namespace ParallelWorkflowEngine

variable {E : ParallelWorkflowEngine H} {N : Nesting H}

section Refusals

/-- The report of a sub-workflow is an error unless its run collapses to something else. -/
theorem dispatchSubworkflow_refused {inputs : Json} {subWfId : Uuid}
    (h : ∀ run ∈ (E.dispatchSubworkflow N inputs subWfId).runs, isErrorOutput run.collapsed = true) :
    isErrorOutput (E.dispatchSubworkflow N inputs subWfId).report = true := by
  simp only [dispatchSubworkflow] at h ⊢
  split
  · rename_i run hRun
    rw [hRun] at h
    exact h run (List.mem_singleton_self run)
  · exact SubflowError.isErrorOutput_intoErrorEnvelope _ _

theorem runDispatchedSubworkflow_refused {subWfId : Uuid} {inputs : Json}
    {origin : DispatchedOrigin}
    (h : ∀ run ∈ (E.runDispatchedSubworkflow N subWfId inputs origin).runs,
      isErrorOutput (.object (insertFields [] run.labelled)) = true) :
    isErrorOutput (E.runDispatchedSubworkflow N subWfId inputs origin).report = true := by
  simp only [runDispatchedSubworkflow] at h ⊢
  split
  · rfl
  · rename_i hFetcher
    rw [if_neg hFetcher] at h
    split
    · cases origin <;> rfl
    · rename_i graphJson hGraph
      simp only [hGraph] at h
      split
      · cases origin <;> rfl
      · cases origin <;> rfl
      · rename_i run hRun
        simp only [hRun, List.mem_singleton, forall_eq] at h
        rw [← h]
        apply isErrorOutput_congr
        apply lookup_insertFields_congr
        rw [lookup_insertFields_ne origin.error_not_mem_prelude]

theorem tryDispatchDynamicDispatch_refused {dispatchExpression : String} {inputs : Json}
    (h : ∀ run ∈ (E.tryDispatchDynamicDispatch N dispatchExpression inputs).runs,
      isErrorOutput (.object (insertFields [] run.labelled)) = true) :
    ∃ message, (E.tryDispatchDynamicDispatch N dispatchExpression inputs).report = .error message := by
  simp only [tryDispatchDynamicDispatch] at h ⊢
  split
  · exact ⟨_, rfl⟩
  · rename_i target hTarget
    simp only [hTarget] at h
    split
    · exact ⟨_, rfl⟩
    · rename_i subWfId hResolved
      simp only [hResolved] at h
      exact ⟨_, if_pos (runDispatchedSubworkflow_refused h)⟩

theorem tryDispatchCapabilityDispatch_refused {requiredCapabilities : List String}
    {fallbackWorkflowId : Option Uuid} {inputs : Json}
    (h : ∀ run ∈ (E.tryDispatchCapabilityDispatch N requiredCapabilities fallbackWorkflowId
      inputs).runs, isErrorOutput (.object (insertFields [] run.labelled)) = true) :
    isErrorOutput (E.tryDispatchCapabilityDispatch N requiredCapabilities fallbackWorkflowId
      inputs).report = true := by
  simp only [tryDispatchCapabilityDispatch] at h ⊢
  split
  · rfl
  · rename_i hStore
    rw [if_neg hStore] at h
    split
    · rename_i subWfId name hResolved
      simp only [hResolved] at h
      exact runDispatchedSubworkflow_refused h
    · rename_i fallback hResolved
      simp only [hResolved] at h
      exact runDispatchedSubworkflow_refused h
    · rfl

/-- An agent loop whose body can be run times out before an iteration signals completion. -/
def agentExpires (E : ParallelWorkflowEngine H) (N : Nesting H) (bodyWfId : Uuid)
    (maxIters : UInt32) (injectHistory : Bool) (inputs : Json) : Prop :=
  ∀ userId graphJson, E.userId = some userId →
    N.getSubWorkflowGraph bodyWfId userId = some graphJson →
      ∃ limit, N.deadline = some limit ∧ limit < maxIters.toNat ∧
        (E.agentIterations N graphJson inputs injectHistory limit
          ⟨[], .object [], false, 0, []⟩).finished = false

theorem tryDispatchAgentLoop_refused {bodyWfId : Uuid} {maxIters : UInt32} {injectHistory : Bool}
    {timeoutSecs : UInt64} {inputs : Json}
    (h : E.agentExpires N bodyWfId maxIters injectHistory inputs) :
    isErrorOutput
      (E.tryDispatchAgentLoop N bodyWfId maxIters injectHistory timeoutSecs inputs).report = true := by
  simp only [tryDispatchAgentLoop]
  split
  · rfl
  · split
    · rfl
    · rename_i userId hUser
      split
      · rfl
      · rename_i graphJson hGraph
        obtain ⟨limit, hDeadline, hLimit, hUnfinished⟩ := h userId graphJson hUser hGraph
        rw [hDeadline, Option.getD_some, min_eq_left hLimit.le, hUnfinished, if_pos]
        · rfl
        · simpa using hLimit

end Refusals

end ParallelWorkflowEngine

end TalosWorkflow
