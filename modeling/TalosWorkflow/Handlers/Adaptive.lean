import TalosWorkflow.Handlers.Gates

/-!
# Classified dispatches and reflective retries

The handlers that choose the workflow to run by the output of another one, or
run one again with what a reflection suggests.
-/

namespace TalosWorkflow

variable {H : Host}

/-- The fields of an output; one that is no object becomes a field itself. -/
def outputFields : Json → List (String × Json)
  | .object fields => fields
  | value => [("output", value)]

/-- `class`, else `output`, else `result`, if it is a text. -/
def classLabel (output : Json) : Option String :=
  ((output.get "class").or ((output.get "output").or (output.get "result"))).bind Json.asStr

namespace ParallelWorkflowEngine

variable (E : ParallelWorkflowEngine H) (N : Nesting H)

section Classified

/-- The classifier is the first nested run and the target the second one. -/
def runClassified (target : Uuid) (input : Json) (classText context : String) (isFallback : Bool) :
    Handled H Json :=
  let outcome := E.executeSubworkflowGraph N 1 target input
  { report :=
      match outcome with
      | .ok run =>
          .object (insertFields (outputFields run.collapsed)
            ([("__dispatched_class__", .string classText),
              ("__dispatched_workflow_id__", .string target.text),
              ("__dispatched_by", .string "llm_dispatch"),
              ("__dispatch_branch__", .string classText)] ++
              if isFallback then [("__llm_dispatch_fallback", .bool true)] else []))
      | .error e => e.intoErrorEnvelope context
    runs := returnedRuns outcome }

def dispatchClass (cleanInput : Json) (routes : List (String × Uuid))
    (fallbackWfId : Option Uuid) (classText : String) : Handled H Json :=
  match routes.lookup classText, fallbackWfId with
  | some target, _ => E.runClassified N target cleanInput classText "LlmDispatch target" false
  | none, some fallback =>
      E.runClassified N fallback
        (.object (Json.insertField "__unmatched_class__" (.string classText)
          (objectFields cleanInput)))
        classText "LlmDispatch fallback" true
  | none, none =>
      ⟨errorEnvelope ("LLM dispatch: class '" ++ classText ++ "' not in routes " ++
        N.debugStrings (routes.map (·.1))), []⟩

def dispatchLlmDispatch (inputs : Json) (classifierWfId : Uuid) (routes : List (String × Uuid))
    (fallbackWfId : Option Uuid) : Handled H Json :=
  let cleanInput := stripReserved inputs
  match E.executeSubworkflowGraph N 0 classifierWfId cleanInput with
  | .error e => ⟨e.intoErrorEnvelope "LlmDispatch classifier", []⟩
  | .ok classifier =>
      match classLabel classifier.collapsed with
      | none =>
          ⟨errorEnvelope ("LlmDispatch classifier output had no 'class', 'output', or 'result' " ++
            "string field (saw keys: " ++
            N.debugStrings ((objectFields classifier.collapsed).map (·.1)) ++
            "). The classifier sub-workflow must return a string class label."), [classifier]⟩
      | some "" =>
          ⟨errorEnvelope ("LlmDispatch classifier returned an empty class string — the " ++
            "classifier must produce a non-empty label."), [classifier]⟩
      | some classText =>
          let handled := E.dispatchClass N cleanInput routes fallbackWfId classText
          { handled with runs := classifier :: handled.runs }

end Classified

section Reflective

/-- What a reflection suggests is merged into the input, apart from reserved fields. -/
def reflect (reflectionWfId : Uuid) (attempt : Nat) (current : Json) (lastError : String) :
    Handled H Json :=
  let outcome := E.executeSubworkflowGraph N (2 * attempt + 1) reflectionWfId
    (.object [("attempt", .ofCount attempt), ("error", .string lastError),
      ("input", stripReserved current)])
  { report :=
      match outcome with
      | .ok run =>
          .object (insertFields (objectFields current)
            (objectFields (stripReserved run.collapsed)))
      | .error _ => current
    runs := returnedRuns outcome }

/-- `maxRetries` counts the attempts, and after the last one nothing is reflected on. -/
def reflectiveAttempts (childWfId reflectionWfId : Uuid) (maxRetries : Nat) :
    Nat → Json → String → List (NestedRun H) → Handled H Json
  | 0, _, lastError, runs =>
      ⟨errorEnvelope ("Reflective retry exhausted " ++ maxRetries.repr ++
        " attempts. Last error: " ++ lastError), runs⟩
  | remaining + 1, current, _, runs =>
      let attempt := maxRetries - remaining
      let outcome := E.executeSubworkflowGraph N (2 * attempt) childWfId (stripReserved current)
      let childOut :=
        match outcome with
        | .ok run => run.collapsed
        | .error e => e.intoErrorEnvelope "ReflectiveRetry child"
      let runs := runs ++ returnedRuns outcome
      if isErrorOutput childOut then
        let lastError := errorMessageOr childOut "unknown error"
        if remaining = 0 then
          reflectiveAttempts childWfId reflectionWfId maxRetries remaining current lastError runs
        else
          let reflected := E.reflect N reflectionWfId attempt current lastError
          reflectiveAttempts childWfId reflectionWfId maxRetries remaining reflected.report
            lastError (runs ++ reflected.runs)
      else
        ⟨.object (Json.insertField "__reflective_retry_attempts__" (.ofCount attempt)
          (outputFields childOut)), runs⟩

def dispatchReflectiveRetry (initialInput : Json) (childWfId reflectionWfId : Uuid)
    (maxRetries : UInt32) : Handled H Json :=
  E.reflectiveAttempts N childWfId reflectionWfId maxRetries.toNat maxRetries.toNat initialInput
    "" []

end Reflective

end ParallelWorkflowEngine

end TalosWorkflow
