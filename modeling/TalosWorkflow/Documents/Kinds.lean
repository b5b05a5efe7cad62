import TalosWorkflow.Handlers.Gates
import TalosWorkflow.Library.OrderedMap

/-!
# System kinds in graph documents

The decoder of a node's `kind` and `data` fields, and the encoder of the graph
builder.
-/

namespace TalosWorkflow

namespace Json

def asArray : Json → Option (List Json)
  | .array items => some items
  | _ => none

def asNumber : Json → Option Number
  | .number n => some n
  | _ => none

def strField (data : Json) (key : String) : Option String := (data.get key).bind asStr

def u64Field (data : Json) (key : String) : Option UInt64 := (data.get key).bind asU64

def boolField (data : Json) (key : String) : Option Bool := (data.get key).bind asBool

def ofU64 (n : UInt64) : Json := .number (.posInt n)

def ofOption {α : Type} (encode : α → Json) : Option α → Json
  | some a => encode a
  | none => .null

end Json

/-- What reading a document takes from elsewhere: the parser of UUID texts, the first sixteen
bytes of a SHA-256 digest, doubles, and whether the `llm-primitives` feature is on. -/
structure GraphFormat where
  parseUuid : String → Option Uuid
  parseUuid_text : ∀ id : Uuid, parseUuid id.text = some id
  digest : String → Uuid
  doubles : Doubles
  llmPrimitives : Bool

namespace GraphFormat

variable (F : GraphFormat)

def uuidField (data : Json) (key : String) : Option Uuid := (data.strField key).bind F.parseUuid

def f64Field (data : Json) (key : String) : Option Rat :=
  ((data.get key).bind Json.asNumber).map F.doubles.asF64

/-- The `clamp` of doubles. -/
def clampUnit (q : Rat) : Rat := max 0 (min q 1)

/-- The double that the literal `0.7` denotes. -/
def sevenTenths : Rat := 3152519739159347 / 4503599627370496

/-- `from_value` of the derived, externally tagged form. -/
def joinModeFromValue : Json → Option JoinMode
  | .string tag =>
      if tag = "All" then some .all
      else if tag = "Any" then some .any
      else if tag = "Majority" then some .majority
      else none
  | .object [(tag, content)] =>
      if tag = "All" then if content = .null then some .all else none
      else if tag = "Any" then if content = .null then some .any else none
      else if tag = "Majority" then if content = .null then some .majority else none
      else if tag = "N" then
        content.asU64.bind fun quota =>
          if quota.toNat < 2 ^ 32 then some (.n quota.toUInt32) else none
      else none
  | _ => none

def routesFrom (fields : List (String × Json)) : List (String × Uuid) :=
  OrderedMap.collect <| fields.filterMap fun field =>
    (field.2.asStr.bind F.parseUuid).map fun id => (field.1, id)

def parseLlmSystemNodeKind (k : String) (node : Json) : Option SystemNodeKind :=
  if k = "agent_loop" then do
    let data ← node.get "data"
    let bodyWorkflowId ← F.uuidField data "body_workflow_id"
    some (.agentLoop bodyWorkflowId (min ((data.u64Field "max_iterations").getD 10) 50).toUInt32
      ((data.boolField "inject_history").getD true) ((data.u64Field "timeout_secs").getD 60))
  else if k = "judge" then
    let data := (node.get "data").getD .null
    some (.judge ((F.uuidField data "judge_workflow_id").getD 0) ((data.strField "rubric").getD "")
      (F.f64Field data "pass_threshold") ((data.strField "on_failure").getD "error")
      ((data.u64Field "timeout_secs").getD 60))
  else if k = "inline_judge" then
    let data := (node.get "data").getD .null
    let verdictExpr := (data.strField "verdict_expr").getD ""
    if verdictExpr = "" then none
    else some (.inlineJudge verdictExpr (F.f64Field data "pass_threshold")
      ((data.strField "on_failure").getD "error"))
  else if k = "ensemble" then
    let data := (node.get "data").getD .null
    some (.ensemble ((F.uuidField data "child_workflow_id").getD 0)
      (max (min ((data.u64Field "count").getD 3) 10) 2).toUInt32
      ((data.strField "consensus").getD "majority_vote") (F.uuidField data "judge_workflow_id")
      ((data.u64Field "timeout_secs").getD 60))
  else if k = "confidence_gate" then
    let data := (node.get "data").getD .null
    some (.confidenceGate (clampUnit ((F.f64Field data "threshold").getD sevenTenths))
      ((data.strField "confidence_path").getD "__confidence__")
      ((data.strField "on_low_confidence").getD "pause"))
  else if k = "reflective_retry" then
    let data := (node.get "data").getD .null
    some (.reflectiveRetry ((F.uuidField data "child_workflow_id").getD 0)
      ((F.uuidField data "reflection_workflow_id").getD 0)
      (max (min ((data.u64Field "max_retries").getD 2) 5) 1).toUInt32
      ((data.u64Field "timeout_secs").getD 60))
  else if k = "llm_dispatch" then
    let data := (node.get "data").getD .null
    some (.llmDispatch ((F.uuidField data "classifier_workflow_id").getD 0)
      ((((data.get "routes").bind Json.asObject).map F.routesFrom).getD [])
      (F.uuidField data "fallback_workflow_id") ((data.u64Field "timeout_secs").getD 60))
  else if k = "react_loop" then do
    let data ← node.get "data"
    let bodyWorkflowId ← F.uuidField data "body_workflow_id"
    some (.reActLoop bodyWorkflowId (min ((data.u64Field "max_iterations").getD 10) 50).toUInt32
      ((data.boolField "inject_history").getD true) ((data.u64Field "timeout_secs").getD 60))
  else none

def parseSystemNodeKind (k : String) (node : Json) : Option SystemNodeKind :=
  if k = "wait" then some (.wait ((node.get "data").bind (·.strField "message")))
  else if k = "sub_workflow" then do
    let data ← node.get "data"
    let workflowId ← F.uuidField data "sub_workflow_id"
    some (.subWorkflow workflowId ((data.u64Field "timeout_secs").getD 30))
  else if k = "loop" then do
    let data ← node.get "data"
    let condition ← data.strField "condition"
    some (.loop (min ((data.u64Field "max_iterations").getD 10) 100).toUInt32 condition)
  else if k = "while_loop" then do
    let data ← node.get "data"
    let condition ← data.strField "condition"
    some (.whileLoop condition (min ((data.u64Field "max_iterations").getD 10) 100).toUInt32)
  else if k = "repeat_loop" then
    let count := ((node.get "data").bind (·.u64Field "count")).getD 1
    some (.repeatLoop (min count 4294967295).toUInt32)
  else if k = "fan_in" then
    let data := (node.get "data").getD (.object [])
    some (.fanIn (((data.get "join_mode").bind joinModeFromValue).getD .all)
      (data.strField "aggregation_expr"))
  else if k = "error_handler" then
    some (.errorHandler ((node.get "data").bind (·.strField "error_pattern")))
  else if k = "collect" then some .collect
  else if k = "synthesize" then
    let data := (node.get "data").getD (.object [])
    some (.synthesize (data.strField "synthesis_expr"))
  else if k = "verify" then do
    let data ← node.get "data"
    let condition ← data.strField "condition"
    some (.verify condition (data.strField "check_label")
      ((data.strField "on_failure").getD "error"))
  else if k = "dispatch" then do
    let data ← node.get "data"
    let dispatchExpression ← data.strField "dispatch_expression"
    some (.dynamicDispatch dispatchExpression ((data.u64Field "timeout_secs").getD 30))
  else if k = "capability_dispatch" then do
    let data ← node.get "data"
    let items ← (data.get "required_capabilities").bind Json.asArray
    let caps := items.filterMap Json.asStr
    if caps = [] then none
    else some (.capabilityDispatch caps (F.uuidField data "fallback_workflow_id")
      ((data.u64Field "timeout_secs").getD 30))
  else if F.llmPrimitives then F.parseLlmSystemNodeKind k node
  else none

def joinModeToValue : JoinMode → Json
  | .all => .string "All"
  | .any => .string "Any"
  | .majority => .string "Majority"
  | .n quota => .object [("N", .ofU64 quota.toUInt64)]

/-- A text that is left out when it is absent. -/
def optionalText (key : String) : Option String → List (String × Json)
  | some s => [(key, .string s)]
  | none => []

def uuidJson (id : Uuid) : Json := .string id.text

/-- The fields of each object stand in key order. -/
def serializeSystemNodeKind : SystemNodeKind → String × Json
  | .wait message => ("wait", .object (optionalText "message" message))
  | .whileLoop condition maxIterations =>
      ("while_loop", .object [("condition", .string condition),
        ("max_iterations", .ofU64 maxIterations.toUInt64)])
  | .repeatLoop count => ("repeat_loop", .object [("count", .ofU64 count.toUInt64)])
  | .errorHandler errorPattern =>
      ("error_handler", .object (optionalText "error_pattern" errorPattern))
  | .fanIn joinMode aggregationExpr =>
      ("fan_in", .object (optionalText "aggregation_expr" aggregationExpr ++
        [("join_mode", joinModeToValue joinMode)]))
  | .subWorkflow workflowId timeoutSecs =>
      ("sub_workflow", .object [("sub_workflow_id", uuidJson workflowId),
        ("timeout_secs", .ofU64 timeoutSecs)])
  | .loop maxIterations condition =>
      ("loop", .object [("condition", .string condition),
        ("max_iterations", .ofU64 maxIterations.toUInt64)])
  | .collect => ("collect", .object [])
  | .synthesize synthesisExpr =>
      ("synthesize", .object (optionalText "synthesis_expr" synthesisExpr))
  | .verify condition checkLabel onFailure =>
      ("verify", .object [("check_label", .ofOption .string checkLabel),
        ("condition", .string condition), ("on_failure", .string onFailure)])
  | .dynamicDispatch dispatchExpression timeoutSecs =>
      ("dispatch", .object [("dispatch_expression", .string dispatchExpression),
        ("timeout_secs", .ofU64 timeoutSecs)])
  | .capabilityDispatch requiredCapabilities fallbackWorkflowId timeoutSecs =>
      ("capability_dispatch", .object [
        ("fallback_workflow_id", .ofOption uuidJson fallbackWorkflowId),
        ("required_capabilities", .array (requiredCapabilities.map .string)),
        ("timeout_secs", .ofU64 timeoutSecs)])
  | .agentLoop bodyWorkflowId maxIterations injectHistory timeoutSecs =>
      ("agent_loop", .object [("body_workflow_id", uuidJson bodyWorkflowId),
        ("inject_history", .bool injectHistory),
        ("max_iterations", .ofU64 maxIterations.toUInt64), ("timeout_secs", .ofU64 timeoutSecs)])
  | .judge judgeWorkflowId rubric passThreshold onFailure timeoutSecs =>
      ("judge", .object [("judge_workflow_id", uuidJson judgeWorkflowId),
        ("on_failure", .string onFailure),
        ("pass_threshold", .ofOption F.doubles.toJson passThreshold), ("rubric", .string rubric),
        ("timeout_secs", .ofU64 timeoutSecs)])
  | .inlineJudge verdictExpr passThreshold onFailure =>
      ("inline_judge", .object [("on_failure", .string onFailure),
        ("pass_threshold", .ofOption F.doubles.toJson passThreshold),
        ("verdict_expr", .string verdictExpr)])
  | .ensemble childWorkflowId count consensus judgeWorkflowId timeoutSecs =>
      ("ensemble", .object [("child_workflow_id", uuidJson childWorkflowId),
        ("consensus", .string consensus), ("count", .ofU64 count.toUInt64),
        ("judge_workflow_id", .ofOption uuidJson judgeWorkflowId),
        ("timeout_secs", .ofU64 timeoutSecs)])
  | .confidenceGate threshold confidencePath onLowConfidence =>
      ("confidence_gate", .object [("confidence_path", .string confidencePath),
        ("on_low_confidence", .string onLowConfidence),
        ("threshold", F.doubles.toJson threshold)])
  | .reActLoop bodyWorkflowId maxIterations injectHistory timeoutSecs =>
      ("react_loop", .object [("body_workflow_id", uuidJson bodyWorkflowId),
        ("inject_history", .bool injectHistory),
        ("max_iterations", .ofU64 maxIterations.toUInt64), ("timeout_secs", .ofU64 timeoutSecs)])
  | .reflectiveRetry childWorkflowId reflectionWorkflowId maxRetries timeoutSecs =>
      ("reflective_retry", .object [("child_workflow_id", uuidJson childWorkflowId),
        ("max_retries", .ofU64 maxRetries.toUInt64),
        ("reflection_workflow_id", uuidJson reflectionWorkflowId),
        ("timeout_secs", .ofU64 timeoutSecs)])
  | .llmDispatch classifierWorkflowId routes fallbackWorkflowId timeoutSecs =>
      ("llm_dispatch", .object [("classifier_workflow_id", uuidJson classifierWorkflowId),
        ("fallback_workflow_id", .ofOption uuidJson fallbackWorkflowId),
        ("routes", .object (OrderedMap.collect (routes.map (Prod.map id uuidJson)))),
        ("timeout_secs", .ofU64 timeoutSecs)])

end GraphFormat

end TalosWorkflow
