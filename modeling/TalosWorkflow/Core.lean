import Mathlib.Data.List.AList
import Mathlib.Data.Rat.Init
import TalosWorkflow.Json

/-!
# Identifiers, edges and node kinds
-/

namespace TalosWorkflow

abbrev Uuid := BitVec 128

namespace Uuid

def chars (id : Uuid) : List Char :=
  let digits := hexDigits 32 id.toNat
  digits.take 8 ++ '-' :: ((digits.drop 8).take 4 ++ '-' :: ((digits.drop 12).take 4 ++ '-' ::
    ((digits.drop 16).take 4 ++ '-' :: digits.drop 20)))

def text (id : Uuid) : String := String.ofList id.chars

end Uuid

/-- A hash map keyed by node ids, together with its iteration order. -/
abbrev Table (α : Type) := AList fun _ : Uuid => α

def usizeMax : Nat := 2 ^ 64 - 1

/-- `saturating_add` on 64 bits. -/
def saturatingAdd (a b : UInt64) : UInt64 :=
  if a.toNat + b.toNat ≤ usizeMax then a + b else UInt64.ofNat usizeMax

structure EdgeLogic where
  sourceHandle : String := "output"
  targetHandle : String := "input"
  mapping : Option String := none
  condition : Option String := none
  edgeType : String := "default"
  deriving DecidableEq, Repr

def EdgeLogic.isError (logic : EdgeLogic) : Bool := logic.edgeType == "error"

structure RetryPolicy where
  maxRetries : UInt32 := 2
  backoffMs : UInt64 := 500
  retryCondition : Option String := none
  retryDelayExpression : Option String := none
  deriving DecidableEq, Repr

/-- The data-egress ceiling; `tier2` imposes no restriction. -/
inductive LlmTier where
  | tier1
  | tier2
  deriving DecidableEq, Repr

instance : Inhabited LlmTier := ⟨.tier2⟩

def LlmTier.asSigningStr : LlmTier → String
  | .tier1 => "tier1"
  | .tier2 => "tier2"

inductive JoinMode where
  | all
  | any
  | majority
  | n (quota : UInt32)
  deriving DecidableEq, Repr

/-- The finite doubles that occur in node settings are rationals. -/
inductive SystemNodeKind where
  | wait (message : Option String)
  | whileLoop (condition : String) (maxIterations : UInt32)
  | repeatLoop (count : UInt32)
  | errorHandler (errorPattern : Option String)
  | fanIn (joinMode : JoinMode) (aggregationExpr : Option String)
  | subWorkflow (workflowId : Uuid) (timeoutSecs : UInt64)
  | loop (maxIterations : UInt32) (condition : String)
  | collect
  | synthesize (synthesisExpr : Option String)
  | verify (condition : String) (checkLabel : Option String) (onFailure : String)
  | agentLoop (bodyWorkflowId : Uuid) (maxIterations : UInt32) (injectHistory : Bool)
      (timeoutSecs : UInt64)
  | judge (judgeWorkflowId : Uuid) (rubric : String) (passThreshold : Option Rat)
      (onFailure : String) (timeoutSecs : UInt64)
  | inlineJudge (verdictExpr : String) (passThreshold : Option Rat) (onFailure : String)
  | ensemble (childWorkflowId : Uuid) (count : UInt32) (consensus : String)
      (judgeWorkflowId : Option Uuid) (timeoutSecs : UInt64)
  | confidenceGate (threshold : Rat) (confidencePath : String) (onLowConfidence : String)
  | dynamicDispatch (dispatchExpression : String) (timeoutSecs : UInt64)
  | capabilityDispatch (requiredCapabilities : List String) (fallbackWorkflowId : Option Uuid)
      (timeoutSecs : UInt64)
  | reActLoop (bodyWorkflowId : Uuid) (maxIterations : UInt32) (injectHistory : Bool)
      (timeoutSecs : UInt64)
  | reflectiveRetry (childWorkflowId reflectionWorkflowId : Uuid) (maxRetries : UInt32)
      (timeoutSecs : UInt64)
  | llmDispatch (classifierWorkflowId : Uuid) (routes : List (String × Uuid))
      (fallbackWorkflowId : Option Uuid) (timeoutSecs : UInt64)
  deriving DecidableEq, Repr

/-- Module, retry policy and system kind of a node. -/
structure NodeMeta where
  moduleId : Option Uuid
  retryPolicy : Option RetryPolicy := none
  kind : Option SystemNodeKind
  deriving DecidableEq, Repr

end TalosWorkflow
