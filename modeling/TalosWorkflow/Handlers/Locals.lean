import TalosWorkflow.Handlers.Verdicts

/-!
# Handlers that ask nobody

The system nodes that the engine answers itself, from the results of their
parents and the expression evaluator.
-/

namespace TalosWorkflow

variable {H : Host}

/-- Reserved fields are stripped from a branch, except the markers of an error. -/
def keepsField (key : String) : Bool :=
  !isReserved key || key = "__error" || key = "__continued"

def stripBranch : Json → Json
  | .object fields => .object (fields.filter fun field => keepsField field.1)
  | value => value

def collected (items : List Json) : Json :=
  .object [("count", .ofCount items.length), ("items", .array items)]

def aggregationFailed : Json := .object [("__aggregation_failed", .bool true)]

/-- Fields are inserted into an object; any other value stays as it is. -/
def annotate (added : List (String × Json)) : Json → Json
  | .object fields => .object (insertFields fields added)
  | value => value

def verificationMessage (checkLabel condition : String) : String :=
  "Verification failed for '" ++ checkLabel ++ "': condition '" ++ condition ++
    "' evaluated to false. Wire an error edge from this verify node to a fix-up workflow, or " ++
    "set on_failure: 'passthrough' to route conditionally downstream."

/-- The output of an iteration wraps that of the one before. -/
def loopTurn (iteration : Nat) (output : Json) : Json :=
  .object [("__loop_input", output), ("__loop_iteration", .ofCount iteration)]

/-- What is left of an output after `k` further iterations. -/
def loopTurns (iteration : Nat) : Nat → Json → Json
  | 0, output => output
  | k + 1, output => loopTurns (iteration + 1) k (loopTurn (iteration + 1) output)

namespace ParallelWorkflowEngine

variable (E : ParallelWorkflowEngine H) (G : GateDoubles)
  (evaluate : String → Json → Except String Json) (idx : NodeIndex) (results : Table Json)

/-- What the completed parents returned, one item for each edge. -/
def branchOutputs : List Json :=
  (E.parentOutputs idx results).map fun parent => stripBranch parent.2

def collectParentOutputsForNode : Json := collected (E.branchOutputs idx results)

/-- The evaluator is handed 500 items at most, and its error is ignored. -/
def synthesizeParentOutputs (synthesisExpr : Option String) : Json :=
  let items := collected ((E.branchOutputs idx results).take 500)
  match synthesisExpr with
  | some expr =>
      match E.evalJson evaluate expr items with
      | .ok value => value
      | .error _ => items
  | none => items

def aggregateFanIn (joinMode : JoinMode) (aggregationExpr : Option String) : Json :=
  let outputs := (E.parentOutputs idx results).map (·.2)
  let aggregated :=
    match joinMode with
    | .any => outputs.head?.getD .null
    | _ => .array outputs
  match aggregationExpr with
  | some expr => if E.evalBool expr aggregated then aggregated else aggregationFailed
  | none => aggregated

/-- The output of the node, and whether its condition holds. -/
def evaluateVerifyNode (condition checkLabel onFailure : String) : Json × Bool :=
  let parentOutput := E.gatherInputs idx results
  let passed := E.evalBool condition parentOutput
  let output :=
    if passed then
      annotate [("__verified__", .bool true), ("__check_label__", .string checkLabel)] parentOutput
    else if onFailure = "passthrough" then
      annotate
        [("__verified__", .bool false), ("__verification_failed__", .bool true),
          ("__check_label__", .string checkLabel), ("__verification_condition__", .string condition)]
        parentOutput
    else
      .object [("__check_label__", .string checkLabel), ("__error", .bool true),
        ("__verified__", .bool false),
        ("error_message", .string (verificationMessage checkLabel condition))]
  (output, passed)

/-- The mode `error` turns the output into a failure of the node. -/
def tryDispatchVerify (condition : String) (checkLabel : Option String) (onFailure : String) :
    Answer :=
  let label := checkLabel.getD "output quality"
  let (output, passed) := E.evaluateVerifyNode idx results condition label onFailure
  if passed || onFailure = "passthrough" then .output output
  else .error (((output.get "error_message").bind Json.asStr).getD
    ("Verification '" ++ label ++ "' failed (condition: " ++ condition ++ ")"))

/-- The iterations after the first `iteration` ones, of which `left` are still allowed. -/
def whileTurns (condition : String) : Nat → Nat → Json → Nat × Json
  | 0, iteration, output => (iteration, output)
  | left + 1, iteration, output =>
      if E.evalBool condition output then
        whileTurns condition left (iteration + 1) (loopTurn (iteration + 1) output)
      else (iteration, output)

def tryDispatchWhileLoop (condition : String) (maxIterations : UInt32) : Json :=
  let (iterations, output) :=
    E.whileTurns condition maxIterations.toNat 0 (E.gatherInputs idx results)
  .object [("iterations", .ofCount iterations), ("output", output)]

def tryDispatchRepeatLoop (count : UInt32) : Json :=
  .object [("input", E.gatherInputs idx results), ("iterations", .ofCount count.toNat)]

/-- The answer of a node that is neither dispatched nor handed to a sub-workflow or a gate for
approvals. -/
def localAnswer : Option Answer :=
  match E.kindOf (E.nodeId idx) with
  | some (.fanIn joinMode aggregationExpr) =>
      some (.output (E.aggregateFanIn idx results joinMode aggregationExpr))
  | some .collect => some (.output (E.collectParentOutputsForNode idx results))
  | some (.synthesize synthesisExpr) =>
      some (.output (E.synthesizeParentOutputs evaluate idx results synthesisExpr))
  | some (.verify condition checkLabel onFailure) =>
      some (E.tryDispatchVerify idx results condition checkLabel onFailure)
  | some (.whileLoop condition maxIterations) =>
      some (.output (E.tryDispatchWhileLoop idx results condition maxIterations))
  | some (.repeatLoop count) => some (.output (E.tryDispatchRepeatLoop idx results count))
  | some (.inlineJudge verdictExpr passThreshold onFailure) =>
      some (.output (E.dispatchInlineJudge G evaluate (E.gatherInputs idx results) verdictExpr
        passThreshold onFailure))
  | _ => none

end ParallelWorkflowEngine

section Reading

variable {E : ParallelWorkflowEngine H} {G : GateDoubles}
  {evaluate : String → Json → Except String Json} {idx : NodeIndex} {results results' : Table Json}

theorem parentOutputs_congr (h : ∀ p, E.graph.Arc p idx →
    results.lookup (E.nodeId p) = results'.lookup (E.nodeId p)) :
    E.parentOutputs idx results = E.parentOutputs idx results' := by
  refine List.filterMap_congr fun p hp => ?_
  rw [h p ((Multigraph.mem_predecessors _).1 hp)]

theorem localAnswer_congr (h : E.parentOutputs idx results = E.parentOutputs idx results') :
    E.localAnswer G evaluate idx results = E.localAnswer G evaluate idx results' := by
  have hInputs : E.gatherInputs idx results = E.gatherInputs idx results' := by
    rw [ParallelWorkflowEngine.gatherInputs, h, ParallelWorkflowEngine.gatherInputs]
  have hBranches : E.branchOutputs idx results = E.branchOutputs idx results' := by
    rw [ParallelWorkflowEngine.branchOutputs, h, ParallelWorkflowEngine.branchOutputs]
  have hFanIn : E.aggregateFanIn idx results = E.aggregateFanIn idx results' := by
    unfold ParallelWorkflowEngine.aggregateFanIn
    rw [h]
  have hSynthesize : E.synthesizeParentOutputs evaluate idx results =
      E.synthesizeParentOutputs evaluate idx results' := by
    unfold ParallelWorkflowEngine.synthesizeParentOutputs
    rw [hBranches]
  have hVerify : E.tryDispatchVerify idx results = E.tryDispatchVerify idx results' := by
    unfold ParallelWorkflowEngine.tryDispatchVerify ParallelWorkflowEngine.evaluateVerifyNode
    rw [hInputs]
  unfold ParallelWorkflowEngine.localAnswer ParallelWorkflowEngine.collectParentOutputsForNode
    ParallelWorkflowEngine.tryDispatchWhileLoop ParallelWorkflowEngine.tryDispatchRepeatLoop
  rw [hFanIn, hSynthesize, hVerify, hInputs, hBranches]

theorem localAnswer_of_dispatched {R : Reactor H}
    (h : R.runsModule idx = true ∨ R.isSubWorkflowNode idx = true) :
    R.localAnswer G evaluate idx results = none := by
  unfold Reactor.runsModule Reactor.isSubWorkflowNode at h
  unfold ParallelWorkflowEngine.localAnswer
  split
  all_goals first
    | rfl
    | simp_all

/-- The loop stops at the first output that fails the condition, or at its limit. -/
theorem whileTurns_eq (condition : String) (left iteration : Nat) (output : Json) :
    ∃ k ≤ left,
      E.whileTurns condition left iteration output =
        (iteration + k, loopTurns iteration k output) ∧
      (∀ j < k, E.evalBool condition (loopTurns iteration j output) = true) ∧
        (k < left → E.evalBool condition (loopTurns iteration k output) = false) := by
  induction left generalizing iteration output with
  | zero =>
      exact ⟨0, le_refl 0, rfl, fun j hj => absurd hj (Nat.not_lt_zero j),
        fun hk => absurd hk (Nat.not_lt_zero 0)⟩
  | succ left ih =>
      cases hCondition : E.evalBool condition output with
      | false =>
          refine ⟨0, Nat.zero_le _, ?_, fun j hj => absurd hj (Nat.not_lt_zero j),
            fun _ => hCondition⟩
          rw [ParallelWorkflowEngine.whileTurns, hCondition]
          rfl
      | true =>
          obtain ⟨k, hk, hTurns, hHolds, hStops⟩ :=
            ih (iteration + 1) (loopTurn (iteration + 1) output)
          refine ⟨k + 1, by omega, ?_, fun j hj => ?_, fun hLt => hStops (by omega)⟩
          · rw [ParallelWorkflowEngine.whileTurns, if_pos hCondition, hTurns, loopTurns]
            congr 1
            omega
          · cases j with
            | zero => exact hCondition
            | succ j => exact hHolds j (by omega)

theorem tryDispatchVerify_error {condition onFailure : String} (checkLabel : Option String)
    (hFails : E.evalBool condition (E.gatherInputs idx results) = false)
    (hMode : onFailure ≠ "passthrough") : ∃ message,
      E.tryDispatchVerify idx results condition checkLabel onFailure = .error message := by
  have hNode : E.evaluateVerifyNode idx results condition (checkLabel.getD "output quality")
      onFailure = (_, false) := Prod.ext rfl hFails
  rw [ParallelWorkflowEngine.tryDispatchVerify, hNode]
  exact ⟨_, if_neg (by simp [hMode])⟩

end Reading

end TalosWorkflow
