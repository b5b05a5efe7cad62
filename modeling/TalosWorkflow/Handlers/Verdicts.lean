import TalosWorkflow.Documents.Codec
import TalosWorkflow.Exits.Nesting

/-!
# Gates and their verdicts

A gate has its inputs judged and makes one output of the inputs and the verdict.
The way that the node takes is read from that output again.
-/

namespace TalosWorkflow

variable {H : Host}

/-- What all gates rely on from double precision numbers. -/
structure GateDoubles extends Doubles where
  /-- `{:.3}`. -/
  threeDecimals : Rat → String

/-- How a gate rules on its inputs; `undecided` when there is no verdict, or none yet. -/
inductive Ruling where
  | accepts
  | rejects
  | undecided
  deriving DecidableEq

def JudgeVerdict.ruling (passThreshold : Option Rat) (verdict : JudgeVerdict) : Ruling :=
  if verdict.passes passThreshold then .accepts else .rejects

namespace ParallelWorkflowEngine

variable (E : ParallelWorkflowEngine H) (G : GateDoubles)
  (evaluate : String → Json → Except String Json)

/-- `evaluate` is what the configured evaluator answers. -/
def evalJson (expression : String) (context : Json) : Except String Json :=
  if E.expressionEvaluator.isNone then .error "no ExpressionEvaluator configured"
  else evaluate expression context

def dispatchInlineJudge (parentInputs : Json) (verdictExpr : String) (passThreshold : Option Rat)
    (onFailure : String) : Json :=
  match E.evalJson evaluate verdictExpr parentInputs with
  | .error e => errorEnvelope ("InlineJudge expression failed: " ++ e)
  | .ok rawVerdict =>
      JudgeVerdict.envelope G.toDoubles "InlineJudge" parentInputs passThreshold onFailure
        (.fromCollapsed G.toDoubles rawVerdict)

section Confidence

variable (executionId nodeId : Uuid) (parentInputs : Json) (threshold : Rat)
  (confidencePath onLowConfidence : String)

/-- The number at the path, and 0 if there is none. -/
def confidenceOf : Rat :=
  ((parentInputs.get confidencePath).bind fun
    | .number n => some (G.asF64 n)
    | _ => none).getD 0

def lowConfidence : String :=
  G.threeDecimals (confidenceOf G parentInputs confidencePath) ++ " < threshold " ++
    G.threeDecimals threshold

/-- The answer of the gate for approvals, when one is configured. -/
def confidenceApproval : Option (Except String ApprovalStatus) :=
  E.approvalGate.map fun gate => gate.checkOrRequest executionId nodeId ["low_confidence"] none

/-- Whoever waits for an approval returns the waiting output as an error. -/
def evaluateConfidenceGate : Except Json Json :=
  let used := G.toJson (confidenceOf G parentInputs confidencePath)
  if threshold ≤ confidenceOf G parentInputs confidencePath then
    .ok (.object (insertFields (objectFields parentInputs)
      [("__confidence_gate_passed__", .bool true), ("__confidence_used__", used)]))
  else if onLowConfidence = "passthrough" then
    .ok (.object (insertFields (objectFields parentInputs)
      [("__confidence_gate_failed__", .bool true), ("__confidence_used__", used)]))
  else if onLowConfidence = "error" then
    .ok (.object (insertFields [("__error", .bool true)]
      [("error_message", .string ("Confidence gate: " ++
        lowConfidence G parentInputs threshold confidencePath)),
        ("__confidence_used__", used)]))
  else
    match E.confidenceApproval executionId nodeId with
    | none => .ok (errorEnvelope "ConfidenceGate pause requires an approval gate")
    | some (.ok .approved) =>
        .ok (.object (insertFields (objectFields parentInputs)
          [("__confidence_gate_passed__", .bool true), ("__confidence_used__", used),
            ("__confidence_gate_approved__", .bool true)]))
    | some (.ok .pending) =>
        .error (.object (insertFields []
          [("__waiting__", .bool true), ("__confidence_used__", used),
            ("message", .string ("Confidence gate paused: " ++
              lowConfidence G parentInputs threshold confidencePath ++ ". Awaiting approval."))]))
    | some (.ok (.denied reason)) => .ok (errorEnvelope reason)
    | some (.ok .unrecognized) =>
        .ok (errorEnvelope "ConfidenceGate approval gate returned an unrecognized status")
    | some (.error e) => .ok (errorEnvelope ("ConfidenceGate approval error: " ++ e))

/-- An approval that is granted accepts the inputs, and one that is denied rejects them. -/
def confidenceRuling : Ruling :=
  if threshold ≤ confidenceOf G parentInputs confidencePath then .accepts
  else if onLowConfidence = "passthrough" ∨ onLowConfidence = "error" then .rejects
  else
    match E.confidenceApproval executionId nodeId with
    | some (.ok .approved) => .accepts
    | some (.ok (.denied _)) => .rejects
    | _ => .undecided

end Confidence

end ParallelWorkflowEngine

/-- The way of a system node behind its handler. -/
inductive Route where
  | fails (message : String)
  | stores (output : Json)
  | pauses (waiting : Json)

def Route.isFailure : Route → Bool
  | .fails _ => true
  | _ => false

def Route.isSuccess : Route → Bool
  | .stores _ => true
  | _ => false

namespace Reactor

variable (R : Reactor H) (N : NodeIndex → Nesting H) (G : GateDoubles)
  (evaluate : String → Json → Except String Json) (idx : NodeIndex) (results : Table Json)

/-- What the function behind the handler of a gate returns. -/
def gateOutput : Option (Except Json Json) :=
  let inputs := R.gatherInputs idx results
  match R.kindOf (R.nodeId idx) with
  | some (.judge judgeWfId rubric passThreshold onFailure _) =>
      some (.ok (R.dispatchJudge (N idx) G.toDoubles inputs judgeWfId rubric passThreshold
        onFailure).report)
  | some (.inlineJudge verdictExpr passThreshold onFailure) =>
      some (.ok (R.dispatchInlineJudge G evaluate inputs verdictExpr passThreshold onFailure))
  | some (.confidenceGate threshold confidencePath onLowConfidence) =>
      some (R.evaluateConfidenceGate G R.executionId (R.nodeId idx) inputs threshold confidencePath
        onLowConfidence)
  | _ => none

/-- The error envelope of a confidence gate is turned into a halt of the node. -/
def tryDispatchConfidenceGate : Except Json Json → Answer
  | .ok output =>
      if isErrorOutput output then
        .error (errorMessageOr output "Confidence gate rejected input")
      else .output output
  | .error waiting => .pause waiting

def gateReport : Option Answer :=
  (R.gateOutput N G evaluate idx results).map fun outcome =>
    match R.kindOf (R.nodeId idx), outcome with
    | some (.confidenceGate ..), outcome => tryDispatchConfidenceGate outcome
    | _, .ok output => .output output
    | _, .error waiting => .pause waiting

def ruling : Ruling :=
  let inputs := R.gatherInputs idx results
  match R.kindOf (R.nodeId idx) with
  | some (.judge judgeWfId rubric passThreshold _ _) =>
      match R.executeSubworkflowGraph (N idx) 0 judgeWfId
          (.object [("content", inputs), ("rubric", .string rubric)]) with
      | .ok run => (JudgeVerdict.fromCollapsed G.toDoubles run.collapsed).ruling passThreshold
      | .error _ => .undecided
  | some (.inlineJudge verdictExpr passThreshold _) =>
      match R.evalJson evaluate verdictExpr inputs with
      | .ok rawVerdict => (JudgeVerdict.fromCollapsed G.toDoubles rawVerdict).ruling passThreshold
      | .error _ => .undecided
  | some (.confidenceGate threshold confidencePath onLowConfidence) =>
      R.confidenceRuling G R.executionId (R.nodeId idx) inputs threshold confidencePath
        onLowConfidence
  | _ => .undecided

def passesThrough : Bool :=
  match R.kindOf (R.nodeId idx) with
  | some (.judge _ _ _ onFailure _)
  | some (.inlineJudge _ _ onFailure) => onFailure = "passthrough"
  | some (.confidenceGate _ _ onLowConfidence) => onLowConfidence = "passthrough"
  | _ => false

/-- The verdict rejects, and the gate does not let the inputs pass all the same. -/
def GateRefuses : Prop :=
  R.ruling N G evaluate idx results = .rejects ∧ R.passesThrough idx = false

def gateFallback : String :=
  match R.kindOf (R.nodeId idx) with
  | some (.confidenceGate ..) => "Confidence gate rejected input"
  | _ => "system node rejected output"

def gateRoute : Option Route :=
  (R.gateOutput N G evaluate idx results).map fun
    | .ok output =>
        if isErrorOutput output then .fails (errorMessageOr output (R.gateFallback idx))
        else .stores output
    | .error waiting => .pauses waiting

def follow (s : State) : Route → Except Halt State
  | .fails message => R.handleNodeFailure (handled s idx) idx message
  | .stores output => .ok (R.insertAndUnblock (handled s idx) idx output)
  | .pauses waiting => .ok (R.pauseAt s idx waiting)

end Reactor

def Annotates (inputs output : Json) : Prop :=
  ∃ added : List (String × Json),
    (∀ field ∈ added, isReserved field.1 = true ∧ "__error" ≠ field.1) ∧
      output = .object (insertFields (objectFields inputs) added)

theorem Annotates.isErrorOutput_eq {inputs output : Json} (h : Annotates inputs output) :
    isErrorOutput output = isErrorOutput inputs := by
  obtain ⟨added, hAdded, rfl⟩ := h
  exact isErrorOutput_insertFields fun field hField => (hAdded field hField).2

theorem annotates_insertFields (inputs : Json) {added : List (String × Json)}
    (h : ∀ field ∈ added, isReserved field.1 = true ∧ "__error" ≠ field.1) :
    Annotates inputs (.object (insertFields (objectFields inputs) added)) :=
  ⟨added, h, rfl⟩

section Outcomes

/-- What a gate makes of its inputs under a ruling: an annotation or an error, or a pause as long
as nothing is decided. -/
inductive Judged (inputs : Json) (through : Bool) : Ruling → Except Json Json → Prop
  | accepted {output : Json} (hOutput : Annotates inputs output) :
      Judged inputs through .accepts (.ok output)
  | passedThrough {output : Json} (hThrough : through = true) (hOutput : Annotates inputs output) :
      Judged inputs through .rejects (.ok output)
  | refused {output : Json} (hThrough : through = false) (hError : isErrorOutput output = true) :
      Judged inputs through .rejects (.ok output)
  | failed {output : Json} (hError : isErrorOutput output = true) :
      Judged inputs through .undecided (.ok output)
  | paused (waiting : Json) : Judged inputs through .undecided (.error waiting)

theorem JudgeVerdict.judged_envelope (D : Doubles) (gate : String) (inputs : Json)
    (passThreshold : Option Rat) (onFailure : String) (verdict : JudgeVerdict) :
    Judged inputs (decide (onFailure = "passthrough")) (verdict.ruling passThreshold)
      (.ok (verdict.envelope D gate inputs passThreshold onFailure)) := by
  rw [ruling]
  split
  · rename_i hPasses
    rw [envelope, if_pos hPasses]
    exact .accepted (annotates_insertFields inputs (by simp; decide))
  · rename_i hRejects
    by_cases hThrough : onFailure = "passthrough"
    · rw [envelope, if_neg hRejects, if_pos hThrough]
      exact .passedThrough (decide_eq_true hThrough)
        (annotates_insertFields inputs (by simp; decide))
    · refine .refused (decide_eq_false hThrough) ?_
      exact ParallelWorkflowEngine.isErrorOutput_envelope.2
        (.inl ⟨Bool.not_eq_true _ ▸ hRejects, hThrough⟩)

theorem ParallelWorkflowEngine.judged_evaluateConfidenceGate (E : ParallelWorkflowEngine H)
    (G : GateDoubles) (executionId nodeId : Uuid) (inputs : Json) (threshold : Rat)
    (confidencePath onLowConfidence : String) :
    Judged inputs (decide (onLowConfidence = "passthrough"))
      (E.confidenceRuling G executionId nodeId inputs threshold confidencePath onLowConfidence)
      (E.evaluateConfidenceGate G executionId nodeId inputs threshold confidencePath
        onLowConfidence) := by
  rw [confidenceRuling, evaluateConfidenceGate]
  split
  · exact .accepted (annotates_insertFields inputs (by simp; decide))
  · by_cases hThrough : onLowConfidence = "passthrough"
    · rw [if_pos (.inl hThrough), if_pos hThrough]
      exact .passedThrough (decide_eq_true hThrough)
        (annotates_insertFields inputs (by simp; decide))
    · by_cases hError : onLowConfidence = "error"
      · rw [if_pos (.inr hError), if_neg hThrough, if_pos hError]
        refine .refused (decide_eq_false hThrough) ?_
        exact (isErrorOutput_congr (lookup_insertFields_ne (by simp) _)).trans rfl
      · rw [if_neg (not_or.2 ⟨hThrough, hError⟩), if_neg hThrough, if_neg hError]
        split
        · rename_i hApproved
          rw [hApproved]
          exact .accepted (annotates_insertFields inputs (by simp; decide))
        · rename_i reason hDenied
          rw [hDenied]
          exact .refused (decide_eq_false hThrough) rfl
        · rename_i hNotApproved hNotDenied
          split
          · exact .failed rfl
          · rename_i hIs
            exact absurd hIs hNotApproved
          · exact .paused _
          · rename_i reason hIs
            exact absurd hIs (hNotDenied reason)
          · exact .failed rfl
          · exact .failed rfl

end Outcomes

namespace Reactor

variable {R : Reactor H} {N : NodeIndex → Nesting H} {G : GateDoubles}
  {evaluate : String → Json → Except String Json} {idx : NodeIndex} {results : Table Json}
  {outcome : Except Json Json} {route : Route}

theorem judged_gateOutput (h : R.gateOutput N G evaluate idx results = some outcome) :
    Judged (R.gatherInputs idx results) (R.passesThrough idx)
      (R.ruling N G evaluate idx results) outcome := by
  unfold gateOutput at h
  unfold ruling passesThrough
  split at h
  · cases h
    simp only [ParallelWorkflowEngine.dispatchJudge]
    cases R.executeSubworkflowGraph (N idx) 0 _ _ with
    | ok run => exact JudgeVerdict.judged_envelope _ _ _ _ _ _
    | error e => exact .failed (SubflowError.isErrorOutput_intoErrorEnvelope _ _)
  · cases h
    simp only [ParallelWorkflowEngine.dispatchInlineJudge]
    cases R.evalJson evaluate _ _ with
    | ok rawVerdict => exact JudgeVerdict.judged_envelope _ _ _ _ _ _
    | error e => exact .failed rfl
  · cases h
    exact R.judged_evaluateConfidenceGate G _ _ _ _ _ _
  · cases h

theorem dispatchKind_gateRoute (h : R.gateRoute N G evaluate idx results = some route)
    (base : State) : ∃ answer, R.gateReport N G evaluate idx results = some answer ∧
      R.dispatchKind base idx (R.kindOf (R.nodeId idx)) answer =
        some (R.follow idx base route) := by
  rw [gateRoute, Option.map_eq_some_iff] at h
  obtain ⟨outcome, hOutput, rfl⟩ := h
  rw [gateReport, hOutput]
  refine ⟨_, rfl, ?_⟩
  unfold gateOutput at hOutput
  split at hOutput
  · rename_i hKind
    cases hOutput
    simp only [hKind, gateFallback, dispatchKind, routeSystemNodeOutput]
    split <;> rfl
  · rename_i hKind
    cases hOutput
    simp only [hKind, gateFallback, dispatchKind, routeSystemNodeOutput]
    split <;> rfl
  · rename_i hKind
    simp only [hKind, gateFallback]
    cases outcome with
    | ok output =>
        simp only [tryDispatchConfidenceGate]
        split <;> rfl
    | error waiting => rfl
  · cases hOutput

/-- A gate that has a verdict takes the way of the verdict just when the inputs are no error or the
verdict refuses them, and a gate without one does not succeed. -/
theorem verdict_decides_route (h : R.gateRoute N G evaluate idx results = some route) :
    (∀ base, ∃ answer, R.gateReport N G evaluate idx results = some answer ∧
      R.dispatchKind base idx (R.kindOf (R.nodeId idx)) answer =
        some (R.follow idx base route)) ∧
    (R.ruling N G evaluate idx results = .undecided → route.isSuccess = false) ∧
    (R.ruling N G evaluate idx results ≠ .undecided →
      ((route.isFailure = true ↔ R.GateRefuses N G evaluate idx results) ∧
          (route.isSuccess = true ↔ ¬ R.GateRefuses N G evaluate idx results) ↔
        isErrorOutput (R.gatherInputs idx results) = false ∨
          R.GateRefuses N G evaluate idx results)) := by
  refine ⟨dispatchKind_gateRoute h, ?_⟩
  rw [gateRoute, Option.map_eq_some_iff] at h
  obtain ⟨outcome, hOutput, rfl⟩ := h
  have hJudged := judged_gateOutput hOutput
  rw [GateRefuses]
  generalize R.ruling N G evaluate idx results = ruling at hJudged
  generalize R.passesThrough idx = through at hJudged
  generalize R.gatherInputs idx results = inputs at hJudged
  cases hJudged with
  | accepted hAnnotates =>
      simp only [hAnnotates.isErrorOutput_eq]
      cases isErrorOutput inputs <;> simp [Route.isFailure, Route.isSuccess]
  | passedThrough hThrough hAnnotates =>
      simp only [hAnnotates.isErrorOutput_eq, hThrough]
      cases isErrorOutput inputs <;> simp [Route.isFailure, Route.isSuccess]
  | refused hThrough hError =>
      simp [hError, hThrough, Route.isFailure, Route.isSuccess]
  | failed hError => simp [hError, Route.isSuccess]
  | paused waiting => simp [Route.isSuccess]

end Reactor

section Payloads

/-- The value is still there: its own fields if it is an object, else the value under some key. -/
def Contains (output : Json) : Json → Prop
  | .object fields => ∀ key value, isReserved key = false → fields.lookup key = some value →
      output.get key = some value
  | value => ∃ key, isReserved key = false ∧ output.get key = some value

theorem lookup_insertFields_unreserved {fields added : List (String × Json)} {key : String}
    (hAdded : ∀ field ∈ added, isReserved field.1 = true) (hKey : isReserved key = false) :
    (insertFields fields added).lookup key = fields.lookup key := by
  apply lookup_insertFields_ne
  rintro field hField rfl
  rw [hAdded field hField] at hKey
  cases hKey

/-- Reserved fields beside a value keep it just when it is an object. -/
theorem contains_insertFields (value : Json) {added : List (String × Json)}
    (hAdded : ∀ field ∈ added, isReserved field.1 = true) :
    Contains (.object (insertFields (objectFields value) added)) value ↔
      ∃ fields, value = .object fields := by
  have hNone : ∀ key, isReserved key = false → objectFields value = [] →
      (Json.object (insertFields (objectFields value) added)).get key = none := by
    intro key hKey hNil
    rw [hNil]
    exact lookup_insertFields_unreserved hAdded hKey
  cases value with
  | object fields =>
      refine iff_of_true ?_ ⟨fields, rfl⟩
      intro key found hKey hFound
      exact (lookup_insertFields_unreserved hAdded hKey).trans hFound
  | null | bool | number | string | array =>
      refine iff_of_false ?_ ?_
      · rintro ⟨key, hKey, hFound⟩
        rw [hNone key hKey rfl] at hFound
        cases hFound
      · rintro ⟨fields, hIs⟩
        cases hIs

theorem Annotates.contains_iff {inputs output : Json} (h : Annotates inputs output) :
    Contains output inputs ↔ ∃ fields, inputs = .object fields := by
  obtain ⟨added, hAdded, rfl⟩ := h
  exact contains_insertFields inputs fun field hField => (hAdded field hField).1

/-- What passes a gate, and what wins an ensemble, is kept just when it is an object. -/
theorem payload_kept_iff :
    (∀ (R : Reactor H) (N : NodeIndex → Nesting H) (G : GateDoubles)
      (evaluate : String → Json → Except String Json) (idx : NodeIndex) (results : Table Json)
      (outcome : Except Json Json), R.gateOutput N G evaluate idx results = some outcome →
        R.ruling N G evaluate idx results = .accepts ∨
          R.ruling N G evaluate idx results = .rejects ∧ R.passesThrough idx = true →
        ∃ output, outcome = .ok output ∧ (Contains output (R.gatherInputs idx results) ↔
          ∃ fields, R.gatherInputs idx results = .object fields)) ∧
    ∀ (E : ParallelWorkflowEngine H) (N : Nesting H) (D : Doubles) (order : VoteOrder)
      (inputs : Json) (childWfId : Uuid) (runCount : UInt32) (strategy : String)
      (judgeWfId : Option Uuid) (handled : Handled H Json),
      E.dispatchEnsemble N D order inputs childWfId runCount strategy judgeWfId = some handled →
        ∃ chosen, E.consensus N D order strategy judgeWfId (((List.range runCount.toNat).map
          (E.ensembleChild N childWfId (stripReserved inputs))).map
            ParallelWorkflowEngine.childOutput) = some chosen ∧
          (Contains handled.report chosen.report ↔ ∃ fields, chosen.report = .object fields) := by
  constructor
  · intro R N G evaluate idx results outcome hOutput hPasses
    have hJudged := Reactor.judged_gateOutput hOutput
    generalize R.ruling N G evaluate idx results = ruling at hJudged hPasses
    generalize R.passesThrough idx = through at hJudged hPasses
    cases hJudged with
    | accepted hAnnotates => exact ⟨_, rfl, hAnnotates.contains_iff⟩
    | passedThrough hThrough hAnnotates => exact ⟨_, rfl, hAnnotates.contains_iff⟩
    | refused hThrough hError =>
        rw [hThrough] at hPasses
        simp at hPasses
    | failed hError => simp at hPasses
    | paused waiting => simp at hPasses
  · intro E N D order inputs childWfId runCount strategy judgeWfId handled hHandled
    simp only [ParallelWorkflowEngine.dispatchEnsemble, Option.map_eq_some_iff] at hHandled
    obtain ⟨chosen, hChosen, rfl⟩ := hHandled
    refine ⟨chosen, hChosen, contains_insertFields chosen.report ?_⟩
    simp
    decide

end Payloads

section Samples

open Multigraph

def unitDoubles : GateDoubles where
  asF64
    | .posInt n => n.toNat
    | .negInt k => -(k.val + 1 : Int)
    | .float _ => 0
  toJson _ := .number (.float oneLexeme)
  twoDecimals _ := "1.00"
  threeDecimals _ := "1.000"

/-- A module that may fail, and a judge of its output behind it. -/
def gatedEngine : ParallelWorkflowEngine (bareHost true) :=
  { ParallelWorkflowEngine.new with
    graph := twoNodes
    nodeMeta := nodeTable [(1, moduleNode), (2, systemNode (.inlineJudge "verdict" none "error"))]
    nodeConfigs := nodeTable [(1, .object [("__continue_on_error", .bool true)])]
    expressionEvaluator := some ⟨fun _ _ => true⟩
    moduleFetcher := some sampleFetcher
    secretsResolver := some ⟨fun _ => .ok ∅, fun _ _ => .ok ∅, fun _ => .ok ∅⟩
    userId := some 5 }

def approving : String → Json → Except String Json := fun _ _ =>
  .ok (.object [("feedback", .string ""), ("passed", .bool true), ("reasoning", .string "fine"),
    ("score", .number (.posInt 1))])

theorem gatedEngine_acyclic : gatedEngine.graph.Acyclic :=
  acyclic_of_rank id (show ∀ e ∈ twoNodes.edges, id e.source < id e.target by decide)

def answered : Table Json := nodeTable [(1, .object [("answer", .string "yes")])]

theorem verdict_decides_route_answered :
    ∃ route, (gatedEngine.reactor 9 ∅).gateRoute (fun _ => approvalNesting) unitDoubles approving 1
        answered = some route ∧
      ((route.isFailure = true ↔ (gatedEngine.reactor 9 ∅).GateRefuses (fun _ => approvalNesting)
          unitDoubles approving 1 answered) ∧
        (route.isSuccess = true ↔ ¬ (gatedEngine.reactor 9 ∅).GateRefuses
          (fun _ => approvalNesting) unitDoubles approving 1 answered)) := by
  have hSome : ((gatedEngine.reactor 9 ∅).gateRoute (fun _ => approvalNesting) unitDoubles approving
      1 answered).isSome := by decide
  obtain ⟨route, hRoute⟩ := Option.isSome_iff_exists.1 hSome
  obtain ⟨-, -, hDecided⟩ := Reactor.verdict_decides_route hRoute
  exact ⟨route, hRoute, (hDecided (by decide)).2 (.inl (by decide))⟩

/-- The module fails and may be continued; the judge accepts what it left, and is failed for it. -/
theorem accepted_error_fails_gate :
    ∃ s route, gatedEngine.Runs 9 ∅ (fun _ _ _ => True) s ∧
      (gatedEngine.reactor 9 ∅).handledHead s = some 1 ∧
      (gatedEngine.reactor 9 ∅).ruling (fun _ => approvalNesting) unitDoubles approving 1
        s.results = .accepts ∧
      (gatedEngine.reactor 9 ∅).gateRoute (fun _ => approvalNesting) unitDoubles approving 1
        s.results = some route ∧ route.isFailure = true := by
  let R := gatedEngine.reactor 9 ∅
  have hReplay : (replay R.step (fun _ _ => True)
      [.pop .accepted, .finish 0 (.error "boom") 1, .visit] (R.initialState ∅)).map (fun s =>
        decide (R.handledHead s = some 1 ∧
          R.ruling (fun _ => approvalNesting) unitDoubles approving 1 s.results = .accepts ∧
          (R.gateRoute (fun _ => approvalNesting) unitDoubles approving 1 s.results).any
            Route.isFailure = true)) = some true := by
    decide
  obtain ⟨s, hs, hObserved⟩ := Option.map_eq_some_iff.1 hReplay
  obtain ⟨hHead, hAccepts, hAny⟩ := of_decide_eq_true hObserved
  obtain ⟨route, hRoute, hFails⟩ := (Option.any_eq_true _ _).1 hAny
  exact ⟨s, route, ⟨gatedEngine_acyclic, replay_run hs⟩, hHead, hAccepts, hRoute, hFails⟩

theorem payload_kept_iff_answered :
    (∃ output, (gatedEngine.reactor 9 ∅).gateOutput (fun _ => approvalNesting) unitDoubles approving
        1 answered = some (.ok output) ∧
      Contains output ((gatedEngine.reactor 9 ∅).gatherInputs 1 answered)) ∧
    ∃ handled chosen : Handled (bareHost true) Json,
      gatedEngine.dispatchEnsemble approvalNesting sampleDoubles sampleVoteOrder .null 5 1
        "first_pass" none = some handled ∧ Contains handled.report chosen.report := by
  obtain ⟨hGates, hEnsembles⟩ := payload_kept_iff (H := bareHost true)
  constructor
  · have hSome : ((gatedEngine.reactor 9 ∅).gateOutput (fun _ => approvalNesting) unitDoubles
        approving 1 answered).isSome := by decide
    obtain ⟨outcome, hOutput⟩ := Option.isSome_iff_exists.1 hSome
    obtain ⟨output, rfl, hKept⟩ := hGates (gatedEngine.reactor 9 ∅) (fun _ => approvalNesting)
      unitDoubles approving 1 answered outcome hOutput (.inl (by decide))
    exact ⟨output, hOutput, hKept.2 ⟨_, rfl⟩⟩
  · have hSome : (gatedEngine.dispatchEnsemble approvalNesting sampleDoubles sampleVoteOrder .null 5
        1 "first_pass" none).isSome := by decide
    obtain ⟨handled, hHandled⟩ := Option.isSome_iff_exists.1 hSome
    obtain ⟨chosen, hChosen, hKept⟩ := hEnsembles gatedEngine approvalNesting sampleDoubles
      sampleVoteOrder .null 5 1 "first_pass" none handled hHandled
    refine ⟨handled, chosen, hHandled, hKept.2 ?_⟩
    cases hChosen
    exact ⟨_, rfl⟩

/-- The module returns a list; the judge accepts it, and its output has nothing of the list. -/
theorem accepted_list_dropped :
    ∃ s output, gatedEngine.Runs 9 ∅ (fun _ _ _ => True) s ∧
      (gatedEngine.reactor 9 ∅).handledHead s = some 1 ∧
      (gatedEngine.reactor 9 ∅).ruling (fun _ => approvalNesting) unitDoubles approving 1
        s.results = .accepts ∧
      (gatedEngine.reactor 9 ∅).gateOutput (fun _ => approvalNesting) unitDoubles approving 1
        s.results = some (.ok output) ∧
      (gatedEngine.reactor 9 ∅).gatherInputs 1 s.results = .array [.bool true] ∧
      ¬ Contains output ((gatedEngine.reactor 9 ∅).gatherInputs 1 s.results) := by
  let R := gatedEngine.reactor 9 ∅
  have hReplay : (replay R.step (fun _ _ => True)
      [.pop .accepted, .finish 0 (.ok (.array [.bool true])) 1, .visit]
      (R.initialState ∅)).map (fun s =>
        decide (R.handledHead s = some 1 ∧
          R.ruling (fun _ => approvalNesting) unitDoubles approving 1 s.results = .accepts ∧
          R.gatherInputs 1 s.results = .array [.bool true] ∧
          (R.gateOutput (fun _ => approvalNesting) unitDoubles approving 1 s.results).isSome =
            true)) = some true := by
    decide
  obtain ⟨s, hs, hObserved⟩ := Option.map_eq_some_iff.1 hReplay
  obtain ⟨hHead, hAccepts, hInputs, hSome⟩ := of_decide_eq_true hObserved
  obtain ⟨outcome, hOutput⟩ := Option.isSome_iff_exists.1 hSome
  have hJudged := Reactor.judged_gateOutput hOutput
  rw [hAccepts] at hJudged
  cases hJudged with
  | accepted hAnnotates =>
      refine ⟨s, _, ⟨gatedEngine_acyclic, replay_run hs⟩, hHead, hAccepts, hOutput, hInputs, ?_⟩
      rw [hAnnotates.contains_iff, hInputs]
      rintro ⟨fields, hIs⟩
      cases hIs

end Samples

end TalosWorkflow
