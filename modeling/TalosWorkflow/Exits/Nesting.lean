import TalosWorkflow.Gating.Edges
import TalosWorkflow.Handlers.Gates
import TalosWorkflow.Policy.DryRun

/-!
# Nested pauses

What becomes of a node whose handler was given the context of a nested run
that is only paused.
-/

namespace TalosWorkflow

open Multigraph

variable {H : Host}

namespace Reactor

variable (R : Reactor H) (N : NodeIndex → Nesting H) (D : Doubles) (order : VoteOrder)

section Definitions

def nestedReport (idx : NodeIndex) (results : Table Json) : Option (Handled H Answer) :=
  let inputs := R.gatherInputs idx results
  match R.kindOf (R.nodeId idx) with
  | some (.judge judgeWfId rubric passThreshold onFailure _) =>
      some ((R.dispatchJudge (N idx) D inputs judgeWfId rubric passThreshold onFailure).map .output)
  | some (.ensemble childWfId runCount strategy judgeWfId _) =>
      (R.dispatchEnsemble (N idx) D order inputs childWfId runCount strategy judgeWfId).map
        (Handled.map .output)
  | some (.agentLoop bodyWfId maxIters injectHistory timeoutSecs)
  | some (.reActLoop bodyWfId maxIters injectHistory timeoutSecs) =>
      some ((R.tryDispatchAgentLoop (N idx) bodyWfId maxIters injectHistory timeoutSecs inputs).map
        .output)
  | some (.dynamicDispatch dispatchExpression _) =>
      some ((R.tryDispatchDynamicDispatch (N idx) dispatchExpression inputs).map fun
        | .ok output => .output output
        | .error message => .error message)
  | some (.capabilityDispatch requiredCapabilities fallbackWorkflowId _) =>
      some ((R.tryDispatchCapabilityDispatch (N idx) requiredCapabilities fallbackWorkflowId
        inputs).map .output)
  | _ => none

def subWorkflowReport (idx : NodeIndex) (results : Table Json) : Handled H Json :=
  match R.kindOf (R.nodeId idx) with
  | some (.subWorkflow workflowId _) => R.tryDispatchSubWorkflow (N idx) idx workflowId results
  | _ => ⟨.null, []⟩

/-- A step in which the handler of a node runs stored workflows, and what it is given of them. -/
inductive Dispatches (s : State) : Action → NodeIndex → List (NestedRun H) → Prop
  | handled (idx : NodeIndex) (handled : Handled H Answer) (hHead : R.handledHead s = some idx)
      (hReport : R.nestedReport N D order idx s.results = some handled) :
      Dispatches s (.pop handled.report) idx handled.runs
  | batched (idx n : NodeIndex) (nodes : List NodeIndex) (hHead : R.handledHead s = some idx)
      (hKind : R.isSubWorkflowNode idx = true)
      (hNodes : nodes = idx :: s.ready.tail.filter R.isSubWorkflowNode) (hMem : n ∈ nodes) :
      Dispatches s (.pop (.outputs (nodes.map fun m => (R.subWorkflowReport N m s.results).report)))
        n (R.subWorkflowReport N n s.results).runs

/-- One of the nested runs has stopped at a node that waits. -/
def TakesPaused (s : State) (action : Action) (n : NodeIndex) (runs : List (NestedRun H)) : Prop :=
  R.Dispatches N D order s action n runs ∧ ∃ run ∈ runs, run.context.waiting = true

def DefaultSuccessor (n x : NodeIndex) : Prop := R.graph.Arc n x ∧ R.hasErrorEdge n x = false

/-- No successful output is recorded for the node, and its default successors are not started. -/
structure Withheld (n : NodeIndex) (s t : State) : Prop where
  recorded : ∀ output, t.results.lookup (R.nodeId n) = some output →
    s.results.lookup (R.nodeId n) = some output ∨ isErrorOutput output = true ∨ output = skippedMark
  undispatched : ∃ events, t.history = events ++ s.history ∧
    ∀ x, R.DefaultSuccessor n x → x ∉ startedNodes events

/-- What the handler makes of the partial results is an error. -/
def Refuses (idx : NodeIndex) (results : Table Json) (runs : List (NestedRun H)) : Prop :=
  let inputs := R.gatherInputs idx results
  match R.kindOf (R.nodeId idx) with
  | some (.judge _ _ passThreshold onFailure _) =>
      isErrorOutput inputs = true ∨ onFailure ≠ "passthrough" ∧ ∀ run ∈ runs,
        (JudgeVerdict.fromCollapsed D run.collapsed).passes passThreshold = false
  | some (.ensemble childWfId runCount strategy judgeWfId _) =>
      R.NoConsensus (N idx) strategy judgeWfId (((List.range runCount.toNat).map
        (R.ensembleChild (N idx) childWfId (stripReserved inputs))).map
          ParallelWorkflowEngine.childOutput)
  | some (.agentLoop bodyWfId maxIters injectHistory _)
  | some (.reActLoop bodyWfId maxIters injectHistory _) =>
      R.agentExpires (N idx) bodyWfId maxIters injectHistory inputs
  | some (.dynamicDispatch ..)
  | some (.capabilityDispatch ..) =>
      ∀ run ∈ runs, isErrorOutput (.object (insertFields [] run.labelled)) = true
  | some (.subWorkflow ..) => ∀ run ∈ runs, isErrorOutput run.collapsed = true
  | _ => False

def failsRun (idx : NodeIndex) : Bool :=
  match R.kindOf (R.nodeId idx) with
  | some (.judge ..)
  | some (.ensemble ..)
  | some (.dynamicDispatch ..) => R.errorChildren idx = [] && !R.continueOnError (R.nodeId idx)
  | some (.capabilityDispatch ..) => !R.continueOnError (R.nodeId idx)
  | _ => false

/-- An error of the handler goes along the error edges of the node. -/
def routesErrors (idx : NodeIndex) : Bool :=
  match R.kindOf (R.nodeId idx) with
  | some (.judge ..)
  | some (.ensemble ..)
  | some (.dynamicDispatch ..) => R.errorChildren idx ≠ []
  | _ => false

/-- The partial results are refused, and the refusal does not reach a default successor. -/
def HoldsBack (s : State) (n : NodeIndex) (runs : List (NestedRun H)) : Prop :=
  R.Refuses N D n s.results runs ∧
    (R.failsRun n = true ∨ (∀ x, ¬ R.DefaultSuccessor n x) ∨
      R.routesErrors n = true ∧ ∀ x, R.DefaultSuccessor n x → x ∉ s.ready)

/-- The node is not dispatched or completed once more, and no other node releases one of its
default successors. -/
structure Spares (n : NodeIndex) (s : State) (action : Action) : Prop where
  leaves : n ∉ R.leaving s action
  records : ∀ m ∈ R.recording s action, R.nodeId m = R.nodeId n → action matches .store ∧ m = n
  visits : action matches .visit → ∀ visit ∈ s.visits.head?, visit.source ≠ n →
    R.DefaultSuccessor n visit.target → ¬ R.fillsNow s visit.target

/-- What is left of the node in the queues does not lead to a default successor. -/
structure Isolated (n : NodeIndex) (s : State) : Prop where
  ready : ∀ x, R.DefaultSuccessor n x → x ∉ s.ready
  visits : ∀ visit ∈ s.visits, visit.source = n →
    visit.mode = .routes ∨ ¬ R.DefaultSuccessor n visit.target
  batch : ∀ entry ∈ s.batch, entry.1 = n →
    isErrorOutput entry.2 = true ∧ ∀ x, ¬ R.DefaultSuccessor n x

end Definitions

variable {R : Reactor H} {N : NodeIndex → Nesting H} {D : Doubles} {order : VoteOrder}
  {s t u : State} {n idx : NodeIndex} {action : Action}

section Reports

/-- A refusal is reported as an error output, or by a dynamic dispatch as an error. -/
theorem nestedReport_refused {results : Table Json} {handled : Handled H Answer}
    (hReport : R.nestedReport N D order idx results = some handled)
    (h : R.Refuses N D idx results handled.runs) :
    match R.kindOf (R.nodeId idx) with
    | some (.dynamicDispatch ..) => ∃ message, handled.report = .error message
    | _ => ∃ output, handled.report = .output output ∧ isErrorOutput output = true := by
  unfold nestedReport at hReport
  unfold Refuses at h
  split at hReport
  · rename_i hKind
    rw [hKind] at h ⊢
    cases hReport
    exact ⟨_, rfl, ParallelWorkflowEngine.dispatchJudge_refused h⟩
  · rename_i hKind
    rw [hKind] at h ⊢
    rw [Option.map_eq_some_iff] at hReport
    obtain ⟨chosen, hChosen, rfl⟩ := hReport
    exact ⟨_, rfl, ParallelWorkflowEngine.dispatchEnsemble_refused hChosen h⟩
  · rename_i hKind
    rw [hKind] at h ⊢
    cases hReport
    exact ⟨_, rfl, ParallelWorkflowEngine.tryDispatchAgentLoop_refused h⟩
  · rename_i hKind
    rw [hKind] at h ⊢
    cases hReport
    exact ⟨_, rfl, ParallelWorkflowEngine.tryDispatchAgentLoop_refused h⟩
  · rename_i hKind
    rw [hKind] at h ⊢
    cases hReport
    obtain ⟨message, hError⟩ := ParallelWorkflowEngine.tryDispatchDynamicDispatch_refused h
    refine ⟨message, ?_⟩
    simp only [Handled.map, hError]
  · rename_i hKind
    rw [hKind] at h ⊢
    cases hReport
    exact ⟨_, rfl, ParallelWorkflowEngine.tryDispatchCapabilityDispatch_refused h⟩
  · cases hReport

/-- A handled failure is recorded as an error, and error edges are followed first. -/
theorem failureVerdict_error {message : String} {mode : Completion} {value : Json}
    (h : R.failureVerdict idx message = some (mode, value)) :
    isErrorOutput value = true ∧
      (decide (R.errorChildren idx = []) && !R.continueOnError (R.nodeId idx)) = false ∧
        (decide (R.errorChildren idx ≠ []) = true → mode = .routes) := by
  unfold failureVerdict at h
  split at h
  · rename_i hChildren
    cases h
    exact ⟨rfl, by simp [hChildren], fun _ => rfl⟩
  · rename_i hNone
    split at h
    · rename_i hContinues
      cases h
      exact ⟨rfl, by simp [hContinues], fun hChildren => absurd (of_decide_eq_true hChildren) hNone⟩
    · cases h

/-- A refusal that does not fail the run is recorded as an error. -/
theorem handlerVerdict_refused {results : Table Json} {handled : Handled H Answer}
    {mode : Completion} {value : Json}
    (hReport : R.nestedReport N D order idx results = some handled)
    (h : R.Refuses N D idx results handled.runs)
    (hVerdict : R.handlerVerdict idx (R.kindOf (R.nodeId idx)) handled.report =
      some (mode, value)) :
    isErrorOutput value = true ∧ R.failsRun idx = false ∧
      (R.routesErrors idx = true → mode = .routes) := by
  have hRefused := nestedReport_refused hReport h
  unfold nestedReport at hReport
  unfold failsRun routesErrors
  generalize handled.report = answer at hRefused hVerdict
  split at hReport
  · rename_i hKind
    rw [hKind] at hRefused hVerdict ⊢
    obtain ⟨output, rfl, hError⟩ := hRefused
    rw [handlerVerdict, if_pos hError] at hVerdict
    exact failureVerdict_error hVerdict
  · rename_i hKind
    rw [hKind] at hRefused hVerdict ⊢
    obtain ⟨output, rfl, hError⟩ := hRefused
    rw [handlerVerdict, if_pos hError] at hVerdict
    exact failureVerdict_error hVerdict
  · rename_i hKind
    rw [hKind] at hRefused hVerdict ⊢
    obtain ⟨output, rfl, hError⟩ := hRefused
    cases hVerdict
    exact ⟨hError, rfl, fun hRoutes => (by cases hRoutes)⟩
  · rename_i hKind
    rw [hKind] at hRefused hVerdict ⊢
    obtain ⟨output, rfl, hError⟩ := hRefused
    cases hVerdict
    exact ⟨hError, rfl, fun hRoutes => (by cases hRoutes)⟩
  · rename_i hKind
    rw [hKind] at hRefused hVerdict ⊢
    obtain ⟨message, rfl⟩ := hRefused
    exact failureVerdict_error hVerdict
  · rename_i hKind
    rw [hKind] at hRefused hVerdict ⊢
    obtain ⟨output, rfl, hError⟩ := hRefused
    simp only [handlerVerdict, hError, Bool.true_and] at hVerdict
    split at hVerdict
    · cases hVerdict
    · rename_i hContinues
      cases hVerdict
      exact ⟨hError, by simpa using hContinues, fun hRoutes => (by cases hRoutes)⟩
  · cases hReport

end Reports

section Steps

theorem halt_history (s : State) (e : Halt) :
    ∃ events, (s.halt e).history = events ++ s.history ∧ startedNodes events = [] := by
  cases e with
  | failed message => exact ⟨[], rfl, rfl⟩
  | counterUnderflow idx => exact ⟨[.underflow idx], rfl, rfl⟩
  | charBoundary => exact ⟨[], rfl, rfl⟩

/-- What a step starts was ready, unless it follows in a chain. -/
theorem step_started (hOrderly : Orderly R s) (hStep : R.step s action = some t) :
    ∃ events, t.history = events ++ s.history ∧
      ∀ x ∈ startedNodes events, x ∈ s.ready ∨ R.IsFollower x := by
  obtain ⟨-, hStepped | ⟨e, -, rfl⟩⟩ := step_cases hStep
  · cases hOrderly.moved hStepped with
    | visited visit rest _ hVisits hVisit =>
        obtain ⟨events, hHistory, hEvents⟩ := visited_history hVisit
        refine ⟨events, hHistory, fun x hx => ?_⟩
        rw [startedNodes_visited hEvents] at hx
        cases hx
    | concluded _ start idx base events mode value hConcluding =>
        refine ⟨.released idx :: events, ?_, fun x hx => ?_⟩
        · rw [conclude_history, hConcluding.shifted.history]
          rfl
        · rw [startedNodes_cons] at hx
          exact .inl (hConcluding.started_ready hx)
    | relocated _ _ events hRelocating =>
        refine ⟨events, hRelocating.shifted.history, fun x hx => ?_⟩
        obtain hReady | ⟨members, ⟨idx, -, hChain, -⟩, -, hTail⟩ := hRelocating.started_ready hx
        · exact .inl hReady
        · exact .inr (isFollower_of_mem_tail (chainOf_eq_some hChain).1 hTail)
    | paused idx rest answer waiting hVisits hBatch hReady =>
        refine ⟨[.executed idx, .dispatched idx], rfl, fun x hx => .inl ?_⟩
        rw [List.mem_singleton.1 hx, hReady]
        exact List.mem_cons_self
  · obtain ⟨events, hHistory, hNone⟩ := halt_history s e
    refine ⟨events, hHistory, fun x hx => ?_⟩
    rw [hNone] at hx
    cases hx

theorem DefaultSuccessor.not_isFollower (hChains : R.ChainsDetected) (hPlain : R.chainOf n = none)
    {x : NodeIndex} (h : R.DefaultSuccessor n x) : ¬ R.IsFollower x :=
  fun hFollower => not_isInner_of_chainOf_none hPlain (isInner_of_arc hChains hFollower h.1)

/-- A visit that makes a default successor ready comes from another node. -/
theorem Isolated.visited (h : R.Isolated n s) (hSpares : R.Spares n s .visit) {visit : Visit}
    {rest : List Visit} (hVisits : s.visits = visit :: rest)
    (hVisit : Visited R { s with visits := rest } visit t) : R.Isolated n t := by
  obtain ⟨-, hBatch, -⟩ := visited_queues hVisit
  refine ⟨fun x hx hReady => ?_, fun other hOther => ?_, fun entry hEntry => ?_⟩
  · have hOld : x ∉ s.ready := h.ready x hx
    cases hVisit with
    | cascaded =>
        rw [cascadeSkip_eq] at hReady
        exact hOld hReady
    | marked => exact hOld hReady
    | counted => exact hOld hReady
    | wrapped => exact hOld hReady
    | enqueued events hMarks hFills =>
        obtain hIn | hNew := List.mem_append.1 hReady
        · exact hOld hIn
        · rw [List.mem_singleton] at hNew
          subst hNew
          by_cases hSource : visit.source = n
          · obtain hRoutes | hNot := h.visits visit (hVisits ▸ List.mem_cons_self) hSource
            · rw [marks, hRoutes, hSource, hx.2] at hMarks
              cases hMarks
            · exact hNot hx
          · exact hSpares.visits rfl visit (by rw [hVisits]; rfl) hSource hx hFills.fillsNow
  · rw [(visited_rest hVisit).1] at hOther
    exact h.visits other (hVisits ▸ List.mem_cons_of_mem _ hOther)
  · rw [hBatch] at hEntry
    exact h.batch entry hEntry

/-- The node itself is only completed when its refused output is taken from the batch. -/
theorem Isolated.concluded (h : R.Isolated n s) (hSpares : R.Spares n s action)
    {start : NodeIndex} {base : State} {events : List Event} {mode : Completion} {value : Json}
    (hConcluding : Concluding R s action start idx base events mode value) :
    R.Isolated n (R.conclude base idx mode value) ∧
      (R.nodeId idx = R.nodeId n → isErrorOutput value = true) := by
  have hStored : R.nodeId idx = R.nodeId n →
      idx = n ∧ isErrorOutput value = true ∧ ∀ x, ¬ R.DefaultSuccessor n x := by
    intro hId
    obtain ⟨hStore, rfl⟩ := hSpares.records idx hConcluding.recording hId
    cases hConcluding with
    | stored _ _ rest _ hBatch =>
        exact ⟨rfl, h.batch (idx, value) (hBatch ▸ List.mem_cons_self) rfl⟩
    | popped => cases hStore
    | returned => cases hStore
  refine ⟨⟨fun x hx hReady => ?_, fun visit hVisit hSource => ?_, fun entry hEntry => ?_⟩,
    fun hId => (hStored hId).2.1⟩
  · rw [conclude_ready] at hReady
    refine h.ready x hx ?_
    cases hConcluding with
    | stored => exact hReady
    | popped _ rest _ _ _ _ _ _ hPopped => exact hPopped ▸ List.mem_cons_of_mem _ hReady
    | returned => exact hReady
  · rw [conclude_visits, List.mem_map] at hVisit
    obtain ⟨child, -, rfl⟩ := hVisit
    exact .inr ((hStored (congrArg R.nodeId hSource)).2.2 _)
  · rw [conclude_batch] at hEntry
    exact h.batch entry (hConcluding.queues.2 hEntry)

theorem Isolated.relocated (h : R.Isolated n s) (hSpares : R.Spares n s action)
    {events : List Event} (hRelocating : Relocating R s action t events) : R.Isolated n t := by
  cases hRelocating with
  | launchedSingle idx rest _ _ hReady =>
      refine ⟨fun x hx hIn => ?_, h.visits, h.batch⟩
      exact h.ready x hx (hReady ▸ List.mem_cons_of_mem _ hIn)
  | launchedChain idx rest _ _ _ _ hReady =>
      refine ⟨fun x hx hIn => ?_, h.visits, h.batch⟩
      exact h.ready x hx (hReady ▸ List.mem_cons_of_mem _ hIn)
  | drained idx rest values _ _ hReady hPlain hSkips hKind =>
      refine ⟨fun x hx hIn => ?_, h.visits, fun entry hEntry hSelf => ?_⟩
      · exact h.ready x hx (hReady ▸ List.mem_cons_of_mem _ (List.mem_of_mem_filter hIn))
      · have hLeaves := hSpares.leaves
        rw [leaving_drained hReady hPlain hSkips hKind] at hLeaves
        exact absurd (hSelf ▸ (List.of_mem_zip hEntry).1) hLeaves

theorem Withheld.step (hChains : R.ChainsDetected) (hPlain : R.chainOf n = none)
    (hOrderly : Orderly R s) (h : R.Withheld n u s) (hIsolated : R.Isolated n s)
    (hSpares : R.Spares n s action) (hStep : R.step s action = some t) :
    R.Withheld n u t ∧ (t.status = .running → R.Isolated n t) := by
  obtain ⟨events, hHistory, hStarted⟩ := step_started hOrderly hStep
  obtain ⟨earlier, hBefore, hNone⟩ := h.undispatched
  have hUndispatched : ∃ events, t.history = events ++ u.history ∧
      ∀ x, R.DefaultSuccessor n x → x ∉ startedNodes events := by
    refine ⟨events ++ earlier, by rw [hHistory, hBefore, List.append_assoc], fun x hx hIn => ?_⟩
    rw [startedNodes_append, List.mem_append] at hIn
    obtain hNew | hOld := hIn
    · obtain hReady | hFollower := hStarted x hNew
      · exact hIsolated.ready x hx hReady
      · exact hx.not_isFollower hChains hPlain hFollower
    · exact hNone x hx hOld
  have hInsert : ∀ (m : NodeIndex) (value : Json),
      t.results = s.results.insert (R.nodeId m) value →
      (R.nodeId m = R.nodeId n → isErrorOutput value = true ∨ value = skippedMark) →
      R.Withheld n u t := by
    intro m value hResults hValue
    refine ⟨fun output hOutput => ?_, hUndispatched⟩
    rw [hResults] at hOutput
    by_cases hId : R.nodeId n = R.nodeId m
    · rw [hId, AList.lookup_insert] at hOutput
      cases hOutput
      exact .inr (hValue hId.symm)
    · rw [AList.lookup_insert_ne hId] at hOutput
      exact h.recorded output hOutput
  have hSame : t.results = s.results → R.Withheld n u t := by
    intro hResults
    refine ⟨fun output hOutput => ?_, hUndispatched⟩
    rw [hResults] at hOutput
    exact h.recorded output hOutput
  obtain ⟨-, hStepped | ⟨e, -, rfl⟩⟩ := step_cases hStep
  · cases hOrderly.moved hStepped with
    | visited visit rest _ hVisits hVisit =>
        refine ⟨?_, fun _ => hIsolated.visited hSpares hVisits hVisit⟩
        obtain hResults | hResults := visited_results hVisit
        · exact hSame hResults
        · exact hInsert _ _ hResults fun _ => .inr rfl
    | concluded _ start idx base events mode value hConcluding =>
        obtain ⟨hKept, hError⟩ := hIsolated.concluded hSpares hConcluding
        refine ⟨hInsert idx value ?_ fun hId => .inl (hError hId), fun _ => hKept⟩
        rw [conclude_results, hConcluding.shifted.results]
    | relocated _ _ events hRelocating =>
        exact ⟨hSame hRelocating.shifted.results, fun _ => hIsolated.relocated hSpares hRelocating⟩
    | paused idx rest answer waiting _ _ hReady hUnchained =>
        refine ⟨hInsert idx waiting rfl fun hId => ?_, fun hRunning => (by cases hRunning)⟩
        have hRecords : idx ∈ R.recording s (.pop answer) := by
          simp [recording, hReady, hUnchained]
        cases (hSpares.records idx hRecords hId).1
  · refine ⟨hSame ?_, fun hRunning => ?_⟩
    · cases e <;> rfl
    · cases e <;> cases hRunning

end Steps

theorem isSubWorkflowNode_iff : R.isSubWorkflowNode idx = true ↔
    ∃ workflowId timeoutSecs, R.kindOf (R.nodeId idx) = some (.subWorkflow workflowId timeoutSecs) := by
  unfold isSubWorkflowNode
  split
  · rename_i workflowId timeoutSecs hKind
    exact iff_of_true rfl ⟨workflowId, timeoutSecs, hKind⟩
  · rename_i hNot
    refine iff_of_false (by simp) ?_
    rintro ⟨workflowId, timeoutSecs, hKind⟩
    exact hNot workflowId timeoutSecs hKind

section Pauses

variable {runs : List (NestedRun H)} {rest : List NodeIndex} {answer : Answer}

theorem handledHead_some (h : R.handledHead s = some idx) :
    R.chainOf idx = none ∧ R.checkSkipCondition idx s.results = none ∧
      ∃ rest, s.ready = idx :: rest := by
  rw [handledHead, Option.filter_eq_some_iff, decide_eq_true_eq] at h
  obtain ⟨hHead, hPlain, hCheck⟩ := h
  exact ⟨hPlain, hCheck, List.head?_eq_some_iff.1 hHead⟩

/-- The step of a popped node that is left to the handler of its kind. -/
theorem step_handledHead (hRunning : s.status = .running) (hVisits : s.visits = [])
    (hBatch : s.batch = []) (hHead : R.handledHead s = some idx) (answer : Answer) :
    ∃ base : State, base.status = .running ∧ base.pending = s.pending ∧
      base.ready = s.ready.tail ∧
      (∀ t, R.dispatchKind base idx (R.kindOf (R.nodeId idx)) answer = some (.ok t) →
        R.step s (.pop answer) = some t) ∧
      ∀ e, R.dispatchKind base idx (R.kindOf (R.nodeId idx)) answer = some (.error e) →
        R.step s (.pop answer) = some (s.halt e) := by
  obtain ⟨hPlain, hSkip, rest, hReady⟩ := handledHead_some hHead
  let base : State := { s with ready := rest, visits := [], batch := [] }
  have hBody : R.body s (.pop answer) =
      R.dispatchKind base idx (R.kindOf (R.nodeId idx)) answer := by
    rw [body, hVisits, hBatch, hReady]
    dsimp only
    rw [dispatchNode, hPlain]
    dsimp only
    rw [hSkip]
  refine ⟨base, hRunning, rfl, by rw [hReady, List.tail_cons], fun t hOk => ?_, fun e hError => ?_⟩
  · rw [Reactor.step, if_pos hRunning, hBody, hOk]
    rfl
  · rw [Reactor.step, if_pos hRunning, hBody, hError]
    rfl

/-- A node is handled as neither a module nor a pause nor an error handler. -/
structure PlainHandler (R : Reactor H) (s : State) (idx : NodeIndex) : Prop where
  chain : R.chainOf idx = none
  skips : R.skips s idx = none
  runsModule : R.runsModule idx = false
  pauses : ∀ answer, R.pauseEnvelope idx (R.kindOf (R.nodeId idx)) answer = none

theorem PlainHandler.of_kind (hHead : R.handledHead s = some idx) {kind : SystemNodeKind}
    (hKind : R.kindOf (R.nodeId idx) = some kind) (hHandler : ∀ pattern, kind ≠ .errorHandler pattern)
    (hPauses : ∀ answer, R.pauseEnvelope idx (some kind) answer = none) : PlainHandler R s idx := by
  obtain ⟨hPlain, hCheck, -⟩ := handledHead_some hHead
  refine ⟨hPlain, ?_, ?_, hKind ▸ hPauses⟩
  · rw [Reactor.skips, hCheck, hKind]
    cases kind <;> first | rfl | exact absurd rfl (hHandler _)
  · rw [Reactor.runsModule, hKind]
    cases kind <;> first | rfl | exact absurd rfl (hHandler _)

theorem PlainHandler.of_nestedReport {results : Table Json} {handled : Handled H Answer}
    (hHead : R.handledHead s = some idx)
    (hReport : R.nestedReport N D order idx results = some handled) :
    PlainHandler R s idx ∧ R.isSubWorkflowNode idx = false := by
  unfold nestedReport at hReport
  split at hReport
  all_goals first
    | cases hReport
      done
    | rename_i hKind
      refine ⟨.of_kind hHead hKind (fun _ h => by cases h) fun _ => rfl, ?_⟩
      rw [isSubWorkflowNode, hKind]

/-- Such a node is completed or drained, or the run is halted. -/
theorem PlainHandler.cases (hOrderly : Orderly R s) (h : PlainHandler R s idx)
    (hReady : s.ready = idx :: rest) (hStep : R.step s (.pop answer) = some t) :
    (∃ mode value, s.batch = [] ∧
        R.handlerVerdict idx (R.kindOf (R.nodeId idx)) answer = some (mode, value) ∧
        t = R.conclude { s with ready := rest, history := R.handledEvents idx ++ s.history } idx
          mode value) ∨
      (∃ values, answer = .outputs values ∧ R.isSubWorkflowNode idx = true ∧
        ∃ events, Relocating R s (.pop answer) t events) ∨
      ∃ e, t = s.halt e := by
  have hNotPaused : t.status ≠ .paused := by
    obtain ⟨-, hStatus⟩ | ⟨m, waiting, hPausing, -⟩ := step_pausing hStep
    · exact hStatus
    · rw [pausing, Option.bind_eq_some_iff] at hPausing
      obtain ⟨m, hHead, hEnvelope⟩ := hPausing
      obtain ⟨-, -, others, hOthers⟩ := handledHead_some hHead
      rw [hReady] at hOthers
      cases hOthers
      rw [h.pauses answer] at hEnvelope
      cases hEnvelope
  obtain ⟨-, hStepped | ⟨e, -, rfl⟩⟩ := step_cases hStep
  · generalize hAction : Action.pop answer = action at hStepped
    cases hOrderly.moved hStepped with
    | visited => cases hAction
    | concluded _ start idx' base events mode value hConcluding =>
        cases hConcluding with
        | stored => cases hAction
        | returned => cases hAction
        | popped _ rest' answer' _ _ _ _ hBatch hPopped hPlain hSettles =>
            cases hAction
            rw [hReady] at hPopped
            cases hPopped
            cases hSettles with
            | skipped _ hSkips =>
                rw [h.skips] at hSkips
                cases hSkips
            | refused limit _ hKind =>
                rw [h.runsModule] at hKind
                cases hKind
            | handled _ _ _ hVerdict => exact .inl ⟨mode, value, hBatch, hVerdict, rfl⟩
    | relocated _ _ events hRelocating =>
        subst hAction
        generalize hAction : Action.pop answer = action at hRelocating
        cases hRelocating with
        | launchedSingle idx' rest' _ _ hPopped _ _ hKind =>
            rw [hReady] at hPopped
            cases hPopped
            rw [h.runsModule] at hKind
            cases hKind
        | launchedChain idx' rest' answer' members _ _ hPopped hChain =>
            rw [hReady] at hPopped
            cases hPopped
            rw [h.chain] at hChain
            cases hChain
        | drained idx' rest' values hVisits hBatch hPopped hPlain hSkips hKind hLength =>
            cases hAction
            rw [hReady] at hPopped
            cases hPopped
            exact .inr (.inl ⟨values, rfl, hKind, _,
              .drained idx rest values hVisits hBatch hReady hPlain hSkips hKind hLength⟩)
    | paused => exact absurd rfl hNotPaused
  · exact .inr (.inr ⟨e, rfl⟩)

theorem handledEvents_started (hAcyclic : R.graph.Acyclic) {x : NodeIndex}
    (hx : R.DefaultSuccessor idx x) :
    x ∉ startedNodes (.released idx :: R.handledEvents idx) := by
  intro hIn
  obtain rfl : x = idx := by
    rw [startedNodes_cons, handledEvents] at hIn
    split at hIn
    · exact List.mem_singleton.1 hIn
    · exact List.mem_singleton.1 hIn
  exact hAcyclic.not_arc_self x hx.1

theorem Withheld.halted (e : Halt) : R.Withheld n s (s.halt e) := by
  obtain ⟨events, hHistory, hNone⟩ := halt_history s e
  refine ⟨fun output hOutput => .inl ?_, events, hHistory, fun x _ hx => ?_⟩
  · cases e <;> exact hOutput
  · rw [hNone] at hx
    cases hx

theorem Dispatches.withheld (hAcyclic : R.graph.Acyclic) (hChains : R.ChainsDetected)
    (hOrderly : Orderly R s) (h : R.Dispatches N D order s action n runs)
    (hHolds : R.HoldsBack N D s n runs) (hStep : R.step s action = some t) :
    R.chainOf n = none ∧ R.Withheld n s t ∧ (t.status = .running → R.Isolated n t) := by
  obtain ⟨hRefuses, hRoutes⟩ := hHolds
  cases h with
  | handled _ handled hHead hReport =>
      obtain ⟨hPlain, -, rest, hReady⟩ := handledHead_some hHead
      obtain ⟨hHandler, hKind⟩ := PlainHandler.of_nestedReport hHead hReport
      refine ⟨hPlain, ?_⟩
      obtain ⟨mode, value, hBatch, hVerdict, rfl⟩ | ⟨values, -, hSub, -⟩ | ⟨e, rfl⟩ :=
        hHandler.cases hOrderly hReady hStep
      · obtain ⟨hError, hNotFailed, hMode⟩ := handlerVerdict_refused hReport hRefuses hVerdict
        refine ⟨⟨fun output hOutput => ?_, .released n :: R.handledEvents n, ?_,
          fun x => handledEvents_started hAcyclic⟩, fun _ => ⟨fun x hx hIn => ?_, ?_, ?_⟩⟩
        · rw [conclude_results, AList.lookup_insert] at hOutput
          cases hOutput
          exact .inr (.inl hError)
        · rw [conclude_history]
          rfl
        · rw [conclude_ready] at hIn
          obtain hFails | hNone | ⟨-, hNotReady⟩ := hRoutes
          · rw [hFails] at hNotFailed
            cases hNotFailed
          · exact hNone x hx
          · exact hNotReady x hx (hReady ▸ List.mem_cons_of_mem _ hIn)
        · intro visit hVisit _
          rw [conclude_visits, List.mem_map] at hVisit
          obtain ⟨child, -, rfl⟩ := hVisit
          obtain hFails | hNone | ⟨hRouted, -⟩ := hRoutes
          · rw [hFails] at hNotFailed
            cases hNotFailed
          · exact .inr (hNone child)
          · exact .inl (hMode hRouted)
        · intro entry hEntry
          rw [conclude_batch] at hEntry
          rw [show s.batch = [] from hBatch] at hEntry
          cases hEntry
      · rw [hKind] at hSub
        cases hSub
      · exact ⟨.halted e, fun hRunning => (by cases e <;> cases hRunning)⟩
  | batched idx _ nodes hHead hKind hNodes hMem =>
      obtain ⟨-, -, rest, hReady⟩ := handledHead_some hHead
      rw [hReady, List.tail_cons] at hNodes
      have hSub : R.isSubWorkflowNode n = true := by
        obtain rfl | hRest := List.mem_cons.1 (hNodes ▸ hMem)
        · exact hKind
        · exact List.of_mem_filter hRest
      obtain ⟨workflowId, timeoutSecs, hIs⟩ := isSubWorkflowNode_iff.1 hSub
      have hNone : ∀ x, ¬ R.DefaultSuccessor n x := by
        obtain hFails | hNone | ⟨hRouted, -⟩ := hRoutes
        · rw [failsRun, hIs] at hFails
          cases hFails
        · exact hNone
        · rw [routesErrors, hIs] at hRouted
          cases hRouted
      have hError : isErrorOutput (R.subWorkflowReport N n s.results).report = true := by
        simp only [Refuses, hIs] at hRefuses
        simp only [subWorkflowReport, hIs] at hRefuses ⊢
        exact ParallelWorkflowEngine.dispatchSubworkflow_refused hRefuses
      refine ⟨chainOf_eq_none_of_isSubWorkflowNode hChains hSub, ?_⟩
      obtain ⟨workflowId', timeoutSecs', hHeadIs⟩ := isSubWorkflowNode_iff.1 hKind
      have hHandler : PlainHandler R s idx :=
        .of_kind hHead hHeadIs (fun _ h => by cases h) fun _ => rfl
      obtain ⟨mode, value, -, hVerdict, -⟩ | ⟨values, hValues, -, events, hRelocating⟩ | ⟨e, rfl⟩ :=
        hHandler.cases hOrderly hReady hStep
      · rw [hHeadIs] at hVerdict
        cases hVerdict
      · refine ⟨⟨fun output hOutput => .inl ?_, events, hRelocating.shifted.history,
          fun x hx => absurd hx (hNone x)⟩, fun _ => ⟨fun x hx => absurd hx (hNone x),
            fun visit _ _ => .inr (hNone _), fun entry hEntry hSelf => ⟨?_, hNone⟩⟩⟩
        · rw [hRelocating.shifted.results] at hOutput
          exact hOutput
        · generalize hAction : Action.pop _ = action at hRelocating
          cases hRelocating with
          | launchedSingle => cases hAction
          | launchedChain idx' _ _ members _ _ hPopped hChain =>
              rw [hReady] at hPopped
              cases hPopped
              rw [hHandler.chain] at hChain
              cases hChain
          | drained idx' rest' values' _ _ hPopped =>
              cases hAction
              rw [hReady] at hPopped
              cases hPopped
              simp only [← hNodes, ← List.map_prod_left_eq_zip, List.mem_map] at hEntry
              obtain ⟨m, -, rfl⟩ := hEntry
              rw [show m = n from hSelf]
              exact hError
      · exact ⟨.halted e, fun hRunning => (by cases e <;> cases hRunning)⟩

end Pauses

end Reactor

section Runs

variable {E : ParallelWorkflowEngine H} {executionId : Uuid} {initialResults : Table Json}
  {s t u : State}

/-- If a handler refuses what a paused run has left so far, and the refusal ends the run or stays
off the default successors, then in the rest of the run the node gets no successful output and its
default successors are not started. -/
theorem nested_pause_withheld (N : NodeIndex → Nesting H) (D : Doubles) (order : VoteOrder)
    {action : Action} {n : NodeIndex} {runs : List (NestedRun H)}
    (hRun : E.Runs executionId initialResults (fun _ _ _ => True) s)
    (hPaused : (E.reactor executionId initialResults).TakesPaused N D order s action n runs)
    (hHolds : (E.reactor executionId initialResults).HoldsBack N D s n runs)
    (hStep : (E.reactor executionId initialResults).step s action = some t)
    (hRest : Run (E.reactor executionId initialResults).step
      ((E.reactor executionId initialResults).Spares n) t u) :
    (E.reactor executionId initialResults).Withheld n s u := by
  have hChains := reactor_chainsDetected E executionId initialResults
  have hOrderly := Orderly.of_runs hRun (Reactor.step_cases hStep).1
  obtain ⟨hPlain, hWithheld, hIsolated⟩ :=
    hPaused.1.withheld hRun.1 hChains hOrderly hHolds hStep
  have hFirst : E.Runs executionId initialResults (fun _ _ _ => True) t :=
    ⟨hRun.1, hRun.2.tail ⟨action, trivial, hStep⟩⟩
  have hKept : E.Runs executionId initialResults (fun _ _ _ => True) u ∧
      (E.reactor executionId initialResults).Withheld n s u ∧
        (u.status = .running → (E.reactor executionId initialResults).Isolated n u) := by
    induction hRest with
    | refl => exact ⟨hFirst, hWithheld, hIsolated⟩
    | tail _ hLast ih =>
        obtain ⟨next, hSpares, hNext⟩ := hLast
        obtain ⟨hReached, hSoFar, hApart⟩ := ih
        have hRunning := (Reactor.step_cases hNext).1
        refine ⟨⟨hReached.1, hReached.2.tail ⟨next, trivial, hNext⟩⟩, ?_⟩
        exact hSoFar.step hChains hPlain (Orderly.of_runs hReached hRunning) (hApart hRunning)
          hSpares hNext
  exact hKept.2.1

end Runs

section Samples

/-- A stored workflow that waits for its approval. -/
def approvalEngine : ParallelWorkflowEngine (bareHost true) :=
  { ParallelWorkflowEngine.new with
    graph := ⟨[7, 8], [⟨0, 1, {}⟩], by decide⟩
    nodeMap := nodeTable [(7, 0), (8, 1)]
    nodeLabels := nodeTable [(7, "__trigger__"), (8, "approval")]
    nodeMeta := nodeTable [(8, systemNode (.wait none))] }

def approvalContext : WorkflowContext where
  results := (nodeTable [(7, .null)]).insert 8
    ((approvalEngine.reactor 9 (nodeTable [(7, .null)])).waitingOutput 8 none)
  waiting := true

theorem approvalEngine_returns : ∃ executionId initialResults s last t,
    approvalEngine.Returns executionId initialResults s last t (.ok approvalContext) := by
  let seeds : Table Json := nodeTable [(7, .null)]
  let R := approvalEngine.reactor 9 seeds
  have hStep : (R.step (R.initialState seeds) (.pop .accepted)).map
      (fun t => (t.status, t.results.entries)) =
        some (.paused, approvalContext.results.entries) := by
    decide
  obtain ⟨t, ht, hObserved⟩ := Option.map_eq_some_iff.1 hStep
  obtain ⟨hPaused, hEntries⟩ := Prod.mk.inj hObserved
  have hResults : t.results = approvalContext.results := AList.ext hEntries
  have hAcyclic : approvalEngine.graph.Acyclic := acyclic_of_rank id (by decide)
  refine ⟨9, seeds, R.initialState seeds, _, t, ⟨hAcyclic, .refl⟩, .stepped ht, ?_⟩
  rw [Reactor.returned, hPaused, hResults]
  rfl

def approvalRun : NestedRun (bareHost true) := ⟨approvalEngine, approvalContext, approvalEngine_returns⟩

/-- Every stored workflow waits for its approval. -/
def approvalNesting : Nesting (bareHost true) where
  getSubWorkflowGraph _ _ := some .null
  evaluateDispatchExpression _ _ := .error ""
  resolveTarget _ := none
  resolveByCapabilities _ := none
  debugStrings _ := ""
  deadline := none
  runGraph _ _ _ := .ok approvalRun

def sampleDoubles : Doubles := ⟨fun _ => 0, fun _ => .null, fun _ => "0.00"⟩

def sampleVoteOrder : VoteOrder := ⟨id, fun _ => .refl _⟩

/-- A node that runs a stored workflow, and a module that follows it. -/
def nestingEngine (kind : SystemNodeKind) : ParallelWorkflowEngine (bareHost true) :=
  { ParallelWorkflowEngine.new with
    graph := twoNodes
    nodeMeta := nodeTable [(1, systemNode kind), (2, moduleNode)]
    moduleFetcher := some sampleFetcher
    secretsResolver := some ⟨fun _ => .ok ∅, fun _ _ => .ok ∅, fun _ => .ok ∅⟩
    userId := some 5 }

theorem nestingEngine_acyclic (kind : SystemNodeKind) : (nestingEngine kind).graph.Acyclic :=
  acyclic_of_rank id (show ∀ e ∈ twoNodes.edges, id e.source < id e.target by decide)

/-- A judge whose workflow waits has no verdict, and its rejection fails the run. -/
theorem nested_pause_withheld_judge :
    ∃ s action t, (nestingEngine (.judge 5 "" none "error" 60)).Runs 9 ∅ (fun _ _ _ => True) s ∧
      ((nestingEngine (.judge 5 "" none "error" 60)).reactor 9 ∅).step s action = some t ∧
        ((nestingEngine (.judge 5 "" none "error" 60)).reactor 9 ∅).Withheld 0 s t := by
  let E := nestingEngine (.judge 5 "" none "error" 60)
  let R := E.reactor 9 ∅
  let s := R.initialState ∅
  let handled := (R.dispatchJudge approvalNesting sampleDoubles (R.gatherInputs 0 s.results) 5 ""
    none "error").map Answer.output
  have hRun : E.Runs 9 ∅ (fun _ _ _ => True) s := ⟨nestingEngine_acyclic _, .refl⟩
  have hSome : (R.step s (.pop handled.report)).isSome := by decide
  obtain ⟨t, ht⟩ := Option.isSome_iff_exists.1 hSome
  have hPaused : R.TakesPaused (fun _ => approvalNesting) sampleDoubles sampleVoteOrder s
      (.pop handled.report) 0 handled.runs :=
    ⟨.handled 0 handled (by decide) rfl, approvalRun, List.mem_singleton_self _, rfl⟩
  have hRefuses : R.Refuses (fun _ => approvalNesting) sampleDoubles 0 s.results handled.runs := by
    refine .inr ⟨by decide, fun run hMem => ?_⟩
    obtain rfl : run = approvalRun := List.mem_singleton.1 hMem
    decide
  exact ⟨s, _, t, hRun, ht, nested_pause_withheld _ sampleDoubles sampleVoteOrder hRun hPaused
    ⟨hRefuses, .inl (by decide)⟩ ht .refl⟩

/-- The partial results of a sub-workflow that waits are recorded as its output, and the module
behind it is dispatched. -/
theorem paused_sub_workflow_completes :
    ∃ s action t u runs,
      (nestingEngine (.subWorkflow 5 60)).Runs 9 ∅ (fun _ _ _ => True) s ∧
        ((nestingEngine (.subWorkflow 5 60)).reactor 9 ∅).TakesPaused (fun _ => approvalNesting)
          sampleDoubles sampleVoteOrder s action 0 runs ∧
          ((nestingEngine (.subWorkflow 5 60)).reactor 9 ∅).step s action = some t ∧
            Run ((nestingEngine (.subWorkflow 5 60)).reactor 9 ∅).step (fun _ _ => True) t u ∧
              ¬ ((nestingEngine (.subWorkflow 5 60)).reactor 9 ∅).Withheld 0 s u := by
  let E := nestingEngine (.subWorkflow 5 60)
  let R := E.reactor 9 ∅
  let s := R.initialState ∅
  let handled := R.subWorkflowReport (fun _ => approvalNesting) 0 s.results
  have hRun : E.Runs 9 ∅ (fun _ _ _ => True) s := ⟨nestingEngine_acyclic _, .refl⟩
  have hSome : (R.step s (.pop (.outputs [handled.report]))).isSome := by decide
  obtain ⟨t, ht⟩ := Option.isSome_iff_exists.1 hSome
  have hReplay : ((R.step s (.pop (.outputs [handled.report]))).bind
      (replay R.step (fun _ _ => True) [.store, .visit, .pop .accepted])).map
        (fun u => startedNodes u.history) = some [1, 0] := by
    decide
  rw [ht, Option.bind_some] at hReplay
  obtain ⟨u, hu, hStarted⟩ := Option.map_eq_some_iff.1 hReplay
  refine ⟨s, _, t, u, handled.runs, hRun, ⟨.batched 0 0 [0] (by decide) (by decide) (by decide)
    (List.mem_singleton_self 0), approvalRun, List.mem_singleton_self _, rfl⟩, ht, replay_run hu, ?_⟩
  rintro ⟨-, events, hHistory, hNone⟩
  have hSuccessor : R.DefaultSuccessor 0 1 :=
    ⟨⟨⟨0, 1, {}⟩, List.mem_singleton_self _, rfl, rfl⟩, by decide⟩
  refine hNone 1 hSuccessor ?_
  rw [hHistory, startedNodes_append] at hStarted
  have hBefore : startedNodes s.history = [] := by decide
  rw [hBefore, List.append_nil] at hStarted
  rw [hStarted]
  exact List.mem_cons_self

end Samples

end TalosWorkflow
