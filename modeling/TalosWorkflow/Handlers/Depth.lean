import TalosWorkflow.Exits.Nesting
import TalosWorkflow.Handlers.Adaptive

/-!
# The depth of nested runs

Every handler builds the engine of a nested run behind the same guard. Each
level is one deeper than the one above it, and at the maximal depth nothing is
run.
-/

namespace TalosWorkflow

open Multigraph

variable {H : Host}

section Guarding

def WorkflowEngineError.text : WorkflowEngineError → String
  | .emptyGraph => "workflow graph has no nodes"
  | .loadGraph message => "graph load failed: " ++ message
  | .subflowRecursionLimit depth limit =>
      "sub-workflow recursion depth " ++ depth.toNat.repr ++ " exceeds the engine's max (" ++
        limit.toNat.repr ++ "); a workflow likely composes itself transitively"
  | .invalidGraph message => "graph JSON is malformed: " ++ message

/-- How an engine that has been built is run: it is given its trigger and its actor context. -/
structure Runner (H : Host) where
  run : Nat → ParallelWorkflowEngine H → Json → Except String (NestedRun H)
  prepared : ∀ call E trigger nested, run call E trigger = .ok nested → ∃ document actorContext,
    nested.engine = { E.withDocument document with actorContext := actorContext }

/-- The nested runs of an engine are built from its adapters, behind the guard. -/
def Nesting.guarded (N : Nesting H) (E : ParallelWorkflowEngine H) (read : GraphReader)
    (runner : Runner H) : Nesting H :=
  { N with
    runGraph := fun call graphJson trigger =>
      match E.adapterSet.intoEngineWithGraph read graphJson with
      | .error e => .error (.build e.text)
      | .ok loaded => (runner.run call loaded trigger).mapError .execution }

/-- The child is an engine that the parent has built for a stored graph. -/
def Hydrates (parent child : ParallelWorkflowEngine H) : Prop :=
  ∃ read graphJson loaded document actorContext,
    parent.adapterSet.intoEngineWithGraph read graphJson = .ok loaded ∧
      child = { loaded.withDocument document with actorContext := actorContext }

/-- An engine that is `depth` levels below the root. -/
inductive Hydrated (root : ParallelWorkflowEngine H) : Nat → ParallelWorkflowEngine H → Prop
  | root : Hydrated root 0 root
  | deeper (depth : Nat) (E E' : ParallelWorkflowEngine H) (hAbove : Hydrated root depth E)
      (hHydrates : Hydrates E E') : Hydrated root (depth + 1) E'

def Nesting.Yields (N : Nesting H) (run : NestedRun H) : Prop :=
  ∃ call graphJson trigger, N.runGraph call graphJson trigger = .ok run

def Nesting.Refuses (N : Nesting H) : Prop :=
  ∀ call graphJson trigger, ∃ message, N.runGraph call graphJson trigger = .error (.build message)

variable {N : Nesting H} {E : ParallelWorkflowEngine H} {read : GraphReader} {runner : Runner H}

theorem Nesting.Yields.hydrates {run : NestedRun H} (h : (N.guarded E read runner).Yields run) :
    Hydrates E run.engine := by
  obtain ⟨call, graphJson, trigger, hRun⟩ := h
  rw [guarded] at hRun
  dsimp only at hRun
  cases hLoaded : E.adapterSet.intoEngineWithGraph read graphJson with
  | error e =>
      rw [hLoaded] at hRun
      cases hRun
  | ok loaded =>
      rw [hLoaded] at hRun
      dsimp only at hRun
      cases hNested : runner.run call loaded trigger with
      | error e =>
          rw [hNested] at hRun
          cases hRun
      | ok nested =>
          rw [hNested] at hRun
          cases hRun
          obtain ⟨document, actorContext, hEngine⟩ := runner.prepared _ _ _ _ hNested
          exact ⟨read, graphJson, loaded, document, actorContext, hLoaded, hEngine⟩

theorem saturatingAdd_one_of_lt {a b : UInt64} (hAbove : b.toNat < usizeMax)
    (hBelow : saturatingAdd a 1 ≤ b) : a.toNat + 1 = (saturatingAdd a 1).toNat ∧ a < b := by
  have hNext := saturatingAdd_one a
  rw [UInt64.le_iff_toNat_le] at hBelow
  rw [UInt64.lt_iff_toNat_lt]
  omega

theorem Hydrates.depth {parent child : ParallelWorkflowEngine H} (h : Hydrates parent child)
    (hMax : parent.maxSubflowDepth.toNat < usizeMax) :
    child.maxSubflowDepth = parent.maxSubflowDepth ∧
      child.currentSubflowDepth.toNat = parent.currentSubflowDepth.toNat + 1 ∧
      child.currentSubflowDepth ≤ child.maxSubflowDepth := by
  obtain ⟨read, graphJson, loaded, document, actorContext, hLoaded, rfl⟩ := h
  obtain ⟨hBound, document', rfl⟩ := intoEngineWithGraph_ok hLoaded
  obtain ⟨hNext, -⟩ := saturatingAdd_one_of_lt hMax hBound
  exact ⟨rfl, hNext.symm, hBound⟩

theorem guarded_refuses (h : E.maxSubflowDepth ≤ E.currentSubflowDepth)
    (hMax : E.maxSubflowDepth.toNat < usizeMax) : (N.guarded E read runner).Refuses := by
  intro call graphJson trigger
  have hNext := saturatingAdd_one E.currentSubflowDepth
  have hBeyond : E.adapterSet.maxSubflowDepth <
      saturatingAdd E.adapterSet.currentSubflowDepth 1 := by
    change E.maxSubflowDepth < saturatingAdd E.currentSubflowDepth 1
    rw [UInt64.le_iff_toNat_le] at h
    rw [UInt64.lt_iff_toNat_lt]
    omega
  have hBuilt : E.adapterSet.intoEngineWithGraph read graphJson =
      .error (.subflowRecursionLimit (saturatingAdd E.adapterSet.currentSubflowDepth 1)
        E.adapterSet.maxSubflowDepth) := by
    rw [AdapterSet.intoEngineWithGraph]
    dsimp only
    rw [if_pos hBeyond]
  rw [Nesting.guarded]
  dsimp only
  rw [hBuilt]
  exact ⟨_, rfl⟩

end Guarding

section Attempts

variable {N : Nesting H} {α : Type}

/-- The report was computed from runs of the nesting. -/
def Handled.Drawn (handled : Handled H α) (N : Nesting H) : Prop := ∀ run ∈ handled.runs, N.Yields run

theorem Handled.drawn_nil (report : α) : (⟨report, []⟩ : Handled H α).Drawn N := by
  rintro run ⟨⟩

theorem yields_of_returned {ε : Type} {outcome : Except ε (NestedRun H)}
    (h : ∀ run, outcome = .ok run → N.Yields run) : ∀ run ∈ returnedRuns outcome, N.Yields run := by
  intro run hMem
  cases outcome with
  | error e => cases hMem
  | ok nested =>
      obtain rfl := List.mem_singleton.1 hMem
      exact h run rfl

theorem Nesting.Refuses.not_yields (h : N.Refuses) (run : NestedRun H) : ¬ N.Yields run := by
  rintro ⟨call, graphJson, trigger, hRun⟩
  obtain ⟨message, hRefused⟩ := h call graphJson trigger
  rw [hRefused] at hRun
  cases hRun

theorem Handled.Drawn.runs_nil {handled : Handled H α} (h : handled.Drawn N) (hRefuses : N.Refuses) :
    handled.runs = [] := by
  apply List.eq_nil_iff_forall_not_mem.2
  intro run hMem
  exact hRefuses.not_yields run (h run hMem)

theorem Handled.Drawn.forall_runs {handled : Handled H α} (h : handled.Drawn N)
    (hRefuses : N.Refuses) (P : NestedRun H → Prop) : ∀ run ∈ handled.runs, P run := by
  rw [h.runs_nil hRefuses]
  rintro run ⟨⟩

end Attempts

namespace ParallelWorkflowEngine

variable {E : ParallelWorkflowEngine H} {N : Nesting H} {D : Doubles} {order : VoteOrder}

section Drawn

theorem executeSubworkflowGraph_yields {call : Nat} {subWfId : Uuid} {trigger : Json}
    {run : NestedRun H} (h : E.executeSubworkflowGraph N call subWfId trigger = .ok run) :
    N.Yields run := by
  unfold executeSubworkflowGraph at h
  split at h
  · cases h
  · split at h
    · cases h
    · split at h
      · cases h
      · split at h
        · cases h
        · rename_i graphJson hGraph
          split at h
          · rename_i nested hRun
            cases h
            exact ⟨call, graphJson, trigger, hRun⟩
          · cases h
          · cases h

theorem returnedRuns_yields {call : Nat} {subWfId : Uuid} {trigger : Json} :
    ∀ run ∈ returnedRuns (E.executeSubworkflowGraph N call subWfId trigger), N.Yields run :=
  yields_of_returned fun _ h => executeSubworkflowGraph_yields h

theorem tryDispatchSubWorkflow_drawn (idx : NodeIndex) (subWfId : Uuid) (results : Table Json) :
    (E.tryDispatchSubWorkflow N idx subWfId results).Drawn N := returnedRuns_yields

theorem dispatchJudge_drawn (parentInputs : Json) (judgeWfId : Uuid) (rubric : String)
    (passThreshold : Option Rat) (onFailure : String) :
    (E.dispatchJudge N D parentInputs judgeWfId rubric passThreshold onFailure).Drawn N :=
  returnedRuns_yields

theorem runDispatchedSubworkflow_drawn (subWfId : Uuid) (inputs : Json) (origin : DispatchedOrigin) :
    (E.runDispatchedSubworkflow N subWfId inputs origin).Drawn N := by
  unfold runDispatchedSubworkflow
  split
  · exact Handled.drawn_nil _
  · split
    · exact Handled.drawn_nil _
    · rename_i graphJson hGraph
      split
      · exact Handled.drawn_nil _
      · exact Handled.drawn_nil _
      · rename_i nested hRun
        intro run hMem
        obtain rfl := List.mem_singleton.1 hMem
        exact ⟨0, graphJson, stripReserved inputs, hRun⟩

theorem tryDispatchDynamicDispatch_drawn (dispatchExpression : String) (inputs : Json) :
    (E.tryDispatchDynamicDispatch N dispatchExpression inputs).Drawn N := by
  unfold tryDispatchDynamicDispatch
  split
  · exact Handled.drawn_nil _
  · split
    · exact Handled.drawn_nil _
    · exact runDispatchedSubworkflow_drawn _ _ _

theorem tryDispatchCapabilityDispatch_drawn (requiredCapabilities : List String)
    (fallbackWorkflowId : Option Uuid) (inputs : Json) :
    (E.tryDispatchCapabilityDispatch N requiredCapabilities fallbackWorkflowId inputs).Drawn N := by
  unfold tryDispatchCapabilityDispatch
  split
  · exact Handled.drawn_nil _
  · split
    · exact runDispatchedSubworkflow_drawn _ _ _
    · exact runDispatchedSubworkflow_drawn _ _ _
    · exact Handled.drawn_nil _

theorem agentStep_runs {graphJson inputs : Json} {injectHistory : Bool} {st : AgentState H}
    (h : ∀ run ∈ st.runs, N.Yields run) :
    ∀ run ∈ (E.agentStep N graphJson inputs injectHistory st).runs, N.Yields run := by
  intro run hMem
  obtain hOld | hNew := List.mem_append.1 hMem
  · exact h run hOld
  · exact yields_of_returned (fun nested hRun => ⟨_, _, _, hRun⟩) run hNew

theorem agentIterations_runs (graphJson inputs : Json) (injectHistory : Bool) (limit : Nat)
    (st : AgentState H) (h : ∀ run ∈ st.runs, N.Yields run) :
    ∀ run ∈ (E.agentIterations N graphJson inputs injectHistory limit st).runs, N.Yields run := by
  induction limit generalizing st with
  | zero => exact h
  | succ remaining ih =>
      rw [agentIterations]
      split
      · exact agentStep_runs h
      · exact ih _ (agentStep_runs h)

theorem tryDispatchAgentLoop_drawn (bodyWfId : Uuid) (maxIters : UInt32) (injectHistory : Bool)
    (timeoutSecs : UInt64) (inputs : Json) :
    (E.tryDispatchAgentLoop N bodyWfId maxIters injectHistory timeoutSecs inputs).Drawn N := by
  have hStart : ∀ run ∈ (⟨[], .object [], false, 0, []⟩ : AgentState H).runs, N.Yields run := by
    rintro run ⟨⟩
  unfold tryDispatchAgentLoop
  split
  · exact Handled.drawn_nil _
  · split
    · exact Handled.drawn_nil _
    · split
      · exact Handled.drawn_nil _
      · rename_i graphJson hGraph
        have hRuns := fun limit => E.agentIterations_runs graphJson inputs injectHistory limit _ hStart
        dsimp only
        split
        · exact hRuns _
        · exact hRuns _

theorem judgeCandidate_runs {judgeWfId : Uuid} {runCount : Nat} {selection : Selection H}
    {candidate : Json × Nat} (h : ∀ run ∈ selection.runs, N.Yields run) :
    ∀ run ∈ (E.judgeCandidate N D judgeWfId runCount selection candidate).runs, N.Yields run := by
  unfold judgeCandidate
  split
  · exact h
  · split
    · rename_i nested hRun
      intro run hMem
      obtain hOld | hNew := List.mem_append.1 hMem
      · exact h run hOld
      · obtain rfl := List.mem_singleton.1 hNew
        exact executeSubworkflowGraph_yields hRun
    · exact h

theorem bestOfN_runs (judgeWfId : Uuid) (candidates : List Json) :
    ∀ run ∈ (E.bestOfN N D judgeWfId candidates).runs, N.Yields run := by
  let Kept : Selection H → Prop := fun selection => ∀ run ∈ selection.runs, N.Yields run
  have hStart : Kept ⟨none, []⟩ := by rintro run ⟨⟩
  exact List.foldlRecOn (motive := Kept) candidates.zipIdx
    (E.judgeCandidate N D judgeWfId candidates.length) hStart fun _ h _ _ => judgeCandidate_runs h

theorem dispatchEnsemble_drawn {inputs : Json} {childWfId : Uuid} {runCount : UInt32}
    {strategy : String} {judgeWfId : Option Uuid} {handled : Handled H Json}
    (h : E.dispatchEnsemble N D order inputs childWfId runCount strategy judgeWfId = some handled) :
    handled.Drawn N := by
  simp only [dispatchEnsemble, Option.map_eq_some_iff] at h
  obtain ⟨chosen, hChosen, rfl⟩ := h
  intro run hMem
  obtain hChild | hJudge := List.mem_append.1 hMem
  · obtain ⟨outcome, hOutcome, hRun⟩ := List.mem_flatMap.1 hChild
    obtain ⟨i, -, rfl⟩ := List.mem_map.1 hOutcome
    exact returnedRuns_yields run hRun
  · unfold consensus at hChosen
    split at hChosen
    · cases hChosen
      cases hJudge
    · cases hChosen
      exact bestOfN_runs _ _ run hJudge
    · obtain ⟨votes, -, rfl⟩ := Option.map_eq_some_iff.1 hChosen
      cases hJudge

theorem runClassified_drawn (target : Uuid) (input : Json) (classText context : String)
    (isFallback : Bool) :
    (E.runClassified N target input classText context isFallback).Drawn N := returnedRuns_yields

theorem dispatchClass_drawn (cleanInput : Json) (routes : List (String × Uuid))
    (fallbackWfId : Option Uuid) (classText : String) :
    (E.dispatchClass N cleanInput routes fallbackWfId classText).Drawn N := by
  unfold dispatchClass
  split
  · exact runClassified_drawn _ _ _ _ _
  · exact runClassified_drawn _ _ _ _ _
  · exact Handled.drawn_nil _

theorem dispatchLlmDispatch_drawn (inputs : Json) (classifierWfId : Uuid)
    (routes : List (String × Uuid)) (fallbackWfId : Option Uuid) :
    (E.dispatchLlmDispatch N inputs classifierWfId routes fallbackWfId).Drawn N := by
  unfold dispatchLlmDispatch
  dsimp only
  split
  · exact Handled.drawn_nil _
  · rename_i classifier hClassifier
    have hFirst : N.Yields classifier := executeSubworkflowGraph_yields hClassifier
    split
    · exact List.forall_mem_singleton.2 hFirst
    · exact List.forall_mem_singleton.2 hFirst
    · exact List.forall_mem_cons.2 ⟨hFirst, dispatchClass_drawn _ _ _ _⟩

theorem reflectiveAttempts_drawn (childWfId reflectionWfId : Uuid) (maxRetries remaining : Nat)
    (current : Json) (lastError : String) (runs : List (NestedRun H))
    (h : ∀ run ∈ runs, N.Yields run) :
    (E.reflectiveAttempts N childWfId reflectionWfId maxRetries remaining current lastError
      runs).Drawn N := by
  induction remaining generalizing current lastError runs with
  | zero => exact h
  | succ remaining ih =>
      rw [reflectiveAttempts]
      extract_lets lastError reflected
      generalize hOutcome : E.executeSubworkflowGraph N _ _ (stripReserved current) = outcome
      have hChild : ∀ run ∈ runs ++ returnedRuns outcome, N.Yields run := by
        rw [← hOutcome]
        exact List.forall_mem_append.2 ⟨h, returnedRuns_yields⟩
      -- The match on the outcome inside the condition is not split.
      apply iteInduction (motive := fun handled : Handled H Json => handled.Drawn N)
      · intro _
        split
        · exact ih _ _ _ hChild
        · exact ih _ _ _ (List.forall_mem_append.2 ⟨hChild, returnedRuns_yields⟩)
      · exact fun _ => hChild

theorem dispatchReflectiveRetry_drawn (initialInput : Json) (childWfId reflectionWfId : Uuid)
    (maxRetries : UInt32) :
    (E.dispatchReflectiveRetry N initialInput childWfId reflectionWfId maxRetries).Drawn N :=
  reflectiveAttempts_drawn _ _ _ _ _ _ _ (by rintro run ⟨⟩)

end Drawn

section Refused

theorem executeSubworkflowGraph_refused (h : N.Refuses) (call : Nat) (subWfId : Uuid)
    (trigger : Json) : ∃ e, E.executeSubworkflowGraph N call subWfId trigger = .error e := by
  cases hOutcome : E.executeSubworkflowGraph N call subWfId trigger with
  | error e => exact ⟨e, rfl⟩
  | ok run => exact absurd (executeSubworkflowGraph_yields hOutcome) (h.not_yields run)

theorem dispatchJudge_unavailable (h : N.Refuses) (parentInputs : Json) (judgeWfId : Uuid)
    (rubric : String) (passThreshold : Option Rat) (onFailure : String) :
    isErrorOutput
      (E.dispatchJudge N D parentInputs judgeWfId rubric passThreshold onFailure).report = true := by
  rw [dispatchJudge]
  obtain ⟨e, hOutcome⟩ := executeSubworkflowGraph_refused (E := E) h 0 judgeWfId
    (.object [("content", parentInputs), ("rubric", .string rubric)])
  simp only [hOutcome]
  exact SubflowError.isErrorOutput_intoErrorEnvelope _ _

theorem ensembleChild_refused (h : N.Refuses) (childWfId : Uuid) (cleanInput : Json)
    (indices : List Nat) :
    ∀ candidate ∈ (indices.map (E.ensembleChild N childWfId cleanInput)).map childOutput,
      isErrorOutput candidate = true := by
  intro candidate hMem
  rw [List.map_map, List.mem_map] at hMem
  obtain ⟨i, -, rfl⟩ := hMem
  obtain ⟨e, hOutcome⟩ := executeSubworkflowGraph_refused (E := E) h i childWfId cleanInput
  rw [Function.comp_apply, ensembleChild, hOutcome]
  exact SubflowError.isErrorOutput_intoErrorEnvelope _ _

theorem noConsensus_of_refuses (h : N.Refuses) (strategy : String) (judgeWfId : Option Uuid)
    (childWfId : Uuid) (cleanInput : Json) (indices : List Nat) :
    E.NoConsensus N strategy judgeWfId
      ((indices.map (E.ensembleChild N childWfId cleanInput)).map childOutput) := by
  have hErrors := E.ensembleChild_refused h childWfId cleanInput indices
  unfold NoConsensus
  split
  · constructor
    · intro candidate _ _ run hRun
      exact h.not_yields run (executeSubworkflowGraph_yields hRun)
    · exact fun first hHead => hErrors first (List.mem_of_mem_head? hHead)
  · exact hErrors

theorem consensus_isSome {strategy : String} {judgeWfId : Option Uuid} {candidates : List Json}
    (h : ∀ candidate ∈ candidates, isErrorOutput candidate = true) :
    (E.consensus N D order strategy judgeWfId candidates).isSome := by
  unfold consensus
  split
  · rfl
  · rfl
  · rw [countVotes_errors h]
    rfl

theorem dispatchEnsemble_isSome (h : N.Refuses) (inputs : Json) (childWfId : Uuid)
    (runCount : UInt32) (strategy : String) (judgeWfId : Option Uuid) :
    (E.dispatchEnsemble N D order inputs childWfId runCount strategy judgeWfId).isSome := by
  rw [dispatchEnsemble, Option.isSome_map]
  exact consensus_isSome (ensembleChild_refused h _ _ _)

theorem dispatchLlmDispatch_refused (h : N.Refuses) (inputs : Json) (classifierWfId : Uuid)
    (routes : List (String × Uuid)) (fallbackWfId : Option Uuid) :
    isErrorOutput (E.dispatchLlmDispatch N inputs classifierWfId routes fallbackWfId).report = true := by
  obtain ⟨e, hOutcome⟩ :=
    executeSubworkflowGraph_refused (E := E) h 0 classifierWfId (stripReserved inputs)
  rw [dispatchLlmDispatch]
  simp only [hOutcome]
  exact SubflowError.isErrorOutput_intoErrorEnvelope _ _

theorem reflectiveAttempts_refused (h : N.Refuses) (childWfId reflectionWfId : Uuid)
    (maxRetries remaining : Nat) (current : Json) (lastError : String) (runs : List (NestedRun H)) :
    isErrorOutput (E.reflectiveAttempts N childWfId reflectionWfId maxRetries remaining current
      lastError runs).report = true := by
  induction remaining generalizing current lastError runs with
  | zero => rfl
  | succ remaining ih =>
      obtain ⟨e, hOutcome⟩ := executeSubworkflowGraph_refused (E := E) h
        (2 * (maxRetries - remaining)) childWfId (stripReserved current)
      rw [reflectiveAttempts]
      simp only [hOutcome, SubflowError.isErrorOutput_intoErrorEnvelope, if_true]
      split
      · exact ih _ _ _
      · exact ih _ _ _

/-- What an agent loop has so far if every body run has failed. -/
structure AllFailed (st : AgentState H) : Prop where
  unfinished : st.finished = false
  last : 0 < st.iterationsRun → isErrorOutput st.lastOutput = true
  history : ∀ output ∈ st.history, isErrorOutput output = true

theorem mem_pushHistory {history : List Json} {output earlier : Json}
    (h : earlier ∈ E.pushHistory history output) : earlier ∈ history ∨ earlier = output := by
  unfold pushHistory at h
  split at h
  · exact .inl h
  · split at h
    · obtain hKept | hNew := List.mem_append.1 h
      · exact .inl (List.mem_of_mem_drop hKept)
      · exact .inr (List.mem_singleton.1 hNew)
    · obtain hOld | hNew := List.mem_append.1 h
      · exact .inl hOld
      · exact .inr (List.mem_singleton.1 hNew)

theorem AllFailed.step (h : N.Refuses) {graphJson inputs : Json} {injectHistory : Bool}
    {st : AgentState H} (hFailed : AllFailed st) :
    AllFailed (E.agentStep N graphJson inputs injectHistory st) := by
  obtain ⟨message, hRun⟩ := h (st.iterationsRun + 1) graphJson
    (E.agentInput inputs (st.iterationsRun + 1) injectHistory st.history)
  unfold agentStep
  simp only [hRun]
  constructor
  · rfl
  · exact fun _ => isErrorOutput_errorEnvelope _
  · intro output hMem
    obtain hOld | rfl := mem_pushHistory hMem
    · exact hFailed.history output hOld
    · exact isErrorOutput_errorEnvelope _

theorem agentIterations_refused (h : N.Refuses) (graphJson inputs : Json) (injectHistory : Bool)
    (limit : Nat) (st : AgentState H) (hFailed : AllFailed st) :
    AllFailed (E.agentIterations N graphJson inputs injectHistory limit st) := by
  induction limit generalizing st with
  | zero => exact hFailed
  | succ remaining ih =>
      rw [agentIterations]
      split
      · exact hFailed.step h
      · exact ih _ (hFailed.step h)

end Refused

end ParallelWorkflowEngine

section Expansion

/-- The record of an agent loop of which every body run has failed. -/
inductive FailedLoop : Json → Prop
  | error (output : Json) (hError : isErrorOutput output = true) : FailedLoop output
  | exhausted (last : Json) (history : List Json) (iterations : Nat)
      (hLast : 0 < iterations → isErrorOutput last = true)
      (hHistory : ∀ output ∈ history, isErrorOutput output = true) :
      FailedLoop (.object [("final_output", last), ("finished", .bool false),
        ("history", .array history), ("iterations", .ofCount iterations)])

theorem tryDispatchAgentLoop_failed {E : ParallelWorkflowEngine H} {N : Nesting H} (h : N.Refuses)
    (bodyWfId : Uuid) (maxIters : UInt32) (injectHistory : Bool) (timeoutSecs : UInt64)
    (inputs : Json) :
    FailedLoop
      (E.tryDispatchAgentLoop N bodyWfId maxIters injectHistory timeoutSecs inputs).report := by
  unfold ParallelWorkflowEngine.tryDispatchAgentLoop
  split
  · exact .error _ rfl
  · split
    · exact .error _ rfl
    · split
      · exact .error _ rfl
      · rename_i graphJson hGraph
        have hFailed := fun limit => ParallelWorkflowEngine.agentIterations_refused (E := E) h
          graphJson inputs injectHistory limit ⟨[], .object [], false, 0, []⟩
          ⟨rfl, fun hSome => absurd hSome (Nat.lt_irrefl 0), fun _ hMem => (by cases hMem)⟩
        dsimp only
        split
        · exact .error _ rfl
        · rw [(hFailed _).unfinished]
          exact .exhausted _ _ _ (hFailed _).last (hFailed _).history

/-- No attempt of the handler has led to anything but an error. -/
def FailedExpansion (kind : Option SystemNodeKind) (answer : Answer) : Prop :=
  match kind with
  | some (.agentLoop ..)
  | some (.reActLoop ..) => ∃ output, answer = .output output ∧ FailedLoop output
  | some (.dynamicDispatch ..) => ∃ message, answer = .error message
  | _ => ∃ output, answer = .output output ∧ isErrorOutput output = true

namespace Reactor

variable (R : Reactor H) (N : Nesting H) (D : Doubles) (order : VoteOrder)

def expands (idx : NodeIndex) : Bool :=
  match R.kindOf (R.nodeId idx) with
  | some (.subWorkflow ..)
  | some (.judge ..)
  | some (.ensemble ..)
  | some (.agentLoop ..)
  | some (.reActLoop ..)
  | some (.dynamicDispatch ..)
  | some (.capabilityDispatch ..)
  | some (.reflectiveRetry ..)
  | some (.llmDispatch ..) => true
  | _ => false

def expansionReport (idx : NodeIndex) (results : Table Json) : Option (Handled H Answer) :=
  let inputs := R.gatherInputs idx results
  match R.kindOf (R.nodeId idx) with
  | some (.subWorkflow workflowId _) =>
      some ((R.tryDispatchSubWorkflow N idx workflowId results).map .output)
  | some (.llmDispatch classifierWfId routes fallbackWfId _) =>
      some ((R.dispatchLlmDispatch N inputs classifierWfId routes fallbackWfId).map .output)
  | some (.reflectiveRetry childWfId reflectionWfId maxRetries _) =>
      some ((R.dispatchReflectiveRetry N inputs childWfId reflectionWfId maxRetries).map .output)
  | _ => R.nestedReport (fun _ => N) D order idx results

variable {R N D order} {idx : NodeIndex} {results : Table Json} {handled : Handled H Answer}

theorem nestedReport_drawn (h : R.nestedReport (fun _ => N) D order idx results = some handled) :
    handled.Drawn N := by
  unfold nestedReport at h
  split at h
  · rename_i judgeWfId rubric passThreshold onFailure _ _
    cases h
    exact ParallelWorkflowEngine.dispatchJudge_drawn (D := D) _ judgeWfId rubric passThreshold onFailure
  · obtain ⟨chosen, hChosen, rfl⟩ := Option.map_eq_some_iff.1 h
    exact ParallelWorkflowEngine.dispatchEnsemble_drawn hChosen
  · cases h
    exact ParallelWorkflowEngine.tryDispatchAgentLoop_drawn _ _ _ _ _
  · cases h
    exact ParallelWorkflowEngine.tryDispatchAgentLoop_drawn _ _ _ _ _
  · cases h
    exact ParallelWorkflowEngine.tryDispatchDynamicDispatch_drawn _ _
  · cases h
    exact ParallelWorkflowEngine.tryDispatchCapabilityDispatch_drawn _ _ _
  · cases h

/-- Every handler computes its report from runs that the guard has let through. -/
theorem expansionReport_drawn (h : R.expansionReport N D order idx results = some handled) :
    handled.Drawn N := by
  unfold expansionReport at h
  split at h
  · cases h
    exact ParallelWorkflowEngine.tryDispatchSubWorkflow_drawn _ _ _
  · cases h
    exact ParallelWorkflowEngine.dispatchLlmDispatch_drawn _ _ _ _
  · cases h
    exact ParallelWorkflowEngine.dispatchReflectiveRetry_drawn _ _ _ _
  · exact nestedReport_drawn h

/-- If no graph is run, then every attempt of every handler leads to an error. -/
theorem expansionReport_failed (hRefuses : N.Refuses)
    (h : R.expansionReport N D order idx results = some handled) :
    FailedExpansion (R.kindOf (R.nodeId idx)) handled.report := by
  unfold expansionReport at h
  split at h
  · rename_i hKind
    rw [hKind]
    cases h
    exact ⟨_, rfl, ParallelWorkflowEngine.dispatchSubworkflow_refused
      ((ParallelWorkflowEngine.tryDispatchSubWorkflow_drawn _ _ _).forall_runs hRefuses _)⟩
  · rename_i hKind
    rw [hKind]
    cases h
    exact ⟨_, rfl, ParallelWorkflowEngine.dispatchLlmDispatch_refused hRefuses _ _ _ _⟩
  · rename_i hKind
    rw [hKind]
    cases h
    exact ⟨_, rfl, ParallelWorkflowEngine.reflectiveAttempts_refused hRefuses _ _ _ _ _ _ _⟩
  · unfold nestedReport at h
    split at h
    · rename_i hKind
      rw [hKind]
      cases h
      exact ⟨_, rfl, ParallelWorkflowEngine.dispatchJudge_unavailable hRefuses _ _ _ _ _⟩
    · rename_i hKind
      rw [hKind]
      obtain ⟨chosen, hChosen, rfl⟩ := Option.map_eq_some_iff.1 h
      exact ⟨_, rfl, ParallelWorkflowEngine.dispatchEnsemble_refused hChosen
        (ParallelWorkflowEngine.noConsensus_of_refuses hRefuses _ _ _ _ _)⟩
    · rename_i hKind
      rw [hKind]
      cases h
      exact ⟨_, rfl, tryDispatchAgentLoop_failed hRefuses _ _ _ _ _⟩
    · rename_i hKind
      rw [hKind]
      cases h
      exact ⟨_, rfl, tryDispatchAgentLoop_failed hRefuses _ _ _ _ _⟩
    · rename_i dispatchExpression _ hKind
      rw [hKind]
      cases h
      obtain ⟨message, hError⟩ := ParallelWorkflowEngine.tryDispatchDynamicDispatch_refused
        ((ParallelWorkflowEngine.tryDispatchDynamicDispatch_drawn (E := R.toParallelWorkflowEngine)
          dispatchExpression (R.gatherInputs idx results)).forall_runs hRefuses _)
      refine ⟨message, ?_⟩
      simp only [Handled.map, hError]
    · rename_i hKind
      rw [hKind]
      cases h
      exact ⟨_, rfl, ParallelWorkflowEngine.tryDispatchCapabilityDispatch_refused
        ((ParallelWorkflowEngine.tryDispatchCapabilityDispatch_drawn _ _ _).forall_runs hRefuses _)⟩
    · cases h

theorem expansionReport_isSome (hRefuses : N.Refuses) (h : R.expands idx = true) :
    (R.expansionReport N D order idx results).isSome := by
  unfold expands at h
  unfold expansionReport nestedReport
  split at h
  case h_3 hKind =>
    rw [hKind]
    dsimp only
    rw [Option.isSome_map]
    exact ParallelWorkflowEngine.dispatchEnsemble_isSome hRefuses _ _ _ _ _
  case h_10 => cases h
  all_goals
    rename_i hKind
    rw [hKind]
    rfl

end Reactor

end Expansion

section Termination

variable {root E : ParallelWorkflowEngine H}

/-- What lies between the depth of an engine and the bound gets smaller with every level. -/
theorem acc_hydrates (hMax : E.maxSubflowDepth.toNat < usizeMax) :
    Acc (fun child parent => Hydrates parent child) E := by
  induction hRest : E.maxSubflowDepth.toNat - E.currentSubflowDepth.toNat using
    Nat.strong_induction_on generalizing E with
  | _ rest ih =>
      refine Acc.intro E ?_
      intro child hChild
      obtain ⟨hSame, hNext, hBound⟩ := hChild.depth hMax
      rw [UInt64.le_iff_toNat_le, hSame] at hBound
      refine ih _ ?_ (hSame ▸ hMax) rfl
      rw [hSame]
      omega

theorem Hydrated.depth {depth : Nat} (h : Hydrated root depth E)
    (hMax : root.maxSubflowDepth.toNat < usizeMax) :
    E.maxSubflowDepth = root.maxSubflowDepth ∧
      E.currentSubflowDepth.toNat = root.currentSubflowDepth.toNat + depth ∧
        (0 < depth → E.currentSubflowDepth ≤ E.maxSubflowDepth) := by
  induction h with
  | root => exact ⟨rfl, rfl, fun hNone => absurd hNone (Nat.lt_irrefl 0)⟩
  | deeper depth E E' _ hHydrates ih =>
      obtain ⟨hLimit, hDepth, -⟩ := ih
      obtain ⟨hSame, hNext, hBound⟩ := hHydrates.depth (hLimit ▸ hMax)
      refine ⟨hSame.trans hLimit, ?_, fun _ => hBound⟩
      omega

/-- No chain of nested runs is infinite: every level is within the bound, the runs that a handler
uses are one level deeper, and at the bound all that the handlers report are errors. -/
theorem nesting_terminates (hMax : root.maxSubflowDepth.toNat < usizeMax) :
    Acc (fun child parent => Hydrates parent child) root ∧
      ∀ depth E, Hydrated root depth E →
        (0 < depth → E.currentSubflowDepth ≤ E.maxSubflowDepth) ∧
          ∀ (N : Nesting H) (read : GraphReader) (runner : Runner H) (D : Doubles)
            (order : VoteOrder) (executionId : Uuid) (initialResults : Table Json)
            (idx : NodeIndex) (results : Table Json),
            (∀ handled, (E.reactor executionId initialResults).expansionReport
              (N.guarded E read runner) D order idx results = some handled →
                ∀ run ∈ handled.runs, Hydrated root (depth + 1) run.engine) ∧
              (E.maxSubflowDepth ≤ E.currentSubflowDepth →
                (E.reactor executionId initialResults).expands idx = true →
                  ∃ handled, (E.reactor executionId initialResults).expansionReport
                    (N.guarded E read runner) D order idx results = some handled ∧
                      handled.runs = [] ∧ FailedExpansion ((E.reactor executionId
                        initialResults).kindOf ((E.reactor executionId initialResults).nodeId idx))
                          handled.report) := by
  refine ⟨acc_hydrates hMax, fun depth E hHydrated => ?_⟩
  obtain ⟨hLimit, -, hBound⟩ := hHydrated.depth hMax
  refine ⟨hBound, fun N read runner D order executionId initialResults idx results => ⟨?_, ?_⟩⟩
  · intro handled hReport run hMem
    have hDrawn := Reactor.expansionReport_drawn hReport
    exact .deeper depth E run.engine hHydrated (hDrawn run hMem).hydrates
  · intro hReached hExpands
    have hRefuses : (N.guarded E read runner).Refuses := guarded_refuses hReached (hLimit ▸ hMax)
    obtain ⟨handled, hReport⟩ :=
      Option.isSome_iff_exists.1 (Reactor.expansionReport_isSome hRefuses hExpands)
    exact ⟨handled, hReport, (Reactor.expansionReport_drawn hReport).runs_nil hRefuses,
      Reactor.expansionReport_failed hRefuses hReport⟩

end Termination

section Samples

/-- An engine that returns is run as it stands. -/
noncomputable def Runner.standing (H : Host) : Runner H :=
  open Classical in
  { run := fun _ E _ =>
      if h : ∃ nested : NestedRun H, nested.engine = E then .ok h.choose else .error "no return"
    prepared := by
      intro call E trigger nested hRun
      split at hRun
      · rename_i h
        cases hRun
        refine ⟨⟨E.graph, E.nodeMap, E.nodeLabels, E.nodeConfigs, E.nodeMeta, E.nodeTimeouts,
          E.rateLimits⟩, E.actorContext, h.choose_spec⟩
      · cases hRun }

/-- A workflow of one node that runs the workflow itself, at a depth within the bound of 1. -/
def selfComposed (depth : UInt64) : ParallelWorkflowEngine (bareHost true) :=
  { nestingEngine (.subWorkflow 5 60) with
    graph := ⟨[4], [], by decide⟩
    nodeMeta := nodeTable [(4, systemNode (.subWorkflow 5 60))]
    maxSubflowDepth := 1
    currentSubflowDepth := depth }

def readSelfComposed : GraphReader := fun _ _ _ =>
  .ok ⟨(selfComposed 0).graph, (selfComposed 0).nodeMap, (selfComposed 0).nodeLabels,
    (selfComposed 0).nodeConfigs, (selfComposed 0).nodeMeta, (selfComposed 0).nodeTimeouts,
    (selfComposed 0).rateLimits⟩

/-- The nested runs of this workflow, at a depth. -/
noncomputable def selfNesting (depth : UInt64) : Nesting (bareHost true) :=
  approvalNesting.guarded (selfComposed depth) readSelfComposed (.standing _)

/-- What the node reports at the bound. -/
def refusedOutput : Json :=
  (SubflowError.buildFailed (WorkflowEngineError.subflowRecursionLimit 2 1).text).intoErrorEnvelope
    "Sub-workflow"

set_option maxRecDepth 4000 in
theorem selfComposed_returns : ∃ executionId initialResults s last t,
    (selfComposed 1).Returns executionId initialResults s last t
      (.ok ⟨nodeTable [(4, refusedOutput)], false⟩) := by
  have hReplay : (replay ((selfComposed 1).reactor 9 ∅).step (fun _ _ => True)
      [.pop (.outputs [refusedOutput]), .store]
      (((selfComposed 1).reactor 9 ∅).initialState ∅)).map (fun s => (decide s.Quiescent,
        (mapValues ((selfComposed 1).reactor 9 ∅).scrubOutput s.results).entries)) =
      some (true, (nodeTable [(4, refusedOutput)]).entries) := by
    decide
  exact returns_of_replay _ (acyclic_of_rank id (by decide)) rfl hReplay

theorem executeSubworkflowGraph_selfNesting (trigger : Json) :
    ∃ run, (selfComposed 0).executeSubworkflowGraph (selfNesting 0) 0 5 trigger = .ok run ∧
      run.engine = selfComposed 1 := by
  have hNested : ∃ nested : NestedRun (bareHost true), nested.engine = selfComposed 1 :=
    ⟨⟨selfComposed 1, _, selfComposed_returns⟩, rfl⟩
  refine ⟨hNested.choose, ?_, hNested.choose_spec⟩
  have hRun : (Runner.standing (bareHost true)).run 0 (selfComposed 1) trigger =
      .ok hNested.choose := dif_pos hNested
  have hGraph : (selfNesting 0).runGraph 0 .null trigger = .ok hNested.choose :=
    congrArg (Except.mapError RunFailure.execution) hRun
  have hStored : (selfNesting 0).getSubWorkflowGraph 5 5 = some .null := rfl
  have hUser : (selfComposed 0).userId = some 5 := rfl
  have hFetcher : (selfComposed 0).moduleFetcher.isNone = false := rfl
  have hSecrets : (selfComposed 0).secretsResolver.isNone = false := rfl
  simp only [ParallelWorkflowEngine.executeSubworkflowGraph, hFetcher, hUser, hSecrets, hStored,
    hGraph, Bool.false_eq_true, if_false]

/-- The workflow runs itself once, one level deeper. There it is at the bound, and the node that
would run it again reports an error without a run. -/
theorem nesting_terminates_self_composed :
    Acc (fun child parent => Hydrates parent child) (selfComposed 0) ∧
      ∃ run handled refused,
        ((selfComposed 0).reactor 9 ∅).expansionReport (selfNesting 0) sampleDoubles
          sampleVoteOrder 0 ∅ = some handled ∧ handled.runs = [run] ∧
        run.engine = selfComposed 1 ∧
        ((selfComposed 1).reactor 9 ∅).expansionReport (selfNesting 1) sampleDoubles
          sampleVoteOrder 0 ∅ = some refused ∧ refused.runs = [] ∧
        FailedExpansion (some (.subWorkflow 5 60)) refused.report := by
  have hMax : (selfComposed 0).maxSubflowDepth.toNat < usizeMax := by decide
  obtain ⟨hFinite, hLevels⟩ := nesting_terminates hMax
  let R := (selfComposed 0).reactor 9 ∅
  let trigger := ParallelWorkflowEngine.childTrigger (R.gatherInputs 0 ∅) (R.extractTriggerInput ∅)
  obtain ⟨run, hOutcome, hEngine⟩ := executeSubworkflowGraph_selfNesting (stripReserved trigger)
  have hHandled : R.expansionReport (selfNesting 0) sampleDoubles sampleVoteOrder 0 ∅ =
      some ((R.dispatchSubworkflow (selfNesting 0) trigger 5).map .output) := rfl
  have hRuns : (R.dispatchSubworkflow (selfNesting 0) trigger 5).runs = [run] :=
    congrArg returnedRuns hOutcome
  have hDeeper := (hLevels 0 _ .root).2 approvalNesting readSelfComposed (.standing _) sampleDoubles
    sampleVoteOrder 9 ∅ 0 ∅
  have hChild : Hydrated (selfComposed 0) 1 (selfComposed 1) :=
    hEngine ▸ hDeeper.1 _ hHandled run (hRuns ▸ List.mem_singleton_self run)
  obtain ⟨refused, hRefused, hNone, hFailed⟩ := ((hLevels 1 _ hChild).2 approvalNesting
    readSelfComposed (.standing _) sampleDoubles sampleVoteOrder 9 ∅ 0 ∅).2 (by decide) (by decide)
  exact ⟨hFinite, run, _, refused, hHandled, hRuns, hEngine, hRefused, hNone, hFailed⟩

end Samples

end TalosWorkflow
