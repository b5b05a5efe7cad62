import TalosWorkflow.Steps.Completions

/-!
# Popped nodes

The state after a node has left the ready queue.
-/

namespace TalosWorkflow

open Multigraph

namespace Reactor

variable {H : Host} (R : Reactor H)

section Pops

/-- The result recorded for a node that is skipped when it is popped. -/
def skips (s : State) (idx : NodeIndex) : Option Json :=
  match R.checkSkipCondition idx s.results with
  | some output => some output
  | none =>
      match R.kindOf (R.nodeId idx) with
      | some (.errorHandler pattern) => R.tryDispatchErrorHandler idx pattern s.results
      | _ => none

/-- A node that is dispatched to its module. -/
def runsModule (idx : NodeIndex) : Bool :=
  match R.kindOf (R.nodeId idx) with
  | none => true
  | some (.errorHandler _) => true
  | _ => false

def handledEvents (idx : NodeIndex) : List Event :=
  if R.isFanIn idx then [.aggregated idx, .executed idx, .dispatched idx]
  else [.executed idx, .dispatched idx]

inductive Popped (R : Reactor H) (s : State) (idx : NodeIndex) (answer : Answer) : State → Prop
  | ignored (members : List NodeIndex) (hChain : R.chainOf idx = some members)
      (hHead : R.isChainHead idx = false) : Popped R s idx answer s
  | launchedChain (members : List NodeIndex) (hChain : R.chainOf idx = some members)
      (hHead : R.isChainHead idx = true) : Popped R s idx answer (R.launchChain s idx members)
  | skipped (output : Json) (hPlain : R.chainOf idx = none) (hSkips : R.skips s idx = some output) :
      Popped R s idx answer (R.conclude (s.log (.skipped idx)) idx .unblocks output)
  | refused (limit : Int) (hPlain : R.chainOf idx = none) (hSkips : R.skips s idx = none)
      (hKind : R.runsModule idx = true) (hAnswer : answer = .refused)
      (hLimit : R.rateLimits.lookup (R.resolveModuleId (R.nodeId idx)) = some limit) :
      Popped R s idx answer (R.conclude s idx .unblocks (rateLimitExceeded limit))
  | launched (hPlain : R.chainOf idx = none) (hSkips : R.skips s idx = none)
      (hKind : R.runsModule idx = true) (hAnswer : answer = .accepted) :
      Popped R s idx answer (R.launchSingle s idx)
  | handled (mode : Completion) (value : Json) (hPlain : R.chainOf idx = none)
      (hSkips : R.skips s idx = none)
      (hVerdict : R.handlerVerdict idx (R.kindOf (R.nodeId idx)) answer = some (mode, value)) :
      Popped R s idx answer
        (R.conclude { s with history := R.handledEvents idx ++ s.history } idx mode value)
  | paused (waiting : Json) (hPlain : R.chainOf idx = none) (hSkips : R.skips s idx = none) :
      Popped R s idx answer (R.pauseAt s idx waiting)
  | drained (values : List Json) (t : State) (hPlain : R.chainOf idx = none)
      (hSkips : R.skips s idx = none) (hKind : R.isSubWorkflowNode idx = true)
      (hAnswer : answer = .outputs values) (hDrain : R.drainSubWorkflows s idx values = some t) :
      Popped R s idx answer t

variable {R} {s t : State} {idx : NodeIndex} {answer : Answer}

theorem dispatchSingle_ok (hPlain : R.chainOf idx = none) (hSkips : R.skips s idx = none)
    (hKind : R.runsModule idx = true)
    (h : R.dispatchSingle s idx answer = some (.ok t)) : Popped R s idx answer t := by
  cases answer with
  | refused =>
      simp only [dispatchSingle] at h
      split at h
      · rename_i limit hLimit
        split at h
        · cases h
          exact .refused limit hPlain hSkips hKind rfl hLimit
        · cases h
      · cases h
  | accepted =>
      cases h
      exact .launched hPlain hSkips hKind rfl
  | _ => cases h

theorem dispatchSingle_ne_error {e : Halt} : R.dispatchSingle s idx answer ≠ some (.error e) := by
  intro h
  cases answer with
  | refused =>
      simp only [dispatchSingle] at h
      split at h
      · split at h <;> cases h
      · cases h
  | _ => cases h

theorem handleNodeFailure_ok {message : String}
    (h : R.handleNodeFailure s idx message = .ok t) :
    ∃ mode value, R.failureVerdict idx message = some (mode, value) ∧
      t = R.conclude s idx mode value :=
  handleCompletedFuture_ok (show R.handleCompletedFuture s idx (.error message) = .ok t from h)

theorem routeSystemNodeOutput_ok {output : Json}
    (h : R.routeSystemNodeOutput s idx output = .ok t) :
    ∃ mode value, (if isErrorOutput output then
        R.failureVerdict idx (errorMessageOr output "system node rejected output")
      else some (.unblocks, output)) = some (mode, value) ∧ t = R.conclude s idx mode value := by
  unfold routeSystemNodeOutput at h
  split at h
  · rename_i hError
    rw [if_pos hError]
    exact handleNodeFailure_ok h
  · rename_i hError
    cases h
    rw [if_neg hError]
    exact ⟨_, _, rfl, rfl⟩

theorem storeOrFail_ok {label fallback : String} {output : Json}
    (h : R.storeOrFail s idx label fallback output = .ok t) :
    (isErrorOutput output && !R.continueOnError (R.nodeId idx)) = false ∧
      t = R.conclude s idx .unblocks output := by
  simp only [storeOrFail] at h
  split at h
  · cases h
  · rename_i hStored
    cases h
    exact ⟨by simpa using hStored, rfl⟩

theorem dispatchKind_ok {kind : Option SystemNodeKind} (hKind : R.kindOf (R.nodeId idx) = kind)
    (hPlain : R.chainOf idx = none) (hCheck : R.checkSkipCondition idx s.results = none)
    (h : R.dispatchKind s idx kind answer = some (.ok t)) : Popped R s idx answer t := by
  have hSkips : (∀ pattern, kind ≠ some (.errorHandler pattern)) → R.skips s idx = none := by
    intro hNot
    unfold skips
    rw [hCheck]
    split
    · cases ‹(none : Option Json) = some _›
    · split
      · exact absurd (hKind.symm.trans ‹_›) (hNot _)
      · rfl
  have hEvents : R.isFanIn idx = false →
      R.handledEvents idx = [.executed idx, .dispatched idx] := by
    intro hNot
    simp [handledEvents, hNot]
  have handledCase : ∀ {mode : Completion} {value : Json},
      (∀ pattern, kind ≠ some (.errorHandler pattern)) → R.isFanIn idx = false →
      R.handlerVerdict idx kind answer = some (mode, value) →
      t = R.conclude (handled s idx) idx mode value → Popped R s idx answer t := by
    intro mode value hNot hFanIn hVerdict hState
    have hPopped := Popped.handled mode value hPlain (hSkips hNot) (hKind.symm ▸ hVerdict)
    rw [hEvents hFanIn] at hPopped
    exact hState ▸ hPopped
  cases kind with
  | none =>
      exact dispatchSingle_ok hPlain (hSkips fun _ h => by cases h) (by rw [runsModule, hKind]) h
  | some kind =>
      have hFanIn : (∀ mode expr, kind ≠ .fanIn mode expr) → R.isFanIn idx = false := by
        intro hNot
        unfold isFanIn
        rw [hKind]
        split
        · exact absurd (Option.some.inj ‹_›) (hNot _ _)
        · rfl
      cases kind with
      | errorHandler pattern =>
          simp only [dispatchKind] at h
          split at h
          · rename_i output hOutput
            cases h
            refine .skipped output hPlain ?_
            unfold skips
            rw [hCheck, hKind]
            exact hOutput
          · rename_i hOutput
            refine dispatchSingle_ok hPlain ?_ (by rw [runsModule, hKind]) h
            unfold skips
            rw [hCheck, hKind]
            exact hOutput
      | wait message =>
          simp only [dispatchKind] at h
          cases h
          exact .paused _ hPlain (hSkips fun _ h => by cases h)
      | fanIn mode expr =>
          cases answer with
          | output value =>
              cases h
              have hPopped : Popped R s idx (.output value) _ := .handled .unblocks value hPlain
                (hSkips fun _ h => by cases h) (hKind.symm ▸ rfl)
              rw [show R.handledEvents idx = [.aggregated idx, .executed idx, .dispatched idx] by
                simp [handledEvents, isFanIn, hKind]] at hPopped
              exact hPopped
          | _ => cases h
      | subWorkflow id timeout =>
          cases answer with
          | outputs values =>
              simp only [dispatchKind, Option.map_eq_some_iff] at h
              obtain ⟨_, hDrain, hOk⟩ := h
              cases hOk
              exact .drained values t hPlain (hSkips fun _ h => by cases h)
                (by simp [isSubWorkflowNode, hKind]) rfl hDrain
          | _ => cases h
      | confidenceGate threshold path low =>
          cases answer with
          | output value =>
              cases h
              exact handledCase (fun _ h => by cases h) (hFanIn fun _ _ h => by cases h) rfl rfl
          | error message =>
              simp only [dispatchKind, Option.some.injEq] at h
              obtain ⟨mode, value, hVerdict, hState⟩ := handleNodeFailure_ok h
              exact handledCase (fun _ h => by cases h) (hFanIn fun _ _ h => by cases h) hVerdict hState
          | pause waiting =>
              cases h
              exact .paused waiting hPlain (hSkips fun _ h => by cases h)
          | _ => cases h
      | verify _ _ _ | dynamicDispatch _ _ =>
          cases answer with
          | output value =>
              cases h
              exact handledCase (fun _ h => by cases h) (hFanIn fun _ _ h => by cases h) rfl rfl
          | error message =>
              simp only [dispatchKind, Option.some.injEq] at h
              obtain ⟨mode, value, hVerdict, hState⟩ := handleNodeFailure_ok h
              exact handledCase (fun _ h => by cases h) (hFanIn fun _ _ h => by cases h) hVerdict hState
          | _ => cases h
      | collect | synthesize _ | agentLoop _ _ _ _ | reActLoop _ _ _ _ | whileLoop _ _ | repeatLoop _ =>
          cases answer with
          | output value =>
              cases h
              exact handledCase (fun _ h => by cases h) (hFanIn fun _ _ h => by cases h) rfl rfl
          | _ => cases h
      | inlineJudge _ _ _ | judge _ _ _ _ _ | ensemble _ _ _ _ _ | reflectiveRetry _ _ _ _
      | llmDispatch _ _ _ _ =>
          cases answer with
          | output value =>
              simp only [dispatchKind, Option.some.injEq] at h
              obtain ⟨mode, kept, hVerdict, hState⟩ := routeSystemNodeOutput_ok h
              exact handledCase (fun _ h => by cases h) (hFanIn fun _ _ h => by cases h) hVerdict hState
          | _ => cases h
      | capabilityDispatch _ _ _ | loop _ _ =>
          cases answer with
          | output value =>
              simp only [dispatchKind, Option.some.injEq] at h
              obtain ⟨hStored, hState⟩ := storeOrFail_ok h
              refine handledCase (fun _ h => by cases h) (hFanIn fun _ _ h => by cases h) ?_ hState
              simp only [handlerVerdict, hStored]
              rfl
          | _ => cases h

theorem dispatchNode_ok (h : R.dispatchNode s idx answer = some (.ok t)) :
    Popped R s idx answer t := by
  unfold dispatchNode at h
  split at h
  · rename_i members hChain
    split at h
    · rename_i hHead
      cases h
      exact .launchedChain members hChain hHead
    · rename_i hHead
      cases h
      exact .ignored members hChain (by simpa using hHead)
  · rename_i hPlain
    split at h
    · rename_i output hSkip
      cases h
      refine .skipped output hPlain ?_
      unfold skips
      rw [hSkip]
    · rename_i hSkip
      exact dispatchKind_ok rfl hPlain hSkip h

end Pops

end Reactor

end TalosWorkflow
