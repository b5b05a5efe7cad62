import TalosWorkflow.Steps.Visits

/-!
# Completions

Every completed node has its result stored and its successors visited; the
verdicts say with which result and in which way.
-/

namespace TalosWorkflow

open Multigraph

namespace Reactor

variable {H : Host} (R : Reactor H)

section Completions

/-- The result of a node is stored and the loop over its successors begins. -/
def conclude (s : State) (idx : NodeIndex) (mode : Completion) (value : Json) : State :=
  let s := s.insert (R.nodeId idx) value
  (if mode = .unblocks then s else R.clearChain s idx).release mode idx (R.graph.successors idx)

/-- How a failed node is completed, unless it fails the workflow. -/
def failureVerdict (idx : NodeIndex) (message : String) : Option (Completion × Json) :=
  if R.errorChildren idx ≠ [] then
    some (.routes, R.routedEnvelope idx (R.scrubError message))
  else if R.continueOnError (R.nodeId idx) then
    some (.unblocks, continuedEnvelope (R.scrubError message))
  else none

/-- How a module node is completed by what its dispatch returned. -/
def resultVerdict (idx : NodeIndex) : Except String Json → Option (Completion × Json)
  | .ok output =>
      match sanitizeNodeOutput (R.sizeGuard output) with
      | .ok kept => some (.succeeds kept, kept)
      | .error _ => none
  | .error message => R.failureVerdict idx message

/-- How a system node is completed by what its handler reports. -/
def handlerVerdict (idx : NodeIndex) :
    Option SystemNodeKind → Answer → Option (Completion × Json)
  | some (.fanIn ..), .output v
  | some .collect, .output v
  | some (.synthesize ..), .output v
  | some (.verify ..), .output v
  | some (.confidenceGate ..), .output v
  | some (.agentLoop ..), .output v
  | some (.reActLoop ..), .output v
  | some (.whileLoop ..), .output v
  | some (.repeatLoop ..), .output v
  | some (.dynamicDispatch ..), .output v => some (.unblocks, v)
  | some (.verify ..), .error message
  | some (.confidenceGate ..), .error message
  | some (.dynamicDispatch ..), .error message => R.failureVerdict idx message
  | some (.inlineJudge ..), .output v
  | some (.judge ..), .output v
  | some (.ensemble ..), .output v
  | some (.reflectiveRetry ..), .output v
  | some (.llmDispatch ..), .output v =>
      if isErrorOutput v then
        R.failureVerdict idx (errorMessageOr v "system node rejected output")
      else some (.unblocks, v)
  | some (.capabilityDispatch ..), .output v
  | some (.loop ..), .output v =>
      if isErrorOutput v && !R.continueOnError (R.nodeId idx) then none else some (.unblocks, v)
  | _, _ => none

variable {R} {s t : State} {idx : NodeIndex}

theorem clearChain_eq (s : State) (idx : NodeIndex) :
    R.clearChain s idx =
      { s with pending := fun n => if n ∈ (R.chainOf idx).getD [] then 0 else s.pending n } := by
  have hFold : ∀ (members : List NodeIndex) (s : State),
      members.foldl (fun s member => s.setPending member 0) s =
        { s with pending := fun n => if n ∈ members then 0 else s.pending n } := by
    intro members
    induction members with
    | nil => simp
    | cons m members ih =>
        intro s
        rw [List.foldl_cons, ih]
        simp only [State.setPending, State.mk.injEq, true_and, and_true]
        funext n
        by_cases hn : n = m
        · subst hn
          simp
        · simp [hn]
  unfold Reactor.clearChain
  cases R.chainOf idx with
  | none => simp
  | some members => exact hFold members s

section Conclusions

variable (s idx) (mode : Completion) (value : Json)

@[simp]
theorem conclude_results :
    (R.conclude s idx mode value).results = s.results.insert (R.nodeId idx) value := by
  simp only [conclude, State.release_results]
  split <;> simp [clearChain_eq]

theorem conclude_pending (n : NodeIndex) :
    (R.conclude s idx mode value).pending n = s.pending n ∨
      n ∈ (R.chainOf idx).getD [] ∧ (R.conclude s idx mode value).pending n = 0 := by
  simp only [conclude, State.release_pending]
  split
  · exact .inl rfl
  · simp only [clearChain_eq, State.insert_pending]
    split
    · rename_i hn
      exact .inr ⟨hn, rfl⟩
    · exact .inl rfl

@[simp]
theorem conclude_visits : (R.conclude s idx mode value).visits =
    (R.graph.successors idx).map fun child => ⟨mode, idx, child⟩ := rfl

@[simp]
theorem conclude_ready : (R.conclude s idx mode value).ready = s.ready := by
  simp only [conclude, State.release_ready]
  split <;> simp [clearChain_eq]

@[simp]
theorem conclude_batch : (R.conclude s idx mode value).batch = s.batch := by
  simp only [conclude, State.release_batch]
  split <;> simp [clearChain_eq]

@[simp]
theorem conclude_executing : (R.conclude s idx mode value).executing = s.executing := by
  simp only [conclude, State.release_executing]
  split <;> simp [clearChain_eq]

@[simp]
theorem conclude_history :
    (R.conclude s idx mode value).history = .released idx :: s.history := by
  simp only [conclude, State.release_history]
  split <;> simp [clearChain_eq]

end Conclusions

theorem handleNodeFailure_eq (s : State) (idx : NodeIndex) (message : String) :
    R.handleNodeFailure s idx message =
      match R.failureVerdict idx message with
      | some (mode, value) => .ok (R.conclude s idx mode value)
      | none => .error (.failed ("node '" ++ R.labelOrId (R.nodeId idx) ++ "' failed: " ++
          R.scrubError message)) := by
  unfold handleNodeFailure failureVerdict
  split
  · rfl
  · split <;> rfl

theorem handleCompletedFuture_ok {result : Except String Json}
    (h : R.handleCompletedFuture s idx result = .ok t) :
    ∃ mode value, R.resultVerdict idx result = some (mode, value) ∧
      t = R.conclude s idx mode value := by
  cases result with
  | ok output =>
      simp only [handleCompletedFuture, handleNodeSuccess] at h
      cases hKept : sanitizeNodeOutput (R.sizeGuard output) with
      | error e =>
          rw [hKept] at h
          cases h
      | ok kept =>
          rw [hKept] at h
          cases h
          exact ⟨.succeeds kept, kept, by rw [resultVerdict, hKept], rfl⟩
  | error message =>
      rw [handleCompletedFuture, handleNodeFailure_eq] at h
      cases hVerdict : R.failureVerdict idx message with
      | none =>
          rw [hVerdict] at h
          cases h
      | some verdict =>
          rw [hVerdict] at h
          cases h
          exact ⟨verdict.1, verdict.2, hVerdict, rfl⟩

theorem sanitizeField_error {value : Json} {e : Halt} (h : sanitizeField value = .error e) :
    e = .charBoundary := by
  unfold sanitizeField at h
  split at h
  · split at h
    · split at h
      · cases h
      · cases h
        rfl
    · cases h
  · cases h

theorem sanitizeFields_error {fields : List (String × Json)} {e : Halt}
    (h : sanitizeFields fields = .error e) : e = .charBoundary := by
  induction fields with
  | nil => cases h
  | cons field rest ih =>
      obtain ⟨key, value⟩ := field
      simp only [sanitizeFields, bind, Except.bind] at h
      cases hValue : sanitizeField value with
      | error e' =>
          rw [hValue] at h
          cases h
          exact sanitizeField_error hValue
      | ok kept =>
          rw [hValue] at h
          cases hRest : sanitizeFields rest with
          | error e' =>
              rw [hRest] at h
              cases h
              exact ih hRest
          | ok kept' =>
              rw [hRest] at h
              cases h

theorem sanitizeNodeOutput_error {output : Json} {e : Halt}
    (h : sanitizeNodeOutput output = .error e) : e = .charBoundary := by
  unfold sanitizeNodeOutput at h
  split at h
  · rename_i fields
    cases hFields : sanitizeFields fields with
    | error e' =>
        simp only [hFields, bind, Except.bind] at h
        cases h
        exact sanitizeFields_error hFields
    | ok kept =>
        rw [hFields] at h
        cases h
  · cases h

/-- A completion halts the run by a failure or at a cut character, never at a counter. -/
theorem handleCompletedFuture_error {result : Except String Json} {e : Halt}
    (h : R.handleCompletedFuture s idx result = .error e) :
    e = .charBoundary ∨ ∃ message, e = .failed message := by
  cases result with
  | ok output =>
      simp only [handleCompletedFuture, handleNodeSuccess] at h
      cases hKept : sanitizeNodeOutput (R.sizeGuard output) with
      | error e' =>
          rw [hKept] at h
          cases h
          exact .inl (sanitizeNodeOutput_error hKept)
      | ok kept =>
          rw [hKept] at h
          cases h
  | error message =>
      rw [handleCompletedFuture, handleNodeFailure_eq] at h
      split at h
      · cases h
      · cases h
        exact .inr ⟨_, rfl⟩

end Completions

end Reactor

end TalosWorkflow
