import TalosWorkflow.Gating.Departures
import TalosWorkflow.Jobs
import TalosWorkflow.Library.Journal

/-!
# Node events

What the scheduler loop writes to the event sink. The completion handler waits
for the sink, and so does a sub-workflow node at its end; all other writes are
spawned. Events of the dispatcher, of loop bodies and of the input of a module
are left out.
-/

namespace TalosWorkflow

structure NodeEventWrite where
  executionId : Uuid
  eventType : String
  nodeId : Option Uuid
  status : String
  logMessage : Option String
  iterationIndex : Option Int
  errorClass : Option String
  deriving DecidableEq

/-- What follows the first occurrence of `marker`. -/
def afterFirst (marker : List Char) : List Char → Option (List Char)
  | [] => if marker.isEmpty then some [] else none
  | c :: rest =>
      if marker.isPrefixOf (c :: rest) then some ((c :: rest).drop marker.length)
      else afterFirst marker rest

/-- The tag in an error like `Job failed (non-transient: <class>): <detail>`. -/
def extractNonTransientClass (errorMsg : String) : Option String := do
  let rest ← afterFirst "(non-transient: ".toList errorMsg.toList
  let stop ← rest.findIdx? (· = ')')
  return String.ofList (rest.take stop)

/-- An action of the loop, with what the clock says about the sub-workflows that it ends. -/
structure TimedAction where
  action : Action
  elapsedMs : NodeIndex → UInt64

def Flight.completes : Flight → Option NodeIndex
  | .single idx _ => some idx
  | .chain members _ => members.getLast?

namespace Reactor

variable {H : Host} (R : Reactor H)

section Events

def nodeStarted (idx : NodeIndex) : NodeEventWrite where
  executionId := R.executionId
  eventType := "node_started"
  nodeId := some (R.nodeId idx)
  status := "Running"
  logMessage := none
  iterationIndex := none
  errorClass := none

def nodeCompleted (idx : NodeIndex) (status : String) (logMessage : Option String) :
    NodeEventWrite where
  executionId := R.executionId
  eventType := "node_completed"
  nodeId := some (R.nodeId idx)
  status := status
  logMessage := logMessage
  iterationIndex := none
  errorClass := none

def nodeFailed (idx : NodeIndex) (logMessage errorClass : Option String) : NodeEventWrite where
  executionId := R.executionId
  eventType := "node_failed"
  nodeId := some (R.nodeId idx)
  status := "Failed"
  logMessage := logMessage
  iterationIndex := none
  errorClass := errorClass

def nodeSkipped (idx : NodeIndex) : NodeEventWrite where
  executionId := R.executionId
  eventType := "node_skipped"
  nodeId := some (R.nodeId idx)
  status := "Skipped"
  logMessage := none
  iterationIndex := none
  errorClass := none

/-- The error is scrubbed before it is written. -/
def failureEvent (idx : NodeIndex) (message : String) : NodeEventWrite :=
  R.nodeFailed idx (some (R.scrubError message))
    (extractNonTransientClass (R.scrubError message))

def futureEvent (idx : NodeIndex) : Except String Json → NodeEventWrite
  | .ok _ => R.nodeCompleted idx "Completed" none
  | .error message => R.failureEvent idx message

def subWorkflowEvent (idx : NodeIndex) (output : Json) (elapsedMs : UInt64) : NodeEventWrite :=
  if isErrorOutput output then
    R.nodeFailed idx ((output.get "error_message").bind Json.asStr) none
  else
    R.nodeCompleted idx "Completed"
      (some ("sub_workflow duration_ms=" ++ elapsedMs.toNat.repr))

/-- `emit_node_lifecycle_events`: one task makes both writes. -/
def lifecycle (idx : NodeIndex) (status logMessage : String) : List NodeEventWrite :=
  [R.nodeStarted idx, R.nodeCompleted idx status (some logMessage)]

def branchCount (output : Json) : String :=
  (((output.get "count").bind Json.asU64).getD 0).toNat.repr

def verifyLifecycle (idx : NodeIndex) (condition : String) (checkLabel : Option String)
    (results : Table Json) : List NodeEventWrite :=
  let passed := R.evalBool condition (R.gatherInputs idx results)
  R.lifecycle idx (if passed then "Completed" else "Failed")
    ("Verify '" ++ checkLabel.getD "output quality" ++ "': " ++
      if passed then "PASSED" else "FAILED")

end Events

section Writes

/-- The sub-workflow nodes that are dispatched together with `idx`. -/
def subWorkflowBatch (idx : NodeIndex) (rest : List NodeIndex) : List NodeIndex :=
  idx :: rest.filter R.isSubWorkflowNode

/-- The writes that the handler of a popped node waits for. -/
def awaitedByKind (elapsedMs : NodeIndex → UInt64) (idx : NodeIndex) (rest : List NodeIndex) :
    Option SystemNodeKind → Answer → List NodeEventWrite
  | some (.verify ..), .error message
  | some (.confidenceGate ..), .error message
  | some (.dynamicDispatch ..), .error message => [R.failureEvent idx message]
  | some (.inlineJudge ..), .output v
  | some (.judge ..), .output v
  | some (.ensemble ..), .output v
  | some (.reflectiveRetry ..), .output v
  | some (.llmDispatch ..), .output v =>
      if isErrorOutput v then
        [R.failureEvent idx (errorMessageOr v "system node rejected output")]
      else []
  | some (.subWorkflow ..), .outputs values =>
      ((R.subWorkflowBatch idx rest).zip values).map fun entry =>
        R.subWorkflowEvent entry.1 entry.2 (elapsedMs entry.1)
  | _, _ => []

/-- The writes that are spawned when a node is popped. -/
def detachedByKind (s : State) (idx : NodeIndex) (rest : List NodeIndex) :
    Option SystemNodeKind → Answer → List (List NodeEventWrite)
  | some .collect, .output v =>
      [R.lifecycle idx "Completed"
        ("collected " ++ branchCount v ++ " branch outputs into items array")]
  | some (.synthesize ..), .output v =>
      [R.lifecycle idx "Completed" ("synthesized " ++ branchCount v ++ " branch outputs")]
  | some (.verify condition checkLabel _), .output _
  | some (.verify condition checkLabel _), .error _ =>
      [R.verifyLifecycle idx condition checkLabel s.results]
  | some (.subWorkflow ..), .outputs _ =>
      (R.subWorkflowBatch idx rest).map fun other => [R.nodeStarted other]
  | some (.errorHandler pattern), .accepted =>
      if (R.tryDispatchErrorHandler idx pattern s.results).isSome then []
      else [[R.nodeStarted idx]]
  | none, .accepted => [[R.nodeStarted idx]]
  | _, _ => []

def awaitedWrites (s : State) (timed : TimedAction) : List NodeEventWrite :=
  match timed.action, s.ready with
  | .pop answer, idx :: rest =>
      if (R.chainOf idx).isSome || (R.checkSkipCondition idx s.results).isSome then []
      else R.awaitedByKind timed.elapsedMs idx rest (R.kindOf (R.nodeId idx)) answer
  | .finish position result _, _ =>
      match s.executing[position]?.bind Flight.completes with
      | some idx => [R.futureEvent idx result]
      | none => []
  | _, _ => []

def detachedWrites (s : State) (timed : TimedAction) : List (List NodeEventWrite) :=
  match timed.action, s.ready with
  | .pop answer, idx :: rest =>
      if (R.chainOf idx).isSome then []
      else if (R.checkSkipCondition idx s.results).isSome then [[R.nodeSkipped idx]]
      else R.detachedByKind s idx rest (R.kindOf (R.nodeId idx)) answer
  | _, _ => []

/-- The scheduler loop and its event sink; without a sink nothing is written. -/
def scribe : Scribe State TimedAction NodeEventWrite where
  step s timed := R.step s timed.action
  awaited s timed := if R.eventSink.isSome then R.awaitedWrites s timed else []
  detached s timed := if R.eventSink.isSome then R.detachedWrites s timed else []

end Writes

end Reactor

def NodeEventWrite.isTerminal (e : NodeEventWrite) : Bool :=
  e.eventType == "node_completed" || e.eventType == "node_failed"

/-- `e` says that the node `id` has ended. -/
def NodeEventWrite.Ends (id : Uuid) (e : NodeEventWrite) : Prop :=
  e.isTerminal = true ∧ e.nodeId = some id

/-- `e` says that the node `id` has started. -/
def NodeEventWrite.Starts (id : Uuid) (e : NodeEventWrite) : Prop :=
  e.eventType = "node_started" ∧ e.nodeId = some id

instance (id : Uuid) (e : NodeEventWrite) : Decidable (e.Ends id) := by
  unfold NodeEventWrite.Ends
  infer_instance

instance (id : Uuid) (e : NodeEventWrite) : Decidable (e.Starts id) := by
  unfold NodeEventWrite.Starts
  infer_instance

/-- A kind whose end is written by a spawned task. -/
def SystemNodeKind.endsDetached : SystemNodeKind → Bool
  | .collect | .synthesize .. | .verify .. => true
  | _ => false

namespace ParallelWorkflowEngine

variable {H : Host} (E : ParallelWorkflowEngine H)

/-- The journals that the interleavings of a run and its spawned writes can reach. -/
def Journals (executionId : Uuid) (initialResults : Table Json)
    (j : Journal State NodeEventWrite) : Prop :=
  let R := E.reactor executionId initialResults
  E.graph.Acyclic ∧
    Run R.scribe.write (Scribe.Admits fun _ _ => True) (.start (R.initialState initialResults)) j

def FreshJournal (executionId : Uuid) (j : Journal State NodeEventWrite) : Prop :=
  E.Journals executionId ∅ j

end ParallelWorkflowEngine

section Members

variable {H : Host} {R : Reactor H} {s t : State} {timed : TimedAction} {idx n : NodeIndex}
  {rest : List NodeIndex} {answer : Answer} {e : NodeEventWrite} {id : Uuid}

@[simp]
theorem starts_nodeStarted : (R.nodeStarted idx).Starts id ↔ R.nodeId idx = id := by
  simp [NodeEventWrite.Starts, Reactor.nodeStarted]

@[simp]
theorem not_ends_nodeStarted : ¬ (R.nodeStarted idx).Ends id := by
  simp [NodeEventWrite.Ends, NodeEventWrite.isTerminal, Reactor.nodeStarted]

@[simp]
theorem ends_nodeCompleted {status : String} {message : Option String} :
    (R.nodeCompleted idx status message).Ends id ↔ R.nodeId idx = id := by
  simp [NodeEventWrite.Ends, NodeEventWrite.isTerminal, Reactor.nodeCompleted]

@[simp]
theorem not_starts_nodeCompleted {status : String} {message : Option String} :
    ¬ (R.nodeCompleted idx status message).Starts id := by
  simp [NodeEventWrite.Starts, Reactor.nodeCompleted]

@[simp]
theorem ends_nodeFailed {message errorClass : Option String} :
    (R.nodeFailed idx message errorClass).Ends id ↔ R.nodeId idx = id := by
  simp [NodeEventWrite.Ends, NodeEventWrite.isTerminal, Reactor.nodeFailed]

@[simp]
theorem not_starts_nodeFailed {message errorClass : Option String} :
    ¬ (R.nodeFailed idx message errorClass).Starts id := by
  simp [NodeEventWrite.Starts, Reactor.nodeFailed]

@[simp]
theorem not_ends_nodeSkipped : ¬ (R.nodeSkipped idx).Ends id := by
  simp [NodeEventWrite.Ends, NodeEventWrite.isTerminal, Reactor.nodeSkipped]

@[simp]
theorem not_starts_nodeSkipped : ¬ (R.nodeSkipped idx).Starts id := by
  simp [NodeEventWrite.Starts, Reactor.nodeSkipped]

/-- An event that reports the end of `idx`, and nothing else. -/
structure Reactor.EndOf (R : Reactor H) (idx : NodeIndex) (e : NodeEventWrite) : Prop where
  ends : ∀ id, e.Ends id ↔ R.nodeId idx = id
  starts : ∀ id, ¬ e.Starts id

theorem endOf_failureEvent (message : String) : R.EndOf idx (R.failureEvent idx message) :=
  ⟨fun _ => ends_nodeFailed, fun _ => not_starts_nodeFailed⟩

theorem endOf_futureEvent (result : Except String Json) :
    R.EndOf idx (R.futureEvent idx result) := by
  cases result with
  | ok output => exact ⟨fun _ => ends_nodeCompleted, fun _ => not_starts_nodeCompleted⟩
  | error message => exact endOf_failureEvent message

theorem endOf_subWorkflowEvent (output : Json) (elapsedMs : UInt64) :
    R.EndOf idx (R.subWorkflowEvent idx output elapsedMs) := by
  unfold Reactor.subWorkflowEvent
  split
  · exact ⟨fun _ => ends_nodeFailed, fun _ => not_starts_nodeFailed⟩
  · exact ⟨fun _ => ends_nodeCompleted, fun _ => not_starts_nodeCompleted⟩

theorem mem_awaitedByKind {kind : Option SystemNodeKind} {elapsedMs : NodeIndex → UInt64}
    (hKind : R.kindOf (R.nodeId idx) = kind)
    (h : e ∈ R.awaitedByKind elapsedMs idx rest kind answer) :
    R.runsModule idx = false ∧ ∃ n ∈ R.subWorkflowBatch idx rest, R.EndOf n e := by
  have hSelf : ∀ message, e = R.failureEvent idx message →
      ∃ n ∈ R.subWorkflowBatch idx rest, R.EndOf n e := by
    rintro message rfl
    exact ⟨idx, List.mem_cons_self, endOf_failureEvent message⟩
  unfold Reactor.runsModule
  rw [hKind]
  unfold Reactor.awaitedByKind at h
  split at h
  any_goals exact ⟨rfl, hSelf _ (List.mem_singleton.1 h)⟩
  any_goals
    split at h
    · exact ⟨rfl, hSelf _ (List.mem_singleton.1 h)⟩
    · cases h
  · obtain ⟨⟨n, v⟩, hEntry, rfl⟩ := List.mem_map.1 h
    exact ⟨rfl, n, (List.of_mem_zip hEntry).1, endOf_subWorkflowEvent v _⟩
  · cases h

/-- An awaited write reports the end of a node that the step completes. -/
theorem mem_awaitedWrites (h : e ∈ R.awaitedWrites s timed) :
    (∃ answer idx rest, timed.action = .pop answer ∧ s.ready = idx :: rest ∧
      R.chainOf idx = none ∧ R.runsModule idx = false ∧
        ∃ n ∈ R.subWorkflowBatch idx rest, R.EndOf n e) ∨
      ∃ position result ran flight idx, timed.action = .finish position result ran ∧
        s.executing[position]? = some flight ∧ flight.completes = some idx ∧ R.EndOf idx e := by
  unfold Reactor.awaitedWrites at h
  split at h
  · rename_i answer idx rest hAction hReady
    split at h
    · cases h
    · rename_i hPlain
      simp only [Bool.or_eq_true, not_or, Bool.not_eq_true,
        Option.isSome_eq_false_iff, Option.isNone_iff_eq_none] at hPlain
      exact .inl ⟨answer, idx, rest, hAction, hReady, hPlain.1, mem_awaitedByKind rfl h⟩
  · rename_i position result ran hAction
    split at h
    · rename_i idx hCompletes
      obtain ⟨flight, hFlight, hIdx⟩ := Option.bind_eq_some_iff.1 hCompletes
      rw [List.mem_singleton.1 h]
      exact .inr ⟨position, result, ran, flight, idx, hAction, hFlight, hIdx,
        endOf_futureEvent result⟩
    · cases h
  · cases h

/-- A spawned write starts a node that leaves the queue, reports a skip, or reports the end of a
node whose kind has its end written so. -/
theorem mem_detachedWrites (h : e ∈ (R.detachedWrites s timed).flatten) :
    ∃ idx rest, s.ready = idx :: rest ∧
      ((∃ n ∈ R.subWorkflowBatch idx rest, e = R.nodeStarted n) ∨ e = R.nodeSkipped idx ∨
        ∃ kind, R.kindOf (R.nodeId idx) = some kind ∧ kind.endsDetached = true ∧
          R.EndOf idx e) := by
  unfold Reactor.detachedWrites at h
  split at h
  · rename_i answer idx rest hAction hReady
    refine ⟨idx, rest, hReady, ?_⟩
    have hSelf : idx ∈ R.subWorkflowBatch idx rest := List.mem_cons_self
    have hLifecycle : ∀ {kind status message}, R.kindOf (R.nodeId idx) = some kind →
        kind.endsDetached = true → e ∈ R.lifecycle idx status message →
          (∃ n ∈ R.subWorkflowBatch idx rest, e = R.nodeStarted n) ∨ e = R.nodeSkipped idx ∨
            ∃ kind, R.kindOf (R.nodeId idx) = some kind ∧ kind.endsDetached = true ∧
              R.EndOf idx e := by
      intro kind status message hKind hDetached he
      obtain rfl | he := List.mem_cons.1 he
      · exact .inl ⟨idx, hSelf, rfl⟩
      · rw [List.mem_singleton.1 he]
        exact .inr (.inr ⟨kind, hKind, hDetached,
          ⟨fun _ => ends_nodeCompleted, fun _ => not_starts_nodeCompleted⟩⟩)
    split at h
    · cases h
    · split at h
      · simp only [List.flatten_cons, List.flatten_nil, List.append_nil, List.mem_singleton] at h
        exact .inr (.inl h)
      · unfold Reactor.detachedByKind at h
        split at h
        case h_5 =>
          rw [List.mem_flatten] at h
          obtain ⟨task, hTask, he⟩ := h
          obtain ⟨n, hn, rfl⟩ := List.mem_map.1 hTask
          exact .inl ⟨n, hn, List.mem_singleton.1 he⟩
        case h_6 =>
          split at h
          · cases h
          · simp only [List.flatten_cons, List.flatten_nil, List.append_nil,
              List.mem_singleton] at h
            exact .inl ⟨idx, hSelf, h⟩
        case h_8 => cases h
        all_goals
          simp only [List.flatten_cons, List.flatten_nil, List.append_nil] at h
        case h_7 => exact .inl ⟨idx, hSelf, List.mem_singleton.1 h⟩
        all_goals exact hLifecycle ‹_› rfl h
  · cases h

end Members

end TalosWorkflow
