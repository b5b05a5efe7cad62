import TalosWorkflow.Exits.Context
import TalosWorkflow.Policy.DryRun

/-!
# Redaction

Whether what a run returns has been through the sanitizers of the host.
-/

namespace TalosWorkflow

open Multigraph

variable {H : Host}

/-- An error text of a module or a handler, the engine's own words before it, and whether the
failure handling of nodes is passed by. -/
structure Report where
  words : String
  text : String
  direct : Bool
  deriving DecidableEq

namespace Reactor

variable (R : Reactor H)

def failedWords (idx : NodeIndex) : String := "node '" ++ R.labelOrId (R.nodeId idx) ++ "' failed: "

/-- What `continue_on_error` does not hold back. -/
def directReport (idx : NodeIndex) (label : String) (output : Json) : Option Report :=
  if isErrorOutput output && !R.continueOnError (R.nodeId idx) then
    ((output.get "error_message").bind Json.asStr).map fun text =>
      ⟨label ++ " node " ++ (R.nodeId idx).text ++ ": ", text, true⟩
  else none

def handlerReport (idx : NodeIndex) : Option SystemNodeKind → Answer → Option Report
  | some (.verify ..), .error message
  | some (.confidenceGate ..), .error message
  | some (.dynamicDispatch ..), .error message => some ⟨R.failedWords idx, message, false⟩
  | some (.inlineJudge ..), .output v
  | some (.judge ..), .output v
  | some (.ensemble ..), .output v
  | some (.reflectiveRetry ..), .output v
  | some (.llmDispatch ..), .output v =>
      ((v.get "error_message").bind Json.asStr).map fun text => ⟨R.failedWords idx, text, false⟩
  | some (.capabilityDispatch ..), .output v => R.directReport idx "Capability dispatch" v
  | some (.loop ..), .output v => R.directReport idx "Loop" v
  | _, _ => none

/-- The error text that reaches the engine in a step. -/
def report (s : State) : Action → Option Report
  | .pop answer => (R.handledHead s).bind fun idx =>
      R.handlerReport idx (R.kindOf (R.nodeId idx)) answer
  | .finish position (.error message) _ => (s.executing[position]?).map fun flight =>
      ⟨R.failedWords flight.last, message, false⟩
  | _ => none

/-- The results are images of the recorded outputs, and an error text of a module or a handler has
been scrubbed. -/
def Redacted (s : State) (last : Option Action) (t : State) :
    Except String WorkflowContext → Prop
  | .ok context => ∀ id value, context.results.lookup id = some value →
      ∃ output, t.results.lookup id = some output ∧ value = R.scrubOutput output
  | .error message => ∀ report, last.bind (R.report s) = some report →
      message = report.words ++ R.scrubError report.text

/-- A run that is paused holds nothing that the sanitizers would change, and neither does the text
of a failure that is not handled as that of a node. -/
def NothingToRedact (s : State) (last : Option Action) : Prop :=
  (∀ idx waiting, last.bind (R.pausing s) = some (idx, waiting) →
    R.scrubOutput waiting = waiting ∧
      ∀ id output, id ≠ R.nodeId idx → s.results.lookup id = some output →
        R.scrubOutput output = output) ∧
    ∀ report, last.bind (R.report s) = some report → report.direct = true →
      R.scrubError report.text = report.text

end Reactor

/-- The text with which a run fails that does not handle the report otherwise. -/
def Report.message (R : Reactor H) (report : Report) : String :=
  report.words ++ if report.direct then report.text else R.scrubError report.text

namespace Reactor

variable {R : Reactor H} {s t : State} {idx : NodeIndex}

theorem handleNodeFailure_failed {text message : String}
    (h : R.handleNodeFailure s idx text = .error (.failed message)) :
    message = R.failedWords idx ++ R.scrubError text := by
  rw [handleNodeFailure_eq] at h
  split at h
  · cases h
  · cases h
    rfl

theorem routeSystemNodeOutput_failed {output : Json} {message text : String}
    (h : R.routeSystemNodeOutput s idx output = .error (.failed message))
    (hText : (output.get "error_message").bind Json.asStr = some text) :
    message = R.failedWords idx ++ R.scrubError text := by
  unfold routeSystemNodeOutput at h
  split at h
  · rw [errorMessageOr, hText, Option.getD_some] at h
    exact handleNodeFailure_failed h
  · cases h

theorem storeOrFail_directReport {label fallback : String} {output : Json} {report : Report}
    (hReport : R.directReport idx label output = some report) :
    report.direct = true ∧
      R.storeOrFail s idx label fallback output = .error (.failed (report.message R)) := by
  unfold directReport at hReport
  split at hReport
  · rename_i hFails
    rw [Option.map_eq_some_iff] at hReport
    obtain ⟨text, hText, rfl⟩ := hReport
    refine ⟨rfl, ?_⟩
    simp only [storeOrFail, hFails, errorMessageOr, hText]
    rfl
  · cases hReport

/-- A report of a handler fails the run with its own text, or is handled as that of a node. -/
theorem dispatchKind_report {kind : Option SystemNodeKind} {answer : Answer}
    {outcome : Except Halt State} {report : Report}
    (hReport : R.handlerReport idx kind answer = some report)
    (h : R.dispatchKind s idx kind answer = some outcome) :
    (report.direct = true → outcome = .error (.failed (report.message R))) ∧
      ∀ message, outcome = .error (.failed message) → message = report.message R := by
  unfold handlerReport at hReport
  split at hReport
  all_goals first
    | cases hReport
      simp only [dispatchKind, Option.some.injEq] at h
      subst h
      exact ⟨fun hDirect => (by cases hDirect), fun message hFailed => handleNodeFailure_failed hFailed⟩
    | simp only [dispatchKind, Option.some.injEq] at h
      obtain ⟨text, hText, rfl⟩ := Option.map_eq_some_iff.1 hReport
      subst h
      exact ⟨fun hDirect => (by cases hDirect), fun message hFailed =>
        routeSystemNodeOutput_failed hFailed hText⟩
    | simp only [dispatchKind, Option.some.injEq] at h
      obtain ⟨-, hFails⟩ := storeOrFail_directReport hReport
      rw [← h, hFails]
      exact ⟨fun _ => rfl, fun message hSame => by cases hSame; rfl⟩
    | cases hReport

theorem finishFlight_failure {flight : Flight} {text : String} {ran : Nat}
    {outcome : Except Halt State}
    (h : R.finishFlight s flight (.error text) ran = some outcome) :
    ∃ u, u.status = s.status ∧ R.handleNodeFailure u flight.last text = outcome := by
  cases flight with
  | single idx parents =>
      cases h
      exact ⟨s.log (.executed idx), rfl, rfl⟩
  | chain members parents =>
      simp only [finishFlight] at h
      split at h
      · rename_i tail hTail
        split at h
        · cases h
          refine ⟨logExecuted s (members.take ran), rfl, ?_⟩
          rw [Flight.last, List.getLastD_eq_getLast?, hTail]
          rfl
        · cases h
      · cases h

/-- A run fails with the text of the report that reaches the engine. -/
theorem step_report {action : Action} {report : Report} (hStep : R.step s action = some t)
    (hReport : R.report s action = some report) :
    (report.direct = true → t.status = .failed (report.message R)) ∧
      ∀ message, t.status = .failed message → message = report.message R := by
  obtain ⟨hRunning, -⟩ := step_cases hStep
  unfold step at hStep
  rw [if_pos hRunning, Option.map_eq_some_iff] at hStep
  obtain ⟨outcome, hBody, rfl⟩ := hStep
  cases action with
  | visit => cases hReport
  | store => cases hReport
  | pop answer =>
      simp only [body] at hBody
      split at hBody
      · rename_i idx rest hVisits hBatch hReady
        simp only [Reactor.report] at hReport
        obtain ⟨hNone, -⟩ | ⟨hHead, hKind⟩ := dispatchNode_cases hReady hBody
        · rw [hNone] at hReport
          cases hReport
        · rw [hHead, Option.bind_some] at hReport
          obtain ⟨hDirect, hFailed⟩ := dispatchKind_report hReport hKind
          cases outcome with
          | ok u =>
              refine ⟨fun h => (by cases hDirect h), fun message hStatus => ?_⟩
              obtain ⟨-, hKept⟩ | ⟨waiting, -, rfl⟩ := dispatchKind_status hKind
              · rw [hKept, hRunning] at hStatus
                cases hStatus
              · cases hStatus
          | error e =>
              constructor
              · intro h
                cases hDirect h
                rfl
              · intro message hStatus
                cases e with
                | failed text =>
                    cases hStatus
                    exact hFailed _ rfl
                | counterUnderflow => cases hStatus
                | charBoundary => cases hStatus
      · cases hBody
  | finish position result ran =>
      cases result with
      | ok output => cases hReport
      | error text =>
          simp only [Reactor.report, Option.map_eq_some_iff] at hReport
          obtain ⟨flight, hFlight, rfl⟩ := hReport
          refine ⟨fun h => (by cases h), fun message hStatus => ?_⟩
          simp only [body] at hBody
          split at hBody
          · rename_i flight' hVisits hBatch hReady hFlight'
            rw [hFlight'] at hFlight
            cases hFlight
            obtain ⟨u, hKept, hFailure⟩ := finishFlight_failure hBody
            cases outcome with
            | ok v =>
                obtain ⟨mode, value, -, rfl⟩ := handleNodeFailure_ok hFailure
                simp only [conclude_status, hKept, hRunning] at hStatus
                cases hStatus
            | error e =>
                cases e with
                | failed text =>
                    cases hStatus
                    exact handleNodeFailure_failed hFailure
                | counterUnderflow => cases hStatus
                | charBoundary => cases hStatus
          · cases hBody

theorem redacted_mapValues (s t : State) (last : Option Action) :
    R.Redacted s last t (.ok { results := mapValues R.scrubOutput t.results }) := by
  intro id value hValue
  rw [lookup_mapValues, Option.map_eq_some_iff] at hValue
  obtain ⟨output, hOutput, rfl⟩ := hValue
  exact ⟨output, hOutput, rfl⟩

/-- A run that is paused is redacted if its results are fixed points. -/
theorem redacted_paused_iff {last : Option Action} {waiting : Json}
    (hResults : t.results = s.results.insert (R.nodeId idx) waiting) :
    R.Redacted s last t (.ok { results := t.results, waiting := true }) ↔
      R.scrubOutput waiting = waiting ∧
        ∀ id output, id ≠ R.nodeId idx → s.results.lookup id = some output →
          R.scrubOutput output = output := by
  have hFixed : R.Redacted s last t (.ok { results := t.results, waiting := true }) ↔
      ∀ id output, t.results.lookup id = some output → R.scrubOutput output = output := by
    constructor
    · intro hRedacted id output hOutput
      obtain ⟨recorded, hRecorded, hImage⟩ := hRedacted id output hOutput
      rw [hOutput] at hRecorded
      cases hRecorded
      exact hImage.symm
    · intro hAll id output hOutput
      exact ⟨output, hOutput, (hAll id output hOutput).symm⟩
  rw [hFixed, hResults]
  constructor
  · intro hAll
    refine ⟨hAll _ waiting (AList.lookup_insert _), fun id output hId hOutput => ?_⟩
    refine hAll id output ?_
    rw [AList.lookup_insert_ne hId]
    exact hOutput
  · rintro ⟨hWaiting, hRest⟩ id output hOutput
    by_cases hId : id = R.nodeId idx
    · rw [hId, AList.lookup_insert] at hOutput
      cases hOutput
      exact hWaiting
    · rw [AList.lookup_insert_ne hId] at hOutput
      exact hRest id output hId hOutput

theorem redacted_step_iff {action : Action} {outcome : Except String WorkflowContext}
    (hStep : R.step s action = some t) (hReturned : R.returned t = some outcome) :
    R.Redacted s (some action) t outcome ↔ R.NothingToRedact s (some action) := by
  unfold returned at hReturned
  constructor
  · intro hRedacted
    constructor
    · intro idx waiting hPausing
      obtain ⟨hNone, -⟩ | ⟨idx', waiting', hSome, hPaused, hResults⟩ := step_pausing hStep
      · cases hNone.symm.trans hPausing
      · cases hSome.symm.trans hPausing
        rw [hPaused] at hReturned
        cases hReturned
        exact (redacted_paused_iff hResults).1 hRedacted
    · intro report hReport hDirect
      have hFailed := (step_report hStep hReport).1 hDirect
      rw [hFailed] at hReturned
      cases hReturned
      have hSame := hRedacted report hReport
      rw [Report.message, if_pos hDirect, String.append_right_inj] at hSame
      exact hSame.symm
  · rintro ⟨hPauses, hReports⟩
    split at hReturned
    · split at hReturned
      · cases hReturned
        exact redacted_mapValues s t (some action)
      · cases hReturned
    · rename_i hPaused
      cases hReturned
      obtain ⟨-, hNot⟩ | ⟨idx, waiting, hSome, -, hResults⟩ := step_pausing hStep
      · exact absurd hPaused hNot
      · exact (redacted_paused_iff hResults).2 (hPauses idx waiting hSome)
    · rename_i message hFailed
      cases hReturned
      intro report hReport
      rw [(step_report hStep hReport).2 message hFailed, Report.message]
      split
      · rename_i hDirect
        rw [hReports report hReport hDirect]
      · rfl
    · cases hReturned

end Reactor

section Runs

variable {E : ParallelWorkflowEngine H} {executionId : Uuid} {initialResults : Table Json}
  {s t : State} {last : Option Action} {outcome : Except String WorkflowContext}

/-- In every run that returns, the results and the error text have been through the sanitizers
exactly if a pause or a direct failure at its end has nothing to redact. -/
theorem returned_redacted_iff (h : E.Returns executionId initialResults s last t outcome) :
    (E.reactor executionId initialResults).Redacted s last t outcome ↔
      (E.reactor executionId initialResults).NothingToRedact s last := by
  obtain ⟨-, hLeaves, hReturned⟩ := h
  cases hLeaves with
  | drained hQuiescent =>
      rw [Reactor.returned, hQuiescent.1] at hReturned
      rw [if_pos hQuiescent] at hReturned
      cases hReturned
      refine iff_of_true (Reactor.redacted_mapValues s s none) ⟨?_, ?_⟩
      · intro idx waiting hPausing
        cases hPausing
      · intro report hReport
        cases hReport
  | stepped hStep => exact Reactor.redacted_step_iff hStep hReturned

end Runs

section Samples

def sampleSanitizer : OutputSanitizer where
  redactStr s := if s = "sk-live" then "***" else s
  redactJson v := if v = .string "sk-live" then .string "***" else v
  newExecution _ := ⟨id, id⟩

def waitingEngine : ParallelWorkflowEngine (bareHost true) :=
  { ParallelWorkflowEngine.new with
    graph := twoNodes
    nodeMeta := nodeTable [(1, moduleNode), (2, systemNode (.wait none))]
    outputSanitizer := some sampleSanitizer }

def capabilityEngine : ParallelWorkflowEngine (bareHost true) :=
  { ParallelWorkflowEngine.new with
    graph := ⟨[1], [], by decide⟩
    nodeMeta := nodeTable [(1, systemNode (.capabilityDispatch [] none 60))]
    outputSanitizer := some sampleSanitizer }

def failedOutput : Json := .object [("__error", .bool true), ("error_message", .string "sk-live")]

theorem waitingEngine_acyclic : waitingEngine.graph.Acyclic := acyclic_of_rank id (by decide)

theorem capabilityEngine_acyclic : capabilityEngine.graph.Acyclic :=
  acyclic_of_rank id (by decide)

/-- A capability dispatch that is the last node of its run. -/
theorem returned_redacted_capability_output :
    ∃ s context, capabilityEngine.Returns 9 ∅ s none s (.ok context) ∧
      context.results.lookup 1 = some (.string "***") ∧
        (capabilityEngine.reactor 9 ∅).Redacted s none s (.ok context) := by
  let R := capabilityEngine.reactor 9 ∅
  have hReplay : (replay R.step (fun _ _ => True) [.pop (.output (.string "sk-live"))]
      (R.initialState ∅)).map (fun s => (decide s.Quiescent, s.results.lookup 1)) =
        some (true, some (.string "sk-live")) := by
    decide
  obtain ⟨s, hs, hObserved⟩ := Option.map_eq_some_iff.1 hReplay
  obtain ⟨hDrained, hOutput⟩ := Prod.mk.inj hObserved
  have hQuiescent : s.Quiescent := of_decide_eq_true hDrained
  have hReturned : R.returned s = some (.ok { results := mapValues R.scrubOutput s.results }) := by
    rw [Reactor.returned, hQuiescent.1]
    exact if_pos hQuiescent
  have hReturns : capabilityEngine.Returns 9 ∅ s none s _ :=
    ⟨⟨capabilityEngine_acyclic, replay_run hs⟩, .drained hQuiescent, hReturned⟩
  refine ⟨s, _, hReturns, ?_, (returned_redacted_iff hReturns).2 ⟨?_, ?_⟩⟩
  · rw [lookup_mapValues, hOutput]
    decide
  · intro idx waiting hPausing
    cases hPausing
  · intro report hReport
    cases hReport

/-- A pause returns the output of the module as it is, and so does the failure of a capability
dispatch with the text of its handler. -/
theorem raw_output_returned :
    (∃ s t context, waitingEngine.Returns 9 ∅ s (some (.pop .accepted)) t (.ok context) ∧
      context.results.lookup 1 = some (.string "sk-live") ∧
        ¬ (waitingEngine.reactor 9 ∅).Redacted s (some (.pop .accepted)) t (.ok context)) ∧
      ∃ s t message, capabilityEngine.Returns 9 ∅ s (some (.pop (.output failedOutput))) t
        (.error message) ∧
          ¬ (capabilityEngine.reactor 9 ∅).Redacted s (some (.pop (.output failedOutput))) t
            (.error message) := by
  constructor
  · let R := waitingEngine.reactor 9 ∅
    have hReplay : (replay R.step (fun _ _ => True)
        [.pop .accepted, .finish 0 (.ok (.string "sk-live")) 1, .visit, .pop .accepted]
        (R.initialState ∅)).map (fun t => (t.status, t.results.lookup 1)) =
          some (.paused, some (.string "sk-live")) := by
      decide
    obtain ⟨t, ht, hObserved⟩ := Option.map_eq_some_iff.1 hReplay
    obtain ⟨hPaused, hOutput⟩ := Prod.mk.inj hObserved
    have hReturned : R.returned t = some (.ok { results := t.results, waiting := true }) := by
      rw [Reactor.returned, hPaused]
    obtain ⟨s, hReturns⟩ := ParallelWorkflowEngine.Returns.of_replay
      [.pop .accepted, .finish 0 (.ok (.string "sk-live")) 1, .visit] (.pop .accepted)
      waitingEngine_acyclic (by decide) ht hReturned
    refine ⟨s, t, _, hReturns, hOutput, fun hRedacted => ?_⟩
    obtain ⟨output, hRecorded, hImage⟩ := hRedacted 1 _ hOutput
    rw [hOutput] at hRecorded
    cases hRecorded
    revert hImage
    decide
  · let R := capabilityEngine.reactor 9 ∅
    let words := "Capability dispatch node " ++ (1 : Uuid).text ++ ": "
    have hStep : (R.step (R.initialState ∅) (.pop (.output failedOutput))).map (fun t => t.status) =
        some (.failed (words ++ "sk-live")) := by
      decide
    obtain ⟨t, ht, hFailed⟩ := Option.map_eq_some_iff.1 hStep
    have hReturned : R.returned t = some (.error (words ++ "sk-live")) := by
      rw [Reactor.returned, hFailed]
    refine ⟨R.initialState ∅, t, _, ⟨⟨capabilityEngine_acyclic, .refl⟩, .stepped ht, hReturned⟩, ?_⟩
    intro hRedacted
    have hImage := hRedacted ⟨words, "sk-live", true⟩ (by decide)
    revert hImage
    decide

end Samples

end TalosWorkflow
