import TalosWorkflow.Exits.Nesting
import TalosWorkflow.Ledger.Seeds

/-!
# Rejections

The gates and the dispatching handlers whose failures end the run, and what
has been dispatched by then.
-/

namespace TalosWorkflow

open Multigraph

variable {H : Host}

namespace Reactor

variable (R : Reactor H)

/-- The handler of the popped node reports a failure: an error output of the kinds that are routed
by it, or an error of the others. -/
def Rejects (s : State) (idx : NodeIndex) (answer : Answer) : Prop :=
  s.status = .running ∧ s.visits = [] ∧ s.batch = [] ∧ R.handledHead s = some idx ∧
    match R.kindOf (R.nodeId idx), answer with
    | some (.judge ..), .output v
    | some (.inlineJudge ..), .output v
    | some (.ensemble ..), .output v
    | some (.reflectiveRetry ..), .output v
    | some (.llmDispatch ..), .output v => isErrorOutput v = true
    | some (.verify ..), .error _
    | some (.confidenceGate ..), .error _
    | some (.dynamicDispatch ..), .error _ => True
    | _, _ => False

/-- Nothing takes care of a failure of the node. -/
structure Unhandled (idx : NodeIndex) : Prop where
  noErrorEdge : ∀ e ∈ R.graph.edges, e.source = idx → e.weight.isError = false
  stops : R.continueOnError (R.nodeId idx) = false

variable {R} {s t : State} {idx : NodeIndex} {answer : Answer}

theorem Unhandled.errorChildren (h : R.Unhandled idx) : R.errorChildren idx = [] := by
  apply List.filter_eq_nil_iff.2
  intro child _
  cases hEdge : R.graph.findEdge idx child with
  | none => simp
  | some e =>
      have hMem : e ∈ R.graph.edgesConnecting idx child := List.mem_of_mem_head? hEdge
      obtain ⟨hIn, hSource, -⟩ := (mem_edgesConnecting _).1 hMem
      simp [h.noErrorEdge e hIn hSource]

theorem Unhandled.failed (h : R.Unhandled idx) (s : State) (message : String) :
    ∃ m, R.handleNodeFailure s idx message = .error (.failed m) := by
  rw [handleNodeFailure]
  dsimp only
  rw [if_neg (not_not.2 h.errorChildren), h.stops]
  exact ⟨_, rfl⟩

theorem Unhandled.routed (h : R.Unhandled idx) (s : State) {v : Json} (hError : isErrorOutput v = true) :
    ∃ m, R.routeSystemNodeOutput s idx v = .error (.failed m) := by
  rw [routeSystemNodeOutput, if_pos hError]
  exact h.failed s _

theorem Rejects.dispatchKind (h : R.Rejects s idx answer) (hUnhandled : R.Unhandled idx)
    (base : State) :
    ∃ m, R.dispatchKind base idx (R.kindOf (R.nodeId idx)) answer = some (.error (.failed m)) := by
  obtain ⟨-, -, -, -, hReport⟩ := h
  generalize R.kindOf (R.nodeId idx) = kind at hReport
  split at hReport
  iterate 5
    obtain ⟨m, hFailed⟩ := hUnhandled.routed (handled base idx) hReport
    exact ⟨m, congrArg some hFailed⟩
  iterate 3
    rename_i message
    obtain ⟨m, hFailed⟩ := hUnhandled.failed (handled base idx) message
    exact ⟨m, congrArg some hFailed⟩
  cases hReport

/-- A rejection that nothing takes care of ends the run at once. -/
theorem Rejects.step (h : R.Rejects s idx answer) (hUnhandled : R.Unhandled idx) :
    ∃ m, R.step s (.pop answer) = some (s.halt (.failed m)) := by
  have hKind := h.dispatchKind hUnhandled
  obtain ⟨hRunning, hVisits, hBatch, hHead, -⟩ := h
  obtain ⟨base, -, -, -, -, hStep⟩ := step_handledHead hRunning hVisits hBatch hHead answer
  obtain ⟨m, hFailed⟩ := hKind base
  exact ⟨m, hStep _ hFailed⟩

end Reactor

section Runs

variable {E : ParallelWorkflowEngine H} {executionId : Uuid} {initialResults : Table Json}
  {s : State} {idx : NodeIndex} {answer : Answer}

/-- What has been started was dispatched itself, or follows in a chain. -/
theorem started_dispatched (hRun : E.Runs executionId initialResults (fun _ _ _ => True) s)
    {n : NodeIndex} (hn : n ∈ startedNodes s.history) :
    n ∈ dispatchedNodes s.history ∨ (E.reactor executionId initialResults).IsFollower n := by
  obtain hDispatched | ⟨members, hMem, hMember⟩ := mem_startedNodes.1 hn
  · exact .inl (List.mem_filterMap.2 ⟨_, hDispatched, rfl⟩)
  · obtain ⟨hChain, hNonempty⟩ := chainDispatched_mem_chains hRun members hMem
    obtain ⟨head, tail, rfl⟩ := List.exists_cons_of_ne_nil hNonempty
    obtain rfl | hTail := List.mem_cons.1 hMember
    · exact .inl (List.mem_filterMap.2 ⟨_, hMem, rfl⟩)
    · exact .inr (isFollower_of_mem_tail hChain hTail)

/-- A successor waits for the node at the head of the ready queue. -/
theorem successor_not_started (hClosed : SeedsClosed E initialResults)
    (hRun : E.Runs executionId initialResults CountsLiveFanIns s) (hRunning : s.status = .running)
    (hReady : idx ∈ s.ready)
    (hPlain : (E.reactor executionId initialResults).chainOf idx = none) {x : NodeIndex}
    (hArc : E.graph.Arc idx x)
    (hJoins : (E.reactor executionId initialResults).joinsEarly x = false) :
    x ∉ startedNodes s.history := by
  have hChains := reactor_chainsDetected E executionId initialResults
  obtain ⟨-, concluded, cascaded, hLedger⟩ := seeded_run_ledger hClosed hRun hRunning
  have hWork : idx ∈ s.work := List.mem_append_right _ (List.mem_append_left _ hReady)
  have hUnresolved := hLedger.not_mem_resolved hChains hWork mem_members_self
  intro hStarted
  obtain hDispatched | hFollower :=
    started_dispatched ⟨hRun.1, hRun.2.mono fun _ _ _ => trivial⟩ hStarted
  · obtain ⟨hEnqueued, -⟩ := hLedger.dispatchedEnqueued x hDispatched
    have hZero : s.pending x = 0 := hLedger.settled x (.inl hEnqueued)
    exact hUnresolved (hLedger.predecessors_resolved hZero hJoins hArc)
  · exact not_isInner_of_chainOf_none hPlain (isInner_of_arc hChains hFollower hArc)

/-- A rejection that nothing takes care of makes the run return an error, without another
dispatch. A successor that waits for all of its predecessors has not been dispatched before. -/
theorem rejection_fails_run (E : ParallelWorkflowEngine H) (executionId : Uuid)
    (initialResults : Table Json) (s : State) (idx : NodeIndex) (answer : Answer)
    (hRun : E.Runs executionId initialResults (fun _ _ _ => True) s)
    (hRejects : (E.reactor executionId initialResults).Rejects s idx answer)
    (hUnhandled : (E.reactor executionId initialResults).Unhandled idx) :
    ∃ t message, E.Returns executionId initialResults s (some (.pop answer)) t (.error message) ∧
      t.history = s.history ∧
      (∀ action, (E.reactor executionId initialResults).step t action = none) ∧
      (SeedsClosed E initialResults → E.Runs executionId initialResults CountsLiveFanIns s →
        ∀ x, E.graph.Arc idx x →
          (E.reactor executionId initialResults).joinsEarly x = false →
            x ∉ startedNodes t.history) := by
  obtain ⟨m, hStep⟩ := hRejects.step hUnhandled
  obtain ⟨hRunning, -, -, hHead, -⟩ := hRejects
  obtain ⟨hPlain, -, rest, hReady⟩ := Reactor.handledHead_some hHead
  have hIdx : idx ∈ s.ready := hReady ▸ List.mem_cons_self
  refine ⟨s.halt (.failed m), m, ⟨hRun, .stepped hStep, rfl⟩, rfl, fun action => ?_, ?_⟩
  · rw [Reactor.step, if_neg (by simp [State.halt])]
  · intro hClosed hLive x hArc hJoins
    exact successor_not_started hClosed hLive hRunning hIdx hPlain hArc hJoins

end Runs

section Samples

def rejectedOutput : Json := .object [("__error", .bool true)]

/-- A judge whose workflow has no verdict fails the run. -/
theorem rejection_fails_run_judge :
    ∃ s t message, (nestingEngine (.judge 5 "" none "error" 60)).Returns 9 ∅ s
      (some (.pop (.output rejectedOutput))) t (.error message) ∧ 1 ∉ startedNodes t.history := by
  let E := nestingEngine (.judge 5 "" none "error" 60)
  let R := E.reactor 9 ∅
  have hRun : E.Runs 9 ∅ (fun _ _ _ => True) (R.initialState ∅) :=
    ⟨nestingEngine_acyclic _, .refl⟩
  have hRejects : R.Rejects (R.initialState ∅) 0 (.output rejectedOutput) :=
    ⟨rfl, rfl, rfl, by decide, rfl⟩
  have hUnhandled : R.Unhandled 0 := ⟨by decide, by decide⟩
  obtain ⟨t, message, hReturns, -, -, hNone⟩ :=
    rejection_fails_run E 9 ∅ (R.initialState ∅) 0 _ hRun hRejects hUnhandled
  have hArc : E.graph.Arc 0 1 := ⟨⟨0, 1, {}⟩, List.mem_cons_self, rfl, rfl⟩
  exact ⟨_, t, message, hReturns,
    hNone .empty ⟨nestingEngine_acyclic _, .refl⟩ 1 hArc (by decide)⟩

/-- A judge behind a module, and a fan-in that takes whichever of the judge and another module is
first. -/
def racedJudgeEngine : ParallelWorkflowEngine (bareHost true) :=
  { ParallelWorkflowEngine.new with
    graph := ⟨[1, 2, 3, 4], [⟨0, 3, {}⟩, ⟨1, 2, {}⟩, ⟨2, 3, {}⟩], by decide⟩
    nodeMeta := nodeTable [(1, moduleNode), (2, moduleNode),
      (3, systemNode (.judge 5 "" none "error" 60)), (4, systemNode (.fanIn .any none))] }

def racedJudgeActions : List Action :=
  [.pop .accepted, .pop .accepted, .finish 0 (.ok .null) 1, .visit, .pop (.output .null),
    .finish 0 (.ok .null) 1, .visit]

/-- A seeded module behind a collector, and its successor, which also waits for a judge. -/
def reseededJudgeEngine : ParallelWorkflowEngine (bareHost true) :=
  { ParallelWorkflowEngine.new with
    graph := ⟨[1, 2, 3, 4, 5], [⟨0, 1, {}⟩, ⟨1, 2, {}⟩, ⟨4, 2, {}⟩, ⟨3, 4, {}⟩], by decide⟩
    nodeMap := nodeTable [(1, 0), (2, 1), (3, 2), (4, 3), (5, 4)]
    nodeMeta := nodeTable [(1, systemNode .collect), (2, moduleNode), (3, moduleNode),
      (4, moduleNode), (5, systemNode (.judge 5 "" none "error" 60))] }

def reseededJudgeActions : List Action :=
  [.pop (.output .null), .visit, .pop .accepted, .pop .accepted, .finish 1 (.ok .null) 1, .visit,
    .pop .accepted, .finish 0 (.ok .null) 1, .visit]

/-- A fan-in has been dispatched before the judge rejects. A seed whose predecessor is left to run
lets a module go ahead as well. -/
theorem successor_dispatched_before_rejection :
    (¬ ∀ (E : ParallelWorkflowEngine (bareHost true)) (executionId : Uuid)
      (initialResults : Table Json) (s : State) (idx : NodeIndex) (answer : Answer),
      E.Runs executionId initialResults (fun _ _ _ => True) s →
        (E.reactor executionId initialResults).Rejects s idx answer →
          (E.reactor executionId initialResults).Unhandled idx →
            ∃ t message,
              E.Returns executionId initialResults s (some (.pop answer)) t (.error message) ∧
                ∀ x, E.graph.Arc idx x → x ∉ startedNodes t.history) ∧
      ∃ (initialResults : Table Json) (s : State) (idx x : NodeIndex) (answer : Answer),
        reseededJudgeEngine.Runs 9 initialResults CountsLiveFanIns s ∧
          (reseededJudgeEngine.reactor 9 initialResults).Rejects s idx answer ∧
            (reseededJudgeEngine.reactor 9 initialResults).Unhandled idx ∧
              reseededJudgeEngine.graph.Arc idx x ∧
                (reseededJudgeEngine.reactor 9 initialResults).joinsEarly x = false ∧
                  x ∈ startedNodes s.history := by
  constructor
  · intro hAll
    let R := racedJudgeEngine.reactor 9 ∅
    have hReplay : (replay R.step (fun _ _ => True) racedJudgeActions (R.initialState ∅)).map
        (fun s => decide (s.status = .running ∧ s.visits.isEmpty ∧ s.batch.isEmpty ∧
          R.handledHead s = some 2 ∧ 3 ∈ startedNodes s.history)) = some true := by
      decide
    obtain ⟨s, hs, hEnd⟩ := Option.map_eq_some_iff.1 hReplay
    obtain ⟨hRunning, hVisits, hBatch, hHead, hStarted⟩ := of_decide_eq_true hEnd
    have hAcyclic : racedJudgeEngine.graph.Acyclic := acyclic_of_rank id (by decide)
    have hRejects : R.Rejects s 2 (.output rejectedOutput) :=
      ⟨hRunning, List.isEmpty_iff.1 hVisits, List.isEmpty_iff.1 hBatch, hHead, rfl⟩
    have hUnhandled : R.Unhandled 2 := ⟨by decide, by decide⟩
    obtain ⟨t, message, hReturns, hNone⟩ :=
      hAll _ 9 ∅ s 2 _ ⟨hAcyclic, replay_run hs⟩ hRejects hUnhandled
    have hArc : racedJudgeEngine.graph.Arc 2 3 := ⟨⟨2, 3, {}⟩, by decide, rfl, rfl⟩
    obtain ⟨m, hStep⟩ := hRejects.step hUnhandled
    cases hReturns.leaves with
    | stepped hTaken =>
        rw [hStep] at hTaken
        cases hTaken
        exact hNone 3 hArc hStarted
  · let seeds : Table Json := nodeTable [(2, .null)]
    let R := reseededJudgeEngine.reactor 9 seeds
    have hReplay : (replay R.step (CountsLiveFanIns R) reseededJudgeActions
        (R.initialState seeds)).map (fun s => decide (s.status = .running ∧ s.visits.isEmpty ∧
          s.batch.isEmpty ∧ R.handledHead s = some 4 ∧ 2 ∈ startedNodes s.history)) =
            some true := by
      decide
    obtain ⟨s, hs, hEnd⟩ := Option.map_eq_some_iff.1 hReplay
    obtain ⟨hRunning, hVisits, hBatch, hHead, hStarted⟩ := of_decide_eq_true hEnd
    have hAcyclic : reseededJudgeEngine.graph.Acyclic :=
      acyclic_of_rank (fun n => if n = 2 then 5 else n) (by decide)
    have hRejects : R.Rejects s 4 (.output rejectedOutput) :=
      ⟨hRunning, List.isEmpty_iff.1 hVisits, List.isEmpty_iff.1 hBatch, hHead, rfl⟩
    exact ⟨seeds, s, 4, 2, _, ⟨hAcyclic, replay_run hs⟩, hRejects, ⟨by decide, by decide⟩,
      ⟨⟨4, 2, {}⟩, by decide, rfl, rfl⟩, by decide, hStarted⟩

end Samples

end TalosWorkflow
