import TalosWorkflow.Ledger.Runs

/-!
# Fresh runs

Each node is enqueued once and no counter underflows as long as no edge is
counted into a released fan-in; without fan-ins this holds of every run, and
nodes are dispatched after their predecessors.
-/

namespace TalosWorkflow

open Multigraph

section Runs

variable {H : Host} {E : ParallelWorkflowEngine H} {executionId : Uuid} {s : State}

/-- The ledger along a run, or the counts that are left of it once the run has ended. -/
theorem fresh_run_ledger (hRun : E.FreshRun executionId CountsLiveFanIns s) :
    (s.status = .running → Orderly (E.reactor executionId ∅) s ∧ ∃ concluded cascaded,
      Ledger (E.reactor executionId ∅) s concluded cascaded) ∧ Once s := by
  obtain ⟨hAcyclic, hRun⟩ := hRun
  have hChains := reactor_chainsDetected E executionId ∅
  have hInitial := Ledger.initial hChains
  refine Run.invariant (fun s => (s.status = .running → Orderly (E.reactor executionId ∅) s ∧
    ∃ concluded cascaded, Ledger (E.reactor executionId ∅) s concluded cascaded) ∧ Once s) ?_ hRun
    ⟨fun _ => ⟨Orderly.initial hChains (.inr rfl), [], [], hInitial⟩, hInitial.once⟩
  intro s action t hLive hInv hStep
  obtain ⟨hOrderly, concluded, cascaded, hLedger⟩ := hInv.1 (Reactor.step_cases hStep).1
  have hKept := hLedger.step hAcyclic hChains hOrderly hLive hStep
  exact ⟨hKept.ledger, hKept.once⟩

/-- Nothing is enqueued, aggregated or released twice and no counter underflows while the
fan-ins that edges are counted into are live. -/
theorem fresh_run_once (E : ParallelWorkflowEngine H) (executionId : Uuid) (s : State)
    (hRun : E.FreshRun executionId CountsLiveFanIns s) :
    (enqueuedNodes s.history).Nodup ∧ (aggregatedNodes s.history).Nodup ∧
      (releasedNodes s.history).Nodup ∧ ∀ n, .underflow n ∉ s.history := by
  have hOnce := (fresh_run_ledger hRun).2
  exact ⟨hOnce.enqueued, hOnce.aggregated, hOnce.released, hOnce.underflow⟩

end Runs

section Samples

def bareHost (overflowChecks : Bool) : Host where
  EventSink := Empty
  NodeLifecycleHook := Empty
  WorkflowGraphStore := Empty
  SubworkflowActorContextResolver := Empty
  RetryClassifier := Empty
  ModuleExecutionStore := Empty
  RateLimitStore := Empty
  CancellationToken := Empty
  aesGcmSecretEnvelope := ⟨fun _ _ => .ok ([], [])⟩
  defaultSandboxRoot := "/tmp"
  overflowChecks := overflowChecks

def moduleNode : NodeMeta := ⟨some 7, none, none⟩

def systemNode (kind : SystemNodeKind) : NodeMeta := ⟨none, none, some kind⟩

def nodeTable {α : Type} : List (Uuid × α) → Table α :=
  List.foldl (fun table entry => table.insert entry.1 entry.2) ∅

def twoNodes : Multigraph Uuid EdgeLogic := ⟨[1, 2], [⟨0, 1, {}⟩], by decide⟩

/-- Two modules that feed a fan-in of mode `any`. -/
def anyJoinEngine (overflowChecks : Bool) : ParallelWorkflowEngine (bareHost overflowChecks) :=
  { ParallelWorkflowEngine.new with
    graph := ⟨[1, 2, 3], [⟨0, 2, {}⟩, ⟨1, 2, {}⟩], by decide⟩
    nodeMeta := nodeTable [(1, moduleNode), (2, moduleNode), (3, systemNode (.fanIn .any none))] }

/-- The fan-in is aggregated as soon as one of its parents is complete. -/
def anyJoinActions : List Action :=
  [.pop .accepted, .pop .accepted, .finish 0 (.ok .null) 1, .visit, .pop (.output .null)]

theorem anyJoinEngine_acyclic (overflowChecks : Bool) :
    (anyJoinEngine overflowChecks).graph.Acyclic :=
  acyclic_of_rank id (by decide +revert)

theorem fresh_run_once_any_join :
    ∃ s, (anyJoinEngine true).FreshRun 9 CountsLiveFanIns s ∧
      aggregatedNodes s.history = [2] ∧ (enqueuedNodes s.history).Nodup ∧
        (aggregatedNodes s.history).Nodup ∧ (releasedNodes s.history).Nodup ∧
          ∀ n, .underflow n ∉ s.history := by
  let R := (anyJoinEngine true).reactor 9 ∅
  have hSome : (replay R.step (CountsLiveFanIns R) anyJoinActions (R.initialState ∅)).isSome := by
    decide
  obtain ⟨s, hs⟩ := Option.isSome_iff_exists.1 hSome
  have hAggregated : (replay R.step (CountsLiveFanIns R) anyJoinActions (R.initialState ∅)).map
      (fun s => aggregatedNodes s.history) = some [2] := by
    decide
  rw [hs] at hAggregated
  have hRun : (anyJoinEngine true).FreshRun 9 CountsLiveFanIns s :=
    ⟨anyJoinEngine_acyclic true, replay_run hs⟩
  exact ⟨s, hRun, Option.some.inj hAggregated, fresh_run_once (anyJoinEngine true) 9 s hRun⟩

/-- Both parents of the fan-in succeed, the second one after the fan-in was released. -/
def lateParentActions : List Action :=
  [.pop .accepted, .pop .accepted, .finish 0 (.ok .null) 1, .visit, .pop (.output .null),
    .finish 0 (.ok .null) 1, .visit, .pop (.output .null)]

theorem late_parent_reenqueues :
    ¬ ∀ (H : Host) (E : ParallelWorkflowEngine H) (executionId : Uuid) (s : State),
      E.FreshRun executionId (fun _ _ _ => True) s →
        (enqueuedNodes s.history).Nodup ∧ (aggregatedNodes s.history).Nodup ∧
          (releasedNodes s.history).Nodup ∧ ∀ n, .underflow n ∉ s.history := by
  intro hAll
  let R := (anyJoinEngine false).reactor 9 ∅
  have hReplay : (replay R.step (fun _ _ => True) lateParentActions (R.initialState ∅)).map
      (fun s => (enqueuedNodes s.history, decide (.underflow 2 ∈ s.history))) =
        some ([2, 2, 1, 0], true) := by
    decide
  obtain ⟨s, hs, hEvents⟩ := Option.map_eq_some_iff.1 hReplay
  have hOnce := hAll _ (anyJoinEngine false) 9 s ⟨anyJoinEngine_acyclic false, replay_run hs⟩
  rw [Prod.mk.injEq, decide_eq_true_eq] at hEvents
  exact hOnce.2.2.2 2 hEvents.2

end Samples

section FanInFree

variable {H : Host} {E : ParallelWorkflowEngine H} {executionId : Uuid} {s : State}

theorem isFollower_of_mem_tail {R : Reactor H} {chain : List NodeIndex} (hChain : chain ∈ R.chains)
    {n : NodeIndex} (hn : n ∈ chain.tail) : R.IsFollower n := by
  obtain ⟨i, hi, rfl⟩ := List.getElem_of_mem hn
  rw [List.length_tail] at hi
  exact ⟨_, Reactor.consecutive_iff.2
    ⟨chain, hChain, i, by omega, by omega, rfl, (List.getElem_tail ..).symm⟩⟩

def FanInFree (E : ParallelWorkflowEngine H) : Prop :=
  ∀ idx < E.graph.nodes.length, ∀ mode expr, E.kindOf (E.nodeId idx) ≠ some (.fanIn mode expr)

theorem FanInFree.joinsEarly_eq_false (hFanIn : FanInFree E) (executionId : Uuid)
    {idx : NodeIndex} (hIdx : idx < E.graph.nodes.length) :
    (E.reactor executionId ∅).joinsEarly idx = false := by
  rw [Bool.eq_false_iff]
  intro hJoins
  obtain ⟨mode, expr, hKind⟩ := Reactor.isFanIn_iff.1 (Reactor.isFanIn_of_joinsEarly hJoins)
  exact hFanIn idx hIdx mode expr hKind

theorem FanInFree.countsLiveFanIns (hFanIn : FanInFree E)
    (hOrderly : Orderly (E.reactor executionId ∅) s) (action : Action) :
    CountsLiveFanIns (E.reactor executionId ∅) s action := by
  unfold CountsLiveFanIns
  split
  · rename_i hVisits
    intro _ hIs
    have hTarget := (hOrderly.targets _ (hVisits ▸ List.mem_cons_self)).2.target_lt
    rw [hFanIn.joinsEarly_eq_false executionId hTarget] at hIs
    cases hIs
  · trivial

theorem fan_in_free_ledger (hFanIn : FanInFree E)
    (hRun : E.FreshRun executionId (fun _ _ _ => True) s) :
    (s.status = .running → Orderly (E.reactor executionId ∅) s ∧ ∃ concluded cascaded,
      Ledger (E.reactor executionId ∅) s concluded cascaded) ∧ Once s ∧
        ∀ n ∈ dispatchedNodes s.history, ¬ (E.reactor executionId ∅).IsFollower n := by
  obtain ⟨hAcyclic, hRun⟩ := hRun
  have hChains := reactor_chainsDetected E executionId ∅
  have hInitial := Ledger.initial hChains
  refine Run.invariant (fun s => (s.status = .running → Orderly (E.reactor executionId ∅) s ∧
    ∃ concluded cascaded, Ledger (E.reactor executionId ∅) s concluded cascaded) ∧ Once s ∧
      ∀ n ∈ dispatchedNodes s.history, ¬ (E.reactor executionId ∅).IsFollower n) ?_ hRun
    ⟨fun _ => ⟨Orderly.initial hChains (.inr rfl), [], [], hInitial⟩, hInitial.once,
      fun n hn => hInitial.leaders n (.inl (hInitial.dispatchedEnqueued n hn).1)⟩
  intro s action t _ hInv hStep
  obtain ⟨hOrderly, concluded, cascaded, hLedger⟩ := hInv.1 (Reactor.step_cases hStep).1
  have hLive := hFanIn.countsLiveFanIns hOrderly action
  have hKept := hLedger.step hAcyclic hChains hOrderly hLive hStep
  refine ⟨hKept.ledger, hKept.once, fun n hn => ?_⟩
  rcases hKept.fromReady n hn with hn | hn
  · exact hInv.2.2 n hn
  · exact hLedger.leaders n (.inl (hLedger.ready_enqueued hn))

/-- Without fan-ins every node is dispatched at most once, followers of a chain never, and each
one after all of its predecessors have results. -/
theorem fresh_run_dispatches_in_order (E : ParallelWorkflowEngine H) (hFanIn : FanInFree E)
    (executionId : Uuid) (s : State) (hRun : E.FreshRun executionId (fun _ _ _ => True) s) :
    (dispatchedNodes s.history).Nodup ∧
      (∀ chain ∈ (E.reactor executionId ∅).chains, ∀ n ∈ chain.tail,
        n ∉ dispatchedNodes s.history) ∧
      (∀ action t, (E.reactor executionId ∅).step s action = some t →
        ∀ n ∈ dispatchedNodes t.history, n ∉ dispatchedNodes s.history →
          ∀ p, E.graph.Arc p n → (s.results.lookup (E.nodeId p)).isSome = true) ∧
      ∀ n, .underflow n ∉ s.history := by
  obtain ⟨hLedgerOf, hOnce, hLeaders⟩ := fan_in_free_ledger hFanIn hRun
  have hChains := reactor_chainsDetected E executionId ∅
  refine ⟨hOnce.dispatched, ?_, ?_, hOnce.underflow⟩
  · intro chain hChain n hn hDispatched
    exact hLeaders n hDispatched (isFollower_of_mem_tail hChain hn)
  · intro action t hStep n hn hNew p hArc
    obtain ⟨hOrderly, concluded, cascaded, hLedger⟩ := hLedgerOf (Reactor.step_cases hStep).1
    have hLive := hFanIn.countsLiveFanIns hOrderly action
    have hKept := hLedger.step hRun.1 hChains hOrderly hLive hStep
    have hEnqueued := hLedger.ready_enqueued ((hKept.fromReady n hn).resolve_left hNew)
    have hPlain := hFanIn.joinsEarly_eq_false executionId hArc.target_lt
    have hResolved := hLedger.predecessors_resolved (hLedger.settled n (.inl hEnqueued)) hPlain hArc
    refine (hLedger.recorded_or_isInner hResolved).resolve_right fun hInner => ?_
    exact hLedger.leaders n (.inl hEnqueued) (isFollower_of_arc hChains hInner hArc)

/-- Two modules in a chain, and a third one behind a join with the second. -/
def chainAndJoinEngine : ParallelWorkflowEngine (bareHost true) :=
  { ParallelWorkflowEngine.new with
    graph := ⟨[1, 2, 3, 4], [⟨0, 1, {}⟩, ⟨1, 3, {}⟩, ⟨2, 3, {}⟩], by decide⟩
    nodeMeta := nodeTable [(1, moduleNode), (2, moduleNode), (3, systemNode .collect),
      (4, moduleNode)] }

def chainAndJoinActions : List Action :=
  [.pop .accepted, .pop (.output .null), .visit, .finish 0 (.ok .null) 2, .visit, .pop .accepted]

theorem fresh_run_dispatches_chain_and_join :
    ∃ s, dispatchedNodes s.history = [3, 2, 0] ∧ (dispatchedNodes s.history).Nodup ∧
      (∀ chain ∈ (chainAndJoinEngine.reactor 9 ∅).chains, ∀ n ∈ chain.tail,
        n ∉ dispatchedNodes s.history) ∧
      (∀ action t, (chainAndJoinEngine.reactor 9 ∅).step s action = some t →
        ∀ n ∈ dispatchedNodes t.history, n ∉ dispatchedNodes s.history →
          ∀ p, chainAndJoinEngine.graph.Arc p n →
            (s.results.lookup (chainAndJoinEngine.nodeId p)).isSome = true) ∧
      ∀ n, .underflow n ∉ s.history := by
  let R := chainAndJoinEngine.reactor 9 ∅
  have hReplay : (replay R.step (fun _ _ => True) chainAndJoinActions (R.initialState ∅)).map
      (fun s => dispatchedNodes s.history) = some [3, 2, 0] := by
    decide
  obtain ⟨s, hs, hDispatched⟩ := Option.map_eq_some_iff.1 hReplay
  have hFanIn : FanInFree chainAndJoinEngine := by
    have hKinds : ∀ idx < 4, (chainAndJoinEngine.reactor 9 ∅).isFanIn idx = false := by decide
    intro idx hIdx mode expr hKind
    have hIs : (chainAndJoinEngine.reactor 9 ∅).isFanIn idx = true :=
      Reactor.isFanIn_iff.2 ⟨mode, expr, hKind⟩
    rw [hKinds idx hIdx] at hIs
    cases hIs
  have hAcyclic : chainAndJoinEngine.graph.Acyclic := acyclic_of_rank id (by decide)
  exact ⟨s, hDispatched,
    fresh_run_dispatches_in_order chainAndJoinEngine hFanIn 9 s ⟨hAcyclic, replay_run hs⟩⟩

end FanInFree

end TalosWorkflow
