import TalosWorkflow.Delivery.Results
import TalosWorkflow.Delivery.Steps
import TalosWorkflow.Ledger.Seeds

/-!
# Error handlers are reached

A failed module reaches its error handler in every run that leaves nothing
behind on a way to it, and a real result is not replaced by a skip mark.
-/

namespace TalosWorkflow

open Multigraph

variable {H : Host} {E : ParallelWorkflowEngine H} {executionId : Uuid}
  {initialResults : Table Json} {handler : NodeIndex} {s t u : State}

section Start

def ParallelWorkflowEngine.seededNodes (E : ParallelWorkflowEngine H)
    (initialResults : Table Json) : List NodeIndex :=
  initialResults.keys.filterMap E.nodeMap.lookup

theorem Awaited.initial (hIndexed : E.Indexed)
    (hAcyclic : E.graph.Acyclic) : ∃ cascaded,
      Awaited handler (E.reactor executionId initialResults)
        ((E.reactor executionId initialResults).initialState initialResults) [] cascaded := by
  let R := E.reactor executionId initialResults
  have hChains : R.ChainsDetected := reactor_chainsDetected E executionId initialResults
  have hOrderly : Orderly R (R.initialState initialResults) :=
    .initial hChains (reactor_fresh_or_seeded E executionId initialResults)
  have hSeeded : ∀ n ∈ E.seededNodes initialResults, ∀ g, ¬ R.IsFollower g := by
    rintro n hn g ⟨a, chain, hChain, -⟩
    obtain hNone | rfl := reactor_fresh_or_seeded E executionId initialResults
    · rw [hNone] at hChain
      cases hChain
    · cases hn
  have hEnqueued : ∀ n, .enqueued n ∈ (R.initialState initialResults).history ↔
      n ∈ (R.initialState initialResults).work := by
    intro n
    rw [enqueued_initialState]
    simp [State.work, Reactor.initialState]
  have hPending : ∀ n, R.initialPending initialResults n ≤
      openEdges R ((E.seededNodes initialResults).filter (· ≠ handler)) n := by
    intro n
    refine (initialPending_le_openEdges R initialResults n).trans ?_
    refine List.countP_mono_left fun p _ hp => ?_
    simp only [decide_eq_true_eq] at hp ⊢
    exact fun hIn => hp (List.mem_of_mem_filter hIn)
  refine ⟨(E.seededNodes initialResults).filter (· ≠ handler), ?_⟩
  constructor
  · exact fun n => (hEnqueued n).trans ⟨.inl, fun hn => hn.resolve_right List.not_mem_nil⟩
  · rintro n (hn | hn)
    · exact (hOrderly.leaders n ((hEnqueued n).1 hn)).1
    · exact hSeeded n (List.mem_of_mem_filter hn) n
  · intro n hFollower
    obtain ⟨a, hConsecutive⟩ := hFollower
    obtain hNone | rfl := reactor_fresh_or_seeded E executionId initialResults
    · obtain ⟨chain, hChain, -⟩ := hConsecutive
      rw [hNone] at hChain
      cases hChain
    · exact (hConsecutive.linked hChains).2.2.le
  · simp
  · intro n hn
    have hne : n ≠ handler := by
      rintro rfl
      exact hAcyclic n hn
    have hLength : n < E.graph.nodes.length := by
      obtain ⟨g, hArc, -⟩ := Relation.TransGen.head'_iff.1 hn
      exact hArc.source_lt
    obtain hZero | hPos := Nat.eq_zero_or_pos (R.initialPending initialResults n)
    · by_cases hSeed : R.nodeId n ∈ initialResults
      · refine .inl (.inr (List.mem_append_left _ (List.mem_filter.2 ⟨?_, by simpa using hne⟩)))
        exact List.mem_filterMap.2 ⟨R.nodeId n, hSeed, hIndexed n hLength⟩
      · exact .inl (.inl (enqueued_initialState.2 (mem_initialReady.2 ⟨hLength, hZero, hSeed⟩)))
    · exact .inr hPos
  · refine fun n _ => .inr (.inr ?_)
    rw [resolvedNodes, List.flatMap_nil, List.append_nil]
    exact (hPending n).trans (Nat.le_add_right _ _)
  · exact fun n hn g _ _ hFollower =>
      absurd hFollower (hSeeded n (List.mem_of_mem_filter hn) g)
  · exact fun hn => absurd hn List.not_mem_nil

end Start

section Runs

theorem not_isFollower_of_tails {R : Reactor H}
    (hAlone : ∀ chain ∈ R.chains, handler ∉ chain.tail) : ¬ R.IsFollower handler := by
  rintro ⟨a, chain, hChain, i, -, hNext⟩
  rw [← List.getElem?_tail] at hNext
  exact hAlone chain hChain (List.mem_of_getElem? hNext)

/-- What is known about a handler in every state of a run that leaves it not behind. -/
theorem Awaited.of_runs (hIndexed : E.Indexed) (hHandles : E.OnlyHandles handler)
    (hNoSkip : E.skipCondition (E.nodeId handler) = none)
    (hLeader : ¬ (E.reactor executionId initialResults).IsFollower handler)
    (hRun : E.Runs executionId initialResults (KeepsHandler handler) s)
    (hRunning : s.status = .running) :
    ∃ concluded cascaded,
      Awaited handler (E.reactor executionId initialResults) s concluded cascaded := by
  have hChains := reactor_chainsDetected E executionId initialResults
  have hInvariant : Tracked s ∧ (s.status = .running → ∃ concluded cascaded,
      Awaited handler (E.reactor executionId initialResults) s concluded cascaded) := by
    refine runs_invariant (fun s => Tracked s ∧ (s.status = .running → ∃ concluded cascaded,
      Awaited handler (E.reactor executionId initialResults) s concluded cascaded)) hRun
        ⟨.initial, fun _ => ⟨[], Awaited.initial hIndexed hRun.1⟩⟩ ?_
    intro s action t hOrderly hKeeps hInv hStep
    refine ⟨hInv.1.step hOrderly hStep, fun hAfter => ?_⟩
    obtain ⟨concluded, cascaded, hAwaited⟩ := hInv.2 (Reactor.step_cases hStep).1
    exact hAwaited.step hHandles hNoSkip hLeader hChains hOrderly hInv.1 hKeeps hStep hAfter
  exact hInvariant.2 hRunning

theorem Reactor.Fails.run (hBefore : E.Runs executionId initialResults (KeepsHandler handler) s)
    {source : NodeIndex} (hFails : (E.reactor executionId initialResults).Fails s source t) :
    E.Runs executionId initialResults (KeepsHandler handler) t := by
  obtain ⟨position, message, ran, flight, -, -, hStep⟩ := hFails
  exact ⟨hBefore.1, hBefore.2.tail ⟨.finish position (.error message) ran, trivial, hStep⟩⟩

theorem Due.of_runs (hIndexed : E.Indexed) (hHandles : E.OnlyHandles handler)
    (hNoSkip : E.skipCondition (E.nodeId handler) = none)
    (hLeader : ¬ (E.reactor executionId initialResults).IsFollower handler)
    {source : NodeIndex} (hArc : E.graph.Arc source handler)
    (hBefore : E.Runs executionId initialResults (KeepsHandler handler) s)
    (hFails : (E.reactor executionId initialResults).Fails s source t)
    (hAfter : Run (E.reactor executionId initialResults).step
      (KeepsHandler handler (E.reactor executionId initialResults)) t u) :
    u.status = .running → Due handler (E.reactor executionId initialResults) u := by
  have hThere := hFails.run hBefore
  induction hAfter with
  | refl =>
      obtain ⟨position, message, ran, flight, -, -, hStep⟩ := id hFails
      have hOrderly := Orderly.of_runs hBefore (Reactor.step_cases hStep).1
      exact Due.of_fails hHandles hOrderly hArc hFails
  | tail hMid hLast ih =>
      obtain ⟨action, hKeeps, hStep⟩ := hLast
      have hRunning := (Reactor.step_cases hStep).1
      have hRuns := (⟨hThere.1, hThere.2.trans hMid⟩ :
        E.Runs executionId initialResults (KeepsHandler handler) _)
      obtain ⟨concluded, cascaded, hAwaited⟩ :=
        Awaited.of_runs hIndexed hHandles hNoSkip hLeader hRuns hRunning
      intro hNext
      exact Due.step hHandles hLeader (reactor_chainsDetected E executionId initialResults)
        (Orderly.of_runs hRuns hRunning) hAwaited hKeeps hStep hNext (ih hRunning)

/-- A failed module has its error handler started by the time the queues are empty, if no step
leaves the handler behind. -/
theorem started_of_fails (hIndexed : E.Indexed) (hHandles : E.OnlyHandles handler)
    (hNoSkip : E.skipCondition (E.nodeId handler) = none)
    (hLeader : ¬ (E.reactor executionId initialResults).IsFollower handler)
    {source : NodeIndex} (hArc : E.graph.Arc source handler)
    (hBefore : E.Runs executionId initialResults (KeepsHandler handler) s)
    (hFails : (E.reactor executionId initialResults).Fails s source t)
    (hAfter : Run (E.reactor executionId initialResults).step
      (KeepsHandler handler (E.reactor executionId initialResults)) t u)
    (hQuiescent : u.Quiescent) : handler ∈ startedNodes u.history := by
  have hThere := hFails.run hBefore
  have hDue := Due.of_runs hIndexed hHandles hNoSkip hLeader hArc hBefore hFails hAfter
  obtain ⟨concluded, cascaded, hAwaited⟩ := Awaited.of_runs hIndexed hHandles hNoSkip hLeader
    ⟨hThere.1, hThere.2.trans hAfter⟩ hQuiescent.1
  exact hAwaited.started_of_quiescent hThere.1 (reactor_chainsDetected E executionId initialResults)
    hLeader (hDue hQuiescent.1) hQuiescent

/-- A failed module reaches its error handler in every run whose steps skip nothing that is waited
for, by the time that the queues are empty. Real results stay real as long as visits find their
targets waiting, which they do without early joins and with closed seeds. -/
theorem error_handlers_delivered (E : ParallelWorkflowEngine H) (executionId : Uuid)
    (initialResults : Table Json) :
    (∀ handler source s t u, E.Indexed → E.OnlyHandles handler →
      E.skipCondition (E.nodeId handler) = none →
      (∀ chain ∈ (E.reactor executionId initialResults).chains, handler ∉ chain.tail) →
      E.graph.Arc source handler →
      E.Runs executionId initialResults (KeepsHandler handler) s →
      (E.reactor executionId initialResults).Fails s source t →
      Run (E.reactor executionId initialResults).step
        (KeepsHandler handler (E.reactor executionId initialResults)) t u →
      u.Quiescent → handler ∈ startedNodes u.history) ∧
    (∀ n s t, E.Indexed → E.Runs executionId initialResults FindsWaiting s →
      Run (E.reactor executionId initialResults).step
        (FindsWaiting (E.reactor executionId initialResults)) s t →
      (E.reactor executionId initialResults).HasRealResult s n →
        (E.reactor executionId initialResults).HasRealResult t n) ∧
    ∀ n s t, E.Indexed → WaitsForAll E → SeedsClosed E initialResults →
      E.Runs executionId initialResults (fun _ _ _ => True) s →
      Run (E.reactor executionId initialResults).step (fun _ _ => True) s t →
      (E.reactor executionId initialResults).HasRealResult s n →
        (E.reactor executionId initialResults).HasRealResult t n := by
  refine ⟨?_, ?_, ?_⟩
  · intro handler source s t u hIndexed hHandles hNoSkip hAlone hArc hBefore hFails hAfter
    exact started_of_fails hIndexed hHandles hNoSkip (not_isFollower_of_tails hAlone) hArc hBefore
      hFails hAfter
  · exact fun n s t hIndexed hBefore hAfter => real_results_kept hIndexed.nodup hBefore hAfter n
  · exact fun n s t hIndexed hWaits hClosed hBefore hAfter =>
      real_results_kept_of_waitsForAll hIndexed.nodup hWaits hClosed
        hBefore hAfter n

end Runs

section Samples

/-- No visit skips its target, and the rate limiter refuses nothing. -/
def SkipsNothing (R : Reactor H) (s : State) (action : Action) : Prop :=
  (action matches .visit → ∀ visit ∈ s.visits.head?, ¬ visit.skips R s) ∧
    ¬ (action matches .pop .refused)

instance (R : Reactor H) : ∀ s action, Decidable (SkipsNothing R s action) := by
  intro s action
  unfold SkipsNothing
  infer_instance

theorem SkipsNothing.keepsHandler {R : Reactor H}
    (hKind : ∀ pattern, R.kindOf (R.nodeId handler) ≠ some (.errorHandler pattern)) (s : State)
    (action : Action) (h : SkipsNothing R s action) : KeepsHandler handler R s action := by
  cases action with
  | visit =>
      intro visit hVisit
      have hNot := h.1 rfl visit hVisit
      rw [Visit.KeepsWaiting]
      split
      · rename_i hMarks
        exact absurd (.inl hMarks) hNot
      · intro output hMode hFails hNow
        refine absurd (.inr ?_) hNot
        rw [hMode]
        exact ⟨hFails, hNow⟩
  | pop answer =>
      intro _
      refine ⟨?_, fun pattern hPattern => absurd hPattern (hKind pattern)⟩
      rintro rfl
      exact h.2 rfl
  | _ => trivial

def sharedHandlerEngine : ParallelWorkflowEngine (bareHost true) :=
  { ParallelWorkflowEngine.new with
    graph := ⟨[1, 2, 3], [⟨0, 2, { edgeType := "error" }⟩, ⟨1, 2, { edgeType := "error" }⟩],
      by decide⟩
    nodeMap := nodeTable [(1, 0), (2, 1), (3, 2)]
    nodeMeta := nodeTable [(1, moduleNode), (2, moduleNode), (3, moduleNode)] }

theorem sharedHandlerEngine_acyclic : sharedHandlerEngine.graph.Acyclic :=
  acyclic_of_rank id (by decide)

theorem sharedHandlerEngine_indexed : sharedHandlerEngine.Indexed := by
  unfold ParallelWorkflowEngine.Indexed
  decide

theorem sharedHandlerEngine_onlyHandles : sharedHandlerEngine.OnlyHandles 2 := by
  unfold ParallelWorkflowEngine.OnlyHandles
  decide

theorem sharedHandlerEngine_waitsForAll : WaitsForAll sharedHandlerEngine := by
  have hKinds : ∀ idx < 3, sharedHandlerEngine.kindOf (sharedHandlerEngine.nodeId idx) = none := by
    decide
  intro idx hIdx mode expr hKind
  rw [hKinds idx hIdx] at hKind
  cases hKind

/-- A module and an error edge of another one lead to a fan-in of mode `any`. -/
def lateMarkEngine : ParallelWorkflowEngine (bareHost true) :=
  { sharedHandlerEngine with
    graph := ⟨[1, 2, 3], [⟨0, 2, {}⟩, ⟨1, 2, { edgeType := "error" }⟩], by decide⟩
    nodeMeta := nodeTable [(1, moduleNode), (2, moduleNode), (3, systemNode (.fanIn .any none))] }

theorem lateMarkEngine_indexed : lateMarkEngine.Indexed := by
  unfold ParallelWorkflowEngine.Indexed
  decide

/-- Both modules fail, the handler runs, and the envelope of the first failure stays. A fan-in that
was released early keeps its result until the visit that comes too late. -/
theorem error_handlers_delivered_shared :
    (∃ s u v : State, u.Quiescent ∧ s.executing ≠ [] ∧ 2 ∈ startedNodes u.history ∧
      v.visits ≠ [] ∧ (sharedHandlerEngine.reactor 9 ∅).HasRealResult u 0) ∧
      ∃ s : State, s.visits ≠ [] ∧ (lateMarkEngine.reactor 9 ∅).HasRealResult s 2 := by
  constructor
  · let R := sharedHandlerEngine.reactor 9 ∅
    let first : List Action := [.pop .accepted, .pop .accepted]
    let rest : List Action :=
      [.visit, .finish 0 (.error "down") 1, .visit, .pop .accepted, .finish 0 (.ok .null) 1]
    have hReplay : ((replay R.step (SkipsNothing R) first (R.initialState ∅)).bind fun s =>
        (R.step s (.finish 0 (.error "down") 1)).bind fun t =>
          (replay R.step (SkipsNothing R) rest t).map fun u =>
            decide (s.executing[0]?.map Flight.last = some 0 ∧ u.Quiescent ∧ t.visits ≠ [] ∧
              R.HasRealResult t 0)) = some true := by
      decide
    obtain ⟨s, hs, hReplay⟩ := Option.bind_eq_some_iff.1 hReplay
    obtain ⟨t, ht, hReplay⟩ := Option.bind_eq_some_iff.1 hReplay
    obtain ⟨u, hu, hEnd⟩ := Option.map_eq_some_iff.1 hReplay
    obtain ⟨hFlight, hQuiescent, hVisits, hEnvelope⟩ := of_decide_eq_true hEnd
    obtain ⟨flight, hFlight, hLast⟩ := Option.map_eq_some_iff.1 hFlight
    have hKeeps : ∀ s action, SkipsNothing R s action → KeepsHandler 2 R s action :=
      SkipsNothing.keepsHandler fun pattern hKind => by cases hKind
    obtain ⟨hDelivered, -, hReal⟩ := error_handlers_delivered sharedHandlerEngine 9 ∅
    have hBefore : sharedHandlerEngine.Runs 9 ∅ (fun _ _ _ => True) t :=
      ⟨sharedHandlerEngine_acyclic, ((replay_run hs).mono fun _ _ _ => trivial).tail
        ⟨.finish 0 (.error "down") 1, trivial, ht⟩⟩
    refine ⟨s, u, t, hQuiescent, ?_, ?_, hVisits, ?_⟩
    · intro hNone
      rw [hNone] at hFlight
      cases hFlight
    · exact hDelivered 2 0 s t u sharedHandlerEngine_indexed sharedHandlerEngine_onlyHandles rfl
        (by decide) ⟨⟨0, 2, { edgeType := "error" }⟩, by decide, rfl, rfl⟩
        ⟨sharedHandlerEngine_acyclic, (replay_run hs).mono hKeeps⟩
        ⟨0, "down", 1, flight, hFlight, hLast, ht⟩ ((replay_run hu).mono hKeeps) hQuiescent
    · exact hReal 0 t u sharedHandlerEngine_indexed sharedHandlerEngine_waitsForAll .empty hBefore
        ((replay_run hu).mono fun _ _ _ => trivial) hEnvelope
  · let R := lateMarkEngine.reactor 9 ∅
    have hReplay : ((replay R.step (FindsWaiting R) [.pop .accepted, .pop .accepted,
        .finish 0 (.ok .null) 1, .visit] (R.initialState ∅)).bind fun s =>
          (replay R.step (FindsWaiting R) [.pop (.output .null)] s).bind fun t =>
            (replay R.step (FindsWaiting R) [.finish 0 (.ok .null) 1] t).map fun u =>
              decide (R.HasRealResult t 2 ∧ u.visits ≠ [])) = some true := by
      decide
    obtain ⟨s, hs, hReplay⟩ := Option.bind_eq_some_iff.1 hReplay
    obtain ⟨t, ht, hReplay⟩ := Option.bind_eq_some_iff.1 hReplay
    obtain ⟨u, hu, hEnd⟩ := Option.map_eq_some_iff.1 hReplay
    obtain ⟨hResult, hVisits⟩ := of_decide_eq_true hEnd
    have hAcyclic : lateMarkEngine.graph.Acyclic := acyclic_of_rank id (by decide)
    obtain ⟨-, hReal, -⟩ := error_handlers_delivered lateMarkEngine 9 ∅
    exact ⟨u, hVisits, hReal 2 t u lateMarkEngine_indexed
      ⟨hAcyclic, (replay_run hs).trans (replay_run ht)⟩ (replay_run hu) hResult⟩

/-- One module fails and the other succeeds: the shared handler never runs. A module that succeeds
late replaces the result of its error handler. -/
theorem shared_handler_skipped :
    (¬ ∀ (H : Host) (E : ParallelWorkflowEngine H) (executionId : Uuid)
      (initialResults : Table Json) (handler source : NodeIndex) (s t u : State), E.Indexed →
        E.OnlyHandles handler → E.skipCondition (E.nodeId handler) = none →
        E.graph.Arc source handler →
        E.Runs executionId initialResults (fun _ _ _ => True) s →
        (E.reactor executionId initialResults).Fails s source t →
        Run (E.reactor executionId initialResults).step (fun _ _ => True) t u →
        u.Quiescent → handler ∈ startedNodes u.history) ∧
    ¬ ∀ (H : Host) (E : ParallelWorkflowEngine H) (executionId : Uuid)
      (initialResults : Table Json) (n : NodeIndex) (s t : State),
        E.Runs executionId initialResults (fun _ _ _ => True) s →
        Run (E.reactor executionId initialResults).step (fun _ _ => True) s t →
        (E.reactor executionId initialResults).HasRealResult s n →
          (E.reactor executionId initialResults).HasRealResult t n := by
  constructor
  · intro hAll
    let R := sharedHandlerEngine.reactor 9 ∅
    have hReplay : ((replay R.step (fun _ _ => True) [.pop .accepted, .pop .accepted]
        (R.initialState ∅)).bind fun s => (R.step s (.finish 0 (.error "down") 1)).bind fun t =>
          (replay R.step (fun _ _ => True) [.visit, .finish 0 (.ok .null) 1, .visit] t).map fun u =>
            decide (s.executing[0]?.map Flight.last = some 0 ∧ u.Quiescent ∧
              2 ∉ startedNodes u.history)) = some true := by
      decide
    obtain ⟨s, hs, hReplay⟩ := Option.bind_eq_some_iff.1 hReplay
    obtain ⟨t, ht, hReplay⟩ := Option.bind_eq_some_iff.1 hReplay
    obtain ⟨u, hu, hEnd⟩ := Option.map_eq_some_iff.1 hReplay
    obtain ⟨hFlight, hQuiescent, hNever⟩ := of_decide_eq_true hEnd
    obtain ⟨flight, hFlight, hLast⟩ := Option.map_eq_some_iff.1 hFlight
    exact hNever (hAll _ sharedHandlerEngine 9 ∅ 2 0 s t u sharedHandlerEngine_indexed
      sharedHandlerEngine_onlyHandles rfl ⟨⟨0, 2, { edgeType := "error" }⟩, by decide, rfl, rfl⟩
      ⟨sharedHandlerEngine_acyclic, replay_run hs⟩ ⟨0, "down", 1, flight, hFlight, hLast, ht⟩
      (replay_run hu) hQuiescent)
  · intro hAll
    let R := lateMarkEngine.reactor 9 ∅
    have hReplay : ((replay R.step (fun _ _ => True) [.pop .accepted, .pop .accepted,
        .finish 0 (.ok .null) 1, .visit, .pop (.output .null)] (R.initialState ∅)).bind fun s =>
          (replay R.step (fun _ _ => True) [.finish 0 (.ok .null) 1, .visit] s).map fun t =>
            decide (R.HasRealResult s 2 ∧ ¬ R.HasRealResult t 2)) = some true := by
      decide
    obtain ⟨s, hs, hReplay⟩ := Option.bind_eq_some_iff.1 hReplay
    obtain ⟨t, ht, hEnd⟩ := Option.map_eq_some_iff.1 hReplay
    obtain ⟨hReal, hLost⟩ := of_decide_eq_true hEnd
    have hAcyclic : lateMarkEngine.graph.Acyclic := acyclic_of_rank id (by decide)
    exact hLost (hAll _ lateMarkEngine 9 ∅ 2 s t ⟨hAcyclic, replay_run hs⟩ (replay_run ht) hReal)

end Samples

end TalosWorkflow
