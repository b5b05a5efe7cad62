import TalosWorkflow.Schedules.Endings

/-!
# Schedules of a run

The order in which nodes complete decides nothing about the results of a run,
as long as no step decides by it.
-/

namespace TalosWorkflow

open Multigraph

variable {H : Host}

section Steps

variable {R : Reactor H} {O : Outcomes} {hAcyclic : R.graph.Acyclic}
  {given cascaded : List NodeIndex} {s t : State} {action : Action}

/-- The step takes what the outcomes give, and does not decide by the order of completions. -/
def Unordered (O : Outcomes) (R : Reactor H) (s : State) (action : Action) : Prop :=
  Follows R O s action ∧ Unanimous R O [] s action

instance (O : Outcomes) (R : Reactor H) : ∀ s action, Decidable (Unordered O R s action) := by
  intro s action
  unfold Unordered
  infer_instance

/-- Results are recorded for the nodes of the graph. -/
def Reactor.Recorded (R : Reactor H) (s : State) : Prop :=
  ∀ id ∈ s.results, ∃ n < R.graph.nodes.length, R.nodeId n = id

theorem Booked.step (hIds : R.graph.nodes.Nodup) (hNone : R.chains = [])
    (hJoins : ∀ n < R.graph.nodes.length, R.joinsEarly n = false) (hOrderly : Orderly R s)
    (h : Booked R O hAcyclic [] s cascaded) (hUnordered : Unordered O R s action)
    (hStep : R.step s action = some t) (hRunning : t.status = .running) :
    ∃ cascaded', Booked R O hAcyclic [] t cascaded' := by
  obtain ⟨-, hStepped⟩ := step_running hStep hRunning
  cases hOrderly.moved hStepped with
  | visited visit rest _ hVisits hVisit =>
      have hUnanimous := hUnordered.2.1 rfl visit (by rw [hVisits]; rfl)
      exact h.visited hIds hJoins hUnanimous hVisits hVisit
  | concluded _ start idx base events mode value hConcluding =>
      exact ⟨cascaded, h.concluded hIds hNone hUnordered.1 hConcluding⟩
  | relocated _ _ events hRelocating =>
      exact ⟨cascaded, h.relocated hNone hUnordered.1 hUnordered.2 hRelocating⟩
  | paused => cases hRunning

theorem recording_lt (hNone : R.chains = []) (hOrderly : Orderly R s) {n : NodeIndex}
    (hn : n ∈ R.recording s action) : n < R.graph.nodes.length := by
  cases action with
  | visit => cases hn
  | store =>
      obtain ⟨entry, hEntry, rfl⟩ := List.mem_map.1 hn
      rw [Option.mem_toList] at hEntry
      exact (hOrderly.leaders _ (mem_work_of_batch (List.mem_of_head? hEntry))).2
  | pop answer =>
      have hReady := Option.mem_toList.1 (List.mem_filter.1 hn).1
      exact (hOrderly.leaders _ (mem_work_of_ready (List.mem_of_head? hReady))).2
  | finish position result ran =>
      obtain ⟨flight, hFlight, rfl⟩ := List.mem_map.1 hn
      rw [Option.mem_toList] at hFlight
      have hIn := List.mem_of_getElem? hFlight
      cases flight with
      | single idx parents => exact (hOrderly.leaders _ (mem_work_of_flight hIn)).2
      | chain members parents =>
          have hFlies := (hOrderly.flights _ hIn).1
          rw [hNone] at hFlies
          cases hFlies

theorem Reactor.Recorded.step (hNone : R.chains = []) (hOrderly : Orderly R s)
    (h : R.Recorded s) (hStep : R.step s action = some t) : R.Recorded t := by
  have hInsert : ∀ n value, n < R.graph.nodes.length →
      t.results = s.results.insert (R.nodeId n) value → R.Recorded t := by
    intro n value hn hResults id hIn
    rw [hResults, AList.mem_insert] at hIn
    obtain rfl | hIn := hIn
    · exact ⟨n, hn, rfl⟩
    · exact h id hIn
  obtain hSame | ⟨-, visit, hHead, -, hResults⟩ | ⟨n, hn, value, hResults⟩ :=
    step_results hOrderly hStep
  · intro id hIn
    rw [hSame] at hIn
    exact h id hIn
  · exact hInsert visit.target skippedMark
      (hOrderly.targets visit (List.mem_of_head? hHead)).2.target_lt hResults
  · exact hInsert n value (recording_lt hNone hOrderly hn) hResults

theorem Booked.initial : Booked R O hAcyclic [] (R.initialState ∅) [] := by
  have hCompleted : completedNodes [] (R.initialState ∅) = [] := by
    simp [completedNodes, releasedNodes, Reactor.initialState, List.filterMap_map]
  have hWork : (R.initialState ∅).work = R.initialReady ∅ := List.append_nil _
  have hKnown : ∀ n, R.known (∅ : Table Json) n = none := by
    intro n
    rw [Reactor.known]
    cases R.graph.nodes[n]? with
    | none => rfl
    | some id => rfl
  have hRoot : ∀ n, n ∈ (R.initialState ∅).work ↔
      n < R.graph.nodes.length ∧ R.graph.inDegree n = 0 := by
    intro n
    rw [hWork, mem_initialReady]
    exact and_congr_right fun _ => and_iff_left (AList.notMem_empty _)
  have hEntered : ∀ n, n ∈ (R.initialState ∅).work ∨ n ∈ completedNodes [] (R.initialState ∅) →
      n < R.graph.nodes.length ∧ R.graph.inDegree n = 0 := by
    intro n hn
    rw [hCompleted, or_iff_left List.not_mem_nil] at hn
    exact (hRoot n).1 hn
  have hNone : ∀ n, n ∉ completedNodes [] (R.initialState ∅) := by
    intro n hn
    rw [hCompleted] at hn
    cases hn
  exact
    { books :=
        { nodes := fun n hn => (hEntered n hn).1
          entered := fun n hn => .inr hn
          apart := fun n hn => absurd hn List.not_mem_nil
          settled := fun n hn =>
            hn.elim (fun hIn => (hEntered n hIn).2) fun hIn => absurd hIn List.not_mem_nil
          balanced := fun n => by
            have hUncounted : (R.booksOf [] [] (R.initialState ∅)).uncounted R O n =
                R.graph.inDegree n := by
              rw [Books.uncounted, inDegree, List.countP_eq_length]
              intro p _
              simp [Books.counts, hNone p]
            rw [hUncounted]
            rfl
          released := fun n hn => absurd hn (hNone n)
          passed := fun n hn => absurd hn List.not_mem_nil
          marked := fun n v hValue _ _ => by
            rw [show (R.booksOf [] [] (R.initialState ∅)).known n = none from hKnown n] at hValue
            cases hValue
          marks := fun p hp => absurd hp (hNone p)
          visits := fun visit hVisit => absurd hVisit List.not_mem_nil
          opened := fun n hn hDegree => absurd (hEntered n hn).2 hDegree
          closed := fun n hn => absurd hn List.not_mem_nil
          filled := fun n _ hDegree hZero => absurd hZero hDegree
          roots := fun n hn hDegree => .inl ((hRoot n).2 ⟨hn, hDegree⟩) }
      work := by
        rw [hWork]
        exact (List.nodup_range).filter _
      fresh := fun n _ => hNone n
      flights := fun flight hFlight => absurd hFlight List.not_mem_nil
      batch := fun entry hEntry => absurd hEntry List.not_mem_nil
      executed := fun n => by simp [Reactor.initialState] }

end Steps

section Runs

variable {E : ParallelWorkflowEngine H} {executionId : Uuid} {O : Outcomes} {s : State}

theorem reactor_chains_eq_nil (hLinear : detectLinearChains E.graph = []) :
    (E.reactor executionId ∅).chains = [] := by
  simp [ParallelWorkflowEngine.reactor, hLinear]

theorem Booked.of_fresh_run (hIds : E.graph.nodes.Nodup) (hFanIn : FanInFree E)
    (hLinear : detectLinearChains E.graph = [])
    (hRun : E.FreshRun executionId (Unordered O) s) : s.status = .running →
      ∃ cascaded, Booked (E.reactor executionId ∅) O hRun.1 [] s cascaded := by
  have hAcyclic := hRun.1
  refine runs_invariant (fun s => s.status = .running →
    ∃ cascaded, Booked (E.reactor executionId ∅) O hAcyclic [] s cascaded) hRun
    (fun _ => ⟨[], .initial⟩) ?_
  intro s action t hOrderly hUnordered hInv hStep hRunning
  obtain ⟨hBefore, -⟩ := step_running hStep hRunning
  obtain ⟨cascaded, hBooked⟩ := hInv hBefore
  exact hBooked.step hIds (reactor_chains_eq_nil hLinear)
    (fun n hn => hFanIn.joinsEarly_eq_false executionId hn) hOrderly hUnordered hStep hRunning

theorem Reactor.Recorded.of_fresh_run (hLinear : detectLinearChains E.graph = [])
    (hRun : E.FreshRun executionId (Unordered O) s) : (E.reactor executionId ∅).Recorded s :=
  runs_invariant (E.reactor executionId ∅).Recorded hRun
    (fun id hIn => absurd hIn (AList.notMem_empty id)) fun _ _ _ hOrderly _ h hStep =>
      h.step (reactor_chains_eq_nil hLinear) hOrderly hStep

theorem settled_run_sums (hIds : E.graph.nodes.Nodup) (hFanIn : FanInFree E)
    (hLinear : detectLinearChains E.graph = [])
    (hRun : E.FreshRun executionId (Unordered O) s) (hSettled : s.Settled) :
    ∃ b : Books, Account.Complete ((E.reactor executionId ∅).flow O hRun.1) b.account ∧
      b.Sums (E.reactor executionId ∅) O s := by
  by_cases hRunning : s.status = .running
  · obtain ⟨cascaded, hBooked⟩ := Booked.of_fresh_run hIds hFanIn hLinear hRun hRunning
    obtain ⟨hIdle, hWork⟩ := hSettled
    rw [hRunning] at hWork
    refine ⟨_, hBooked.books.complete hIdle fun n hEntered => .inl ?_, hBooked.sums hWork⟩
    refine hEntered.resolve_left fun hIn => ?_
    rw [hWork] at hIn
    cases hIn
  · obtain ⟨hAcyclic, hSteps⟩ := hRun
    obtain rfl | ⟨u, hFirst, action, hUnordered, hStep⟩ := hSteps.cases_tail
    · exact absurd rfl hRunning
    · have hBefore := (Reactor.step_cases hStep).1
      have hRun : E.FreshRun executionId (Unordered O) u := ⟨hAcyclic, hFirst⟩
      obtain ⟨cascaded, hBooked⟩ := Booked.of_fresh_run hIds hFanIn hLinear hRun hBefore
      obtain ⟨idx, hHeld⟩ := hBooked.held (Orderly.of_runs hRun hBefore) hUnordered.1 hStep
        hRunning hSettled
      refine ⟨_, hBooked.books.complete hHeld.idle fun n hEntered => ?_, hHeld.sums hIds hBooked⟩
      refine hEntered.symm.imp_right fun hIn => ?_
      rw [hHeld.work] at hIn
      rw [List.mem_singleton.1 hIn]
      exact hHeld.verdict

theorem lookup_eq_of_known {R : Reactor H} {s t : State} (hFirst : R.Recorded s)
    (hSecond : R.Recorded t) (hKnown : R.known s.results = R.known t.results) (id : Uuid) :
    s.results.lookup id = t.results.lookup id := by
  by_cases hNode : ∃ n < R.graph.nodes.length, R.nodeId n = id
  · obtain ⟨n, hn, rfl⟩ := hNode
    rw [← known_eq hn, ← known_eq hn, hKnown]
  · rw [AList.lookup_eq_none.2 fun hIn => hNode (hFirst id hIn),
      AList.lookup_eq_none.2 fun hIn => hNode (hSecond id hIn)]

/-- The same nodes are executed, with the same results, in whatever order they complete. -/
theorem completion_order_irrelevant (E : ParallelWorkflowEngine H) (hIds : E.graph.nodes.Nodup)
    (hFanIn : FanInFree E) (hLinear : detectLinearChains E.graph = []) (executionId : Uuid)
    (O : Outcomes) (s t : State) (hFirst : E.FreshRun executionId (Unordered O) s)
    (hSecond : E.FreshRun executionId (Unordered O) t) (hSettled : s.Settled)
    (hSettled' : t.Settled) :
    (∀ n, .executed n ∈ s.history ↔ .executed n ∈ t.history) ∧
      ∀ id, s.results.lookup id = t.results.lookup id := by
  obtain ⟨b, hComplete, hSums⟩ := settled_run_sums hIds hFanIn hLinear hFirst hSettled
  obtain ⟨c, hComplete', hSums'⟩ := settled_run_sums hIds hFanIn hLinear hSecond hSettled'
  have hArc := hFirst.1.wellFounded
  have hKnown : b.known = c.known := funext (hComplete.value_eq hArc hComplete')
  have hEntered : ∀ n, b.entered n ↔ c.entered n := hComplete.entered_iff hArc hComplete'
  have hCompleted : ∀ n, n ∈ b.completed ↔ n ∈ c.completed := hComplete.released_iff hArc hComplete'
  refine ⟨fun n => ?_, lookup_eq_of_known (.of_fresh_run hLinear hFirst)
    (.of_fresh_run hLinear hSecond) (funext fun n => ?_)⟩
  · rw [hSums.executed, hSums'.executed, hKnown, hEntered, hCompleted]
  · by_cases hHeld : b.entered n ∧ n ∉ b.completed
    · have hHeld' := hHeld
      rw [hEntered, hCompleted] at hHeld'
      rw [hSums.held n hHeld.1 hHeld.2, hSums'.held n hHeld'.1 hHeld'.2, hKnown]
    · have hHeld' := hHeld
      rw [hEntered, hCompleted] at hHeld'
      rw [hSums.completed n hHeld, hSums'.completed n hHeld', hKnown]

end Runs

section Samples

def joinEngine (first : EdgeLogic) : ParallelWorkflowEngine (bareHost true) :=
  { ParallelWorkflowEngine.new with
    graph := ⟨[1, 2, 3], [⟨0, 2, first⟩, ⟨1, 2, {}⟩], by simp⟩
    nodeMeta := nodeTable [(1, moduleNode), (2, moduleNode), (3, moduleNode)]
    expressionEvaluator := some ⟨fun _ _ => false⟩ }

def nullOutcomes : Outcomes := ⟨fun _ _ => none, fun _ _ => .output .null⟩

def joinActions (position : Nat) : List Action :=
  [.pop .accepted, .pop .accepted, .finish position (.ok .null) 1, .visit, .finish 0 (.ok .null) 1,
    .visit]

def joinedActions (position : Nat) : List Action :=
  joinActions position ++ [.pop .accepted, .finish 0 (.ok .null) 1]

theorem joinEngine_acyclic (first : EdgeLogic) : (joinEngine first).graph.Acyclic := by
  refine acyclic_of_rank id fun e he => ?_
  obtain rfl | he := List.mem_cons.1 he
  · exact Nat.zero_lt_two
  · obtain rfl := List.mem_singleton.1 he
    exact Nat.one_lt_two

theorem joinEngine_fanInFree (first : EdgeLogic) : FanInFree (joinEngine first) := by
  intro idx hIdx mode expr hKind
  match idx, hIdx with
  | 0, _ => cases hKind
  | 1, _ => cases hKind
  | 2, _ => cases hKind

theorem completion_order_irrelevant_join :
    ∃ s t : State, s.history ≠ t.history ∧ .executed 2 ∈ s.history ∧
      (∀ n, .executed n ∈ s.history ↔ .executed n ∈ t.history) ∧
        ∀ id, s.results.lookup id = t.results.lookup id := by
  let R := (joinEngine {}).reactor 9 ∅
  have hReplays : (replay R.step (Unordered nullOutcomes R) (joinedActions 0)
      (R.initialState ∅)).bind (fun s => (replay R.step (Unordered nullOutcomes R)
        (joinedActions 1) (R.initialState ∅)).map fun t => decide (s.Settled ∧ t.Settled ∧
          s.history ≠ t.history ∧ .executed 2 ∈ s.history)) = some true := by
    decide
  obtain ⟨s, hs, hReplay⟩ := Option.bind_eq_some_iff.1 hReplays
  obtain ⟨t, ht, hEnds⟩ := Option.map_eq_some_iff.1 hReplay
  obtain ⟨hSettled, hSettled', hOther, hExecuted⟩ := of_decide_eq_true hEnds
  exact ⟨s, t, hOther, hExecuted, completion_order_irrelevant (joinEngine {}) (by decide)
    (joinEngine_fanInFree {}) (by decide) 9 nullOutcomes s t
    ⟨joinEngine_acyclic {}, replay_run hs⟩ ⟨joinEngine_acyclic {}, replay_run ht⟩ hSettled
    hSettled'⟩

/-- The module that completes last decides whether the join is skipped. -/
theorem last_parent_decides :
    ¬ ∀ (H : Host) (E : ParallelWorkflowEngine H), FanInFree E → detectLinearChains E.graph = [] →
      ∀ (executionId : Uuid) (O : Outcomes) (s t : State),
        E.FreshRun executionId (fun R => Follows R O) s →
          E.FreshRun executionId (fun R => Follows R O) t → s.Settled → t.Settled →
            (∀ n, .executed n ∈ s.history ↔ .executed n ∈ t.history) ∧
              ∀ id, s.results.lookup id = t.results.lookup id := by
  intro hAll
  let first : EdgeLogic := { condition := some "false" }
  let R := (joinEngine first).reactor 9 ∅
  have hRuns : (replay R.step (Follows R nullOutcomes) (joinedActions 0)
      (R.initialState ∅)).map (fun s => decide (s.Settled ∧ .executed 2 ∈ s.history)) =
        some true := by
    decide
  have hSkips : (replay R.step (Follows R nullOutcomes) (joinActions 1)
      (R.initialState ∅)).map (fun s => decide (s.Settled ∧ .executed 2 ∉ s.history)) =
        some true := by
    decide
  obtain ⟨s, hs, hRuns⟩ := Option.map_eq_some_iff.1 hRuns
  obtain ⟨t, ht, hSkips⟩ := Option.map_eq_some_iff.1 hSkips
  obtain ⟨hSettled, hExecuted⟩ := of_decide_eq_true hRuns
  obtain ⟨hSettled', hNot⟩ := of_decide_eq_true hSkips
  have hAcyclic := joinEngine_acyclic first
  have hSame := (hAll _ (joinEngine first) (joinEngine_fanInFree first) (by decide) 9 nullOutcomes
    s t ⟨hAcyclic, replay_run hs⟩ ⟨hAcyclic, replay_run ht⟩ hSettled hSettled').1
  exact hNot ((hSame 2).1 hExecuted)

end Samples

end TalosWorkflow
