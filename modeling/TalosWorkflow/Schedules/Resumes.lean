import TalosWorkflow.Ledger.Seeds
import TalosWorkflow.Schedules.Runs

/-!
# Resumed runs

A run is interrupted, and a second one is seeded with the results that were
recorded by then. The books of the second run start where those of the first
one have come to.
-/

namespace TalosWorkflow

open Multigraph

variable {H : Host}

section Seeds

variable {R : Reactor H} {O : Outcomes} {hAcyclic : R.graph.Acyclic} {cascaded : List NodeIndex}
  {s : State} {n p : NodeIndex}

/-- `nodeMap` leads to the nodes of the graph. -/
def ParallelWorkflowEngine.Mapped (E : ParallelWorkflowEngine H) : Prop :=
  ∀ id idx, E.nodeMap.lookup id = some idx ↔ E.graph.nodes[idx]? = some id

def Reactor.recordedNodes (R : Reactor H) (results : Table Json) : List NodeIndex :=
  R.graph.nodeIndices.filter fun n => R.nodeId n ∈ results

/-- Whatever is recorded is complete, and admits what is not recorded yet. -/
structure Resumable (R : Reactor H) (O : Outcomes) (s : State) : Prop where
  complete : ∀ n < R.graph.nodes.length, R.nodeId n ∈ s.results → .released n ∈ s.history
  admits : ∀ p n, R.graph.Arc p n → R.nodeId p ∈ s.results → R.nodeId n ∉ s.results →
    R.marksArc O (R.known s.results) p n = false ∧ R.admitsArc O (R.known s.results) p n = true

theorem mem_recordedNodes {results : Table Json} : n ∈ R.recordedNodes results ↔
    n < R.graph.nodes.length ∧ R.nodeId n ∈ results := by
  simp [Reactor.recordedNodes, mem_nodeIndices]

theorem known_isSome_iff {results : Table Json} (hn : n < R.graph.nodes.length) :
    (R.known results n).isSome ↔ R.nodeId n ∈ results := by
  rw [known_eq hn, AList.lookup_isSome]

namespace Resumable

theorem mem_completed (h : Resumable R O s) (hBooked : Booked R O hAcyclic [] s cascaded) :
    n ∈ completedNodes [] s ↔ n ∈ R.recordedNodes s.results := by
  rw [mem_recordedNodes]
  constructor
  · intro hIn
    have hn := hBooked.books.nodes n (hBooked.books.entered n hIn)
    obtain ⟨verdict, -, hKnown⟩ := hBooked.books.released n hIn
    refine ⟨hn, (known_isSome_iff hn).1 ?_⟩
    rw [show R.known s.results n = some verdict.2 from hKnown]
    rfl
  · rintro ⟨hn, hIn⟩
    exact mem_completedNodes.2 (.inl (h.complete n hn hIn))

theorem cascaded_lt (hBooked : Booked R O hAcyclic [] s cascaded) (hn : n ∈ cascaded) :
    n < R.graph.nodes.length := by
  obtain ⟨p, hArc, -⟩ := hBooked.books.closed n hn
  exact hArc.target_lt

theorem cascaded_eq_nil (h : Resumable R O s) (hBooked : Booked R O hAcyclic [] s cascaded) :
    cascaded = [] := by
  rw [List.eq_nil_iff_forall_not_mem]
  intro n hn
  have hLt := cascaded_lt hBooked hn
  have hKnown : R.known s.results n = some skippedMark := hBooked.books.passed n hn
  have hIn : R.nodeId n ∈ s.results := (known_isSome_iff hLt).1 (by rw [hKnown]; rfl)
  have hCompleted := (h.mem_completed hBooked).2 (mem_recordedNodes.2 ⟨hLt, hIn⟩)
  exact hBooked.books.apart n hn (hBooked.books.entered n hCompleted)

/-- The edges into a recorded node come from recorded nodes and are counted. -/
theorem counted (h : Resumable R O s) (hBooked : Booked R O hAcyclic [] s cascaded)
    (hn : n ∈ R.recordedNodes s.results) (hArc : R.graph.Arc p n) :
    p ∈ R.recordedNodes s.results ∧ R.marksArc O (R.known s.results) p n = false := by
  have hCompleted := (h.mem_completed hBooked).2 hn
  have hZero := hBooked.books.pending_completed (.inl hCompleted)
  obtain hCascaded | ⟨hIn, hMarks⟩ :=
    Books.counts_iff.1 (hBooked.books.counts_of_zero hZero hArc)
  · rw [h.cascaded_eq_nil hBooked] at hCascaded
    cases hCascaded
  · exact ⟨(h.mem_completed hBooked).1 hIn, hMarks⟩

end Resumable

end Seeds

section Start

variable {E : ParallelWorkflowEngine H} {executionId : Uuid} {O : Outcomes} {s : State}
  {cascaded : List NodeIndex} {n p : NodeIndex}

variable (executionId) in
theorem reactor_seeded (hLinear : detectLinearChains E.graph = []) (results : Table Json) :
    E.reactor executionId results = E.reactor executionId ∅ := by
  simp [ParallelWorkflowEngine.reactor, hLinear]

theorem nodeId_eq_of_getElem? {id : Uuid} (h : E.graph.nodes[n]? = some id) : E.nodeId n = id := by
  rw [ParallelWorkflowEngine.nodeId, h]
  rfl

variable {hAcyclic : (E.reactor executionId ∅).graph.Acyclic}

theorem Resumable.seedsClosed (h : Resumable (E.reactor executionId ∅) O s)
    (hBooked : Booked (E.reactor executionId ∅) O hAcyclic [] s cascaded) (hMapped : E.Mapped) :
    SeedsClosed E s.results where
  found id _ idx hLookup := nodeId_eq_of_getElem? ((hMapped id idx).1 hLookup)
  mapped idx hIdx _ := by
    rw [hMapped, ParallelWorkflowEngine.nodeId, List.getElem?_eq_getElem hIdx]
    rfl
  closed a b hArc hIn :=
    (mem_recordedNodes.1 (h.counted hBooked (mem_recordedNodes.2 ⟨hArc.target_lt, hIn⟩) hArc).1).2

theorem mem_seededNodes_fresh (hSeeds : SeedsClosed E s.results) (hn : n < E.graph.nodes.length) :
    n ∈ (E.reactor executionId ∅).seededNodes s.results.keys ↔ E.nodeId n ∈ s.results :=
  @SeedsClosed.mem_seededNodes H s.results E executionId hSeeds n hn

theorem openEdges_seeded (hSeeds : SeedsClosed E s.results) (n : NodeIndex) :
    openEdges (E.reactor executionId ∅)
      ((E.reactor executionId ∅).seededNodes s.results.keys) n =
        (E.graph.predecessors n).countP fun p =>
          p ∉ (E.reactor executionId ∅).recordedNodes s.results := by
  refine List.countP_congr fun p hp => ?_
  have hLt := ((mem_predecessors _).1 hp).source_lt
  simp only [decide_eq_true_eq, mem_recordedNodes]
  exact not_congr ((mem_seededNodes_fresh hSeeds hLt).trans ⟨fun h => ⟨hLt, h⟩, fun h => h.2⟩)

/-- A counter starts at the number of edges from nodes without a result. -/
theorem initialPending_eq (hSeeds : SeedsClosed E s.results) (n : NodeIndex) :
    (E.reactor executionId ∅).initialPending s.results n =
      (E.graph.predecessors n).countP fun p =>
        p ∉ (E.reactor executionId ∅).recordedNodes s.results := by
  rw [← openEdges_seeded hSeeds]
  have hPlaced : Placed (E.reactor executionId ∅) s.results.keys
      ((E.reactor executionId ∅).initialPending s.results) := placed_initialPending hSeeds.found
  refine Nat.le_antisymm (initialPending_le_openEdges _ _ n) ?_
  obtain hSeeded | hNot := Decidable.em
    (n ∈ (E.reactor executionId ∅).seededNodes s.results.keys)
  · rw [openEdges_eq_zero.2 fun p hArc => ?_]
    · exact Nat.zero_le _
    · have hIn := (mem_seededNodes_fresh hSeeds hArc.target_lt).1 hSeeded
      exact (mem_seededNodes_fresh hSeeds hArc.source_lt).2 (hSeeds.closed p n hArc hIn)
  · exact hPlaced.counted n hNot

theorem completedNodes_initialState {given : List NodeIndex} {results : Table Json} :
    completedNodes given ((E.reactor executionId ∅).initialState results) = given := by
  simp [completedNodes, releasedNodes, Reactor.initialState, List.filterMap_map]

theorem mem_work_initialState (hSeeds : SeedsClosed E s.results) :
    n ∈ ((E.reactor executionId ∅).initialState s.results).work ↔
      n < E.graph.nodes.length ∧ E.nodeId n ∉ s.results ∧
        ∀ p, E.graph.Arc p n → p ∈ (E.reactor executionId ∅).recordedNodes s.results := by
  have hWork : ((E.reactor executionId ∅).initialState s.results).work =
      (E.reactor executionId ∅).initialReady s.results := List.append_nil _
  rw [hWork, mem_initialReady]
  refine and_congr_right fun hn => ?_
  rw [initialPending_eq hSeeds, List.countP_eq_zero, and_comm]
  refine and_congr_right fun _ => forall_congr' fun p => ?_
  rw [mem_predecessors, decide_eq_true_eq, not_not]

/-- The books of the resumed run start as balanced as those of the interrupted one were. -/
theorem Resumable.books (h : Resumable (E.reactor executionId ∅) O s)
    (hBooked : Booked (E.reactor executionId ∅) O hAcyclic [] s cascaded)
    (hSeeds : SeedsClosed E s.results) :
    ((E.reactor executionId ∅).booksOf ((E.reactor executionId ∅).recordedNodes s.results) []
      ((E.reactor executionId ∅).initialState s.results)).Balanced (E.reactor executionId ∅) O
        hAcyclic := by
  let R := E.reactor executionId ∅
  let b := R.booksOf (R.recordedNodes s.results) [] (R.initialState s.results)
  have hCompleted : b.completed = R.recordedNodes s.results := completedNodes_initialState
  have hKnown : b.known = R.known s.results := rfl
  have hIs : ∀ n, n ∈ R.recordedNodes s.results → n ∈ b.completed := fun n hn => by
    rw [hCompleted]
    exact hn
  have hMem : ∀ n, n ∈ b.completed ↔ n ∈ completedNodes [] s := fun n => by
    rw [hCompleted, h.mem_completed hBooked]
  have hEntered : ∀ n, b.entered n ↔ n ∈ (R.initialState s.results).work ∨
      n ∈ R.recordedNodes s.results := fun n => by
    rw [← hCompleted]
    rfl
  have hLt : ∀ n, b.entered n → n < R.graph.nodes.length := by
    intro n hn
    obtain hIn | hIn := (hEntered n).1 hn
    · exact ((mem_work_initialState hSeeds).1 hIn).1
    · exact (mem_recordedNodes.1 hIn).1
  -- an edge is counted when its source is recorded
  have hCounts : ∀ p n, R.graph.Arc p n → (b.counts R O p n = true ↔
      p ∈ R.recordedNodes s.results) := by
    intro p n hArc
    rw [Books.counts_iff, hCompleted, hKnown]
    refine ⟨fun hOr => (hOr.resolve_left List.not_mem_nil).1, fun hIn => .inr ⟨hIn, ?_⟩⟩
    obtain hRecorded | hNot := Decidable.em (R.nodeId n ∈ s.results)
    · exact (h.counted hBooked (mem_recordedNodes.2 ⟨hArc.target_lt, hRecorded⟩) hArc).2
    · exact (h.admits p n hArc (mem_recordedNodes.1 hIn).2 hNot).1
  have hPending : ∀ n, b.pending n = b.uncounted R O n := by
    intro n
    refine (initialPending_eq hSeeds n).trans (List.countP_congr fun p hp => ?_)
    rw [decide_eq_true_eq, Bool.not_eq_true', ← Bool.not_eq_true,
      hCounts p n ((mem_predecessors _).1 hp)]
  have hZero : ∀ n, b.pending n = 0 ↔ ∀ p, R.graph.Arc p n → p ∈ R.recordedNodes s.results := by
    intro n
    rw [hPending, Books.uncounted, List.countP_eq_zero]
    refine forall_congr' fun p => ?_
    rw [mem_predecessors]
    refine imp_congr_right fun hArc => ?_
    rw [Bool.not_eq_true', Bool.not_eq_false, hCounts p n hArc]
  exact
    { nodes := hLt
      entered := fun n hn => (hEntered n).2 (.inr (hCompleted ▸ hn))
      apart := fun n hn => absurd hn List.not_mem_nil
      settled := fun n hn => by
        rw [hZero]
        obtain hIn | hIn := (hEntered n).1 (hn.resolve_right List.not_mem_nil)
        · exact ((mem_work_initialState hSeeds).1 hIn).2.2
        · exact fun p hArc => (h.counted hBooked hIn hArc).1
      balanced := hPending
      released := fun n hn => hBooked.books.released n ((hMem n).1 hn)
      passed := fun n hn => absurd hn List.not_mem_nil
      marked := fun n v hValue hNot _ => by
        refine absurd ?_ hNot
        rw [hCompleted, mem_recordedNodes]
        obtain ⟨id, hNode, hFound⟩ := Option.bind_eq_some_iff.1 hValue
        refine ⟨(List.getElem?_eq_some_iff.1 hNode).1, ?_⟩
        rw [show R.nodeId n = id from nodeId_eq_of_getElem? hNode]
        exact AList.lookup_isSome.1 (Option.isSome_of_eq_some hFound)
      marks := fun p hp n hArc hMarks => by
        have hIs := (hCounts p n hArc).2 (hCompleted ▸ hp)
        obtain hCascaded | ⟨-, hNot⟩ := Books.counts_iff.1 hIs
        · cases hCascaded
        · rw [hMarks] at hNot
          cases hNot
      visits := fun visit hVisit => absurd hVisit List.not_mem_nil
      opened := fun n hn hDegree => by
        obtain hIn | hIn := (hEntered n).1 hn
        · obtain ⟨-, hNot, hAll⟩ := (mem_work_initialState hSeeds).1 hIn
          have hAdmits : ∀ p, R.graph.Arc p n → R.admitsArc O b.known p n = true := fun p hArc =>
            (h.admits p n hArc (mem_recordedNodes.1 (hAll p hArc)).2 hNot).2
          obtain ⟨p, hArc⟩ := R.graph.inDegree_pos.1 (Nat.pos_of_ne_zero hDegree)
          refine ⟨p, hArc, hIs p (hAll p hArc), hAdmits p hArc, fun q hq _ => ?_⟩
          exact ⟨hIs q (hAll q hq), iff_of_true (hAdmits q hq) (hAdmits p hArc)⟩
        · obtain ⟨p, hArc, hp, hAdmits, hAgree⟩ :=
            hBooked.books.opened n (.inr ((h.mem_completed hBooked).2 hIn)) hDegree
          refine ⟨p, hArc, (hMem p).2 hp, hAdmits, fun q hq hBefore => ?_⟩
          obtain ⟨hReleased, hSame⟩ := hAgree q hq hBefore
          exact ⟨(hMem q).2 hReleased, hSame⟩
      closed := fun n hn => absurd hn List.not_mem_nil
      filled := fun n hn _ hNone => by
        refine .inl ((hEntered n).2 ?_)
        obtain hRecorded | hNot := Decidable.em (R.nodeId n ∈ s.results)
        · exact .inr (mem_recordedNodes.2 ⟨hn, hRecorded⟩)
        · exact .inl ((mem_work_initialState hSeeds).2 ⟨hn, hNot, (hZero n).1 hNone⟩)
      roots := fun n hn hDegree => by
        refine (hEntered n).2 ?_
        obtain hRecorded | hNot := Decidable.em (R.nodeId n ∈ s.results)
        · exact .inr (mem_recordedNodes.2 ⟨hn, hRecorded⟩)
        · refine .inl ((mem_work_initialState hSeeds).2 ⟨hn, hNot, fun p hArc => ?_⟩)
          exact absurd hDegree (R.graph.inDegree_pos.2 ⟨p, hArc⟩).ne' }

theorem Resumable.booked (h : Resumable (E.reactor executionId ∅) O s)
    (hBooked : Booked (E.reactor executionId ∅) O hAcyclic [] s cascaded)
    (hSeeds : SeedsClosed E s.results) :
    Booked (E.reactor executionId ∅) O hAcyclic
      ((E.reactor executionId ∅).recordedNodes s.results)
      ((E.reactor executionId ∅).initialState s.results) [] where
  books := h.books hBooked hSeeds
  work := by
    rw [State.work, Reactor.initialState]
    exact (List.append_nil _).symm ▸ (List.nodup_range).filter _
  fresh n hn := by
    rw [completedNodes_initialState, mem_recordedNodes]
    exact fun hIn => ((mem_work_initialState hSeeds).1 hn).2.1 hIn.2
  flights := fun flight hFlight => absurd hFlight List.not_mem_nil
  batch := fun entry hEntry => absurd hEntry List.not_mem_nil
  executed := fun n => by simp [Reactor.initialState]

end Start

section Runs

variable {E : ParallelWorkflowEngine H} {executionId : Uuid} {O : Outcomes}
  {given cascaded : List NodeIndex} {s t : State} {action : Action}

/-- The step takes what the outcomes give, after the nodes that are given. -/
def UnorderedFrom (given : List NodeIndex) (O : Outcomes) (R : Reactor H) (s : State)
    (action : Action) : Prop :=
  Follows R O s action ∧ Unanimous R O given s action

instance (given : List NodeIndex) (O : Outcomes) (R : Reactor H) :
    ∀ s action, Decidable (UnorderedFrom given O R s action) := by
  intro s action
  unfold UnorderedFrom
  infer_instance

theorem Booked.step_given {R : Reactor H} {hAcyclic : R.graph.Acyclic}
    (hIds : R.graph.nodes.Nodup) (hNone : R.chains = [])
    (hJoins : ∀ n < R.graph.nodes.length, R.joinsEarly n = false) (hOrderly : Orderly R s)
    (h : Booked R O hAcyclic given s cascaded) (hUnordered : UnorderedFrom given O R s action)
    (hStep : R.step s action = some t) (hRunning : t.status = .running) :
    ∃ cascaded', Booked R O hAcyclic given t cascaded' := by
  obtain ⟨-, hStepped⟩ := step_running hStep hRunning
  cases hOrderly.moved hStepped with
  | visited visit rest _ hVisits hVisit =>
      have hUnanimous := hUnordered.2.1 rfl visit (by rw [hVisits]; rfl)
      exact h.visited hIds hJoins hUnanimous hVisits hVisit
  | concluded _ start idx base events mode value hConcluding =>
      exact ⟨cascaded, h.concluded hIds hNone hUnordered.1 hConcluding⟩
  | relocated _ _ events hRelocating =>
      exact ⟨cascaded, h.relocated hNone hUnordered.1 hUnordered.2 hRelocating⟩
  | paused => cases hRunning

theorem Booked.released_step {R : Reactor H} {hAcyclic : R.graph.Acyclic} (hOrderly : Orderly R s)
    (h : Booked R O hAcyclic given s cascaded) (hUnordered : UnorderedFrom given O R s action)
    (hStep : R.step s action = some t) (hRunning : t.status = .running)
    (hApart : ∀ n, .released n ∈ s.history → n ∉ given) {n : NodeIndex}
    (hn : .released n ∈ t.history) : n ∉ given := by
  obtain ⟨-, hStepped⟩ := step_running hStep hRunning
  cases hOrderly.moved hStepped with
  | visited visit rest _ hVisits hVisit =>
      exact hApart n (((visited_events given hVisit).2.2.1 n).1 hn)
  | concluded _ start idx base events mode value hConcluding =>
      obtain ⟨rfl, -, -⟩ := h.concluding hUnordered.1 hConcluding
      rw [Reactor.conclude_history, List.mem_cons, Event.released.injEq] at hn
      obtain rfl | hOld := hn
      · have hWork := hConcluding.shifted.work.mem_iff.2 List.mem_cons_self
        exact fun hGiven => h.fresh n hWork (mem_completedNodes.2 (.inr hGiven))
      · exact hApart n (hConcluding.shifted.released_iff.1 hOld)
  | relocated _ _ events hRelocating => exact hApart n (hRelocating.shifted.released_iff.1 hn)
  | paused => cases hRunning

/-- The books of a resumed run stay balanced, and what was complete before stays out of it. -/
theorem Resumable.booked_of_runs (h : Resumable (E.reactor executionId ∅) O s)
    {hAcyclic : (E.reactor executionId ∅).graph.Acyclic}
    (hBooked : Booked (E.reactor executionId ∅) O hAcyclic [] s cascaded)
    (hIds : E.graph.nodes.Nodup) (hMapped : E.Mapped) (hFanIn : FanInFree E)
    (hLinear : detectLinearChains E.graph = [])
    (hRun : E.Runs executionId s.results
      (UnorderedFrom ((E.reactor executionId ∅).recordedNodes s.results) O) t) :
    t.status = .running → (∃ cascaded', Booked (E.reactor executionId ∅) O hAcyclic
      ((E.reactor executionId ∅).recordedNodes s.results) t cascaded') ∧
        ∀ n, .released n ∈ t.history → n ∉ (E.reactor executionId ∅).recordedNodes s.results := by
  have hSame := reactor_seeded executionId hLinear s.results
  refine runs_invariant (fun t => t.status = .running →
    (∃ cascaded', Booked (E.reactor executionId ∅) O hAcyclic
      ((E.reactor executionId ∅).recordedNodes s.results) t cascaded') ∧ ∀ n,
        .released n ∈ t.history → n ∉ (E.reactor executionId ∅).recordedNodes s.results) hRun
    (fun _ => ?_) ?_
  · rw [hSame]
    exact ⟨⟨[], h.booked hBooked (h.seedsClosed hBooked hMapped)⟩,
      fun n hn => by simp [Reactor.initialState] at hn⟩
  · intro u action v hOrderly hUnordered hInv hStep hRunning
    rw [hSame] at hOrderly hUnordered hStep
    obtain ⟨hBefore, -⟩ := step_running hStep hRunning
    obtain ⟨⟨cascaded', hBooked'⟩, hApart⟩ := hInv hBefore
    refine ⟨?_, fun n hn => hBooked'.released_step hOrderly hUnordered hStep hRunning hApart hn⟩
    exact hBooked'.step_given hIds (reactor_chains_eq_nil hLinear)
      (fun n hn => hFanIn.joinsEarly_eq_false executionId hn) hOrderly hUnordered hStep hRunning

theorem Reactor.Recorded.of_runs {results : Table Json}
    {allowed : Reactor H → State → Action → Prop} (hLinear : detectLinearChains E.graph = [])
    (hResults : ∀ id ∈ results, ∃ n < E.graph.nodes.length, E.nodeId n = id)
    (hRun : E.Runs executionId results allowed t) :
    (E.reactor executionId ∅).Recorded t := by
  have hSame := reactor_seeded executionId hLinear results
  refine runs_invariant (E.reactor executionId ∅).Recorded hRun hResults ?_
  intro u action v hOrderly _ h hStep
  rw [hSame] at hOrderly hStep
  exact h.step (reactor_chains_eq_nil hLinear) hOrderly hStep

end Runs

/-- A run that is interrupted at any time and resumed with its results so far ends with the results
of a run that is not interrupted. Its two parts execute the nodes which that run executes, each node
in one of them. -/
theorem resumed_run_agrees (E : ParallelWorkflowEngine H) (hIds : E.graph.nodes.Nodup)
    (hMapped : E.Mapped) (hFanIn : FanInFree E) (hLinear : detectLinearChains E.graph = [])
    (executionId : Uuid) (O : Outcomes) (s t u : State)
    (hFirst : E.FreshRun executionId (Unordered O) s) (hRunning : s.status = .running)
    (hResumable : Resumable (E.reactor executionId ∅) O s)
    (hSecond : E.Runs executionId s.results
      (UnorderedFrom ((E.reactor executionId ∅).recordedNodes s.results) O) t)
    (hQuiescent : t.Quiescent) (hWhole : E.FreshRun executionId (Unordered O) u)
    (hSettled : u.Settled) :
    (∀ id, t.results.lookup id = u.results.lookup id) ∧
      (∀ n, .executed n ∈ u.history ↔ .executed n ∈ s.history ∨ .executed n ∈ t.history) ∧
        ∀ n, .executed n ∈ s.history → .executed n ∉ t.history := by
  have hArc := hFirst.1.wellFounded
  obtain ⟨cascaded, hBooked⟩ := Booked.of_fresh_run hIds hFanIn hLinear hFirst hRunning
  obtain ⟨⟨cascaded', hBooked'⟩, hApart⟩ := hResumable.booked_of_runs hBooked hIds hMapped hFanIn
    hLinear hSecond hQuiescent.1
  obtain ⟨b, hComplete, hSums⟩ := settled_run_sums hIds hFanIn hLinear hWhole hSettled
  let R := E.reactor executionId ∅
  let given := R.recordedNodes s.results
  obtain ⟨-, hVisits, hBatch, hReady, hExecuting⟩ := hQuiescent
  have hDone : ∀ n, (R.booksOf given cascaded' t).entered n → n ∈ completedNodes given t := by
    intro n hEntered
    refine hEntered.resolve_left fun hIn => ?_
    rw [State.work, hBatch, hReady, hExecuting] at hIn
    cases hIn
  have hComplete' := hBooked'.books.complete hVisits fun n hEntered => .inl (hDone n hEntered)
  have hKnown : ∀ n, R.known t.results n = b.known n := hComplete'.value_eq hArc hComplete
  have hEntered : ∀ n, b.entered n ↔ n ∈ completedNodes given t := fun n =>
    ⟨fun hIn => hDone n ((hComplete'.entered_iff hArc hComplete n).2 hIn),
      fun hIn => (hComplete'.entered_iff hArc hComplete n).1 (hBooked'.books.entered n hIn)⟩
  have hCompleted : ∀ n, b.entered n → n ∈ b.completed := fun n hIn =>
    (hComplete'.released_iff hArc hComplete n).1 ((hEntered n).1 hIn)
  have hSound := hBooked.books.sound
  -- the nodes that were complete at the interruption had gathered what they gather in the end
  have hGathered : ∀ n, n ∈ completedNodes [] s →
      R.gathered (R.known s.results) n = R.gathered b.known n := by
    intro n hIn
    refine gathered_congr fun p hParent => ?_
    obtain ⟨hRecorded, -⟩ :=
      hResumable.counted hBooked ((hResumable.mem_completed hBooked).1 hIn) hParent
    obtain ⟨hLt, hResult⟩ := mem_recordedNodes.1 hRecorded
    obtain ⟨v, hValue⟩ := Option.isSome_iff_exists.1 ((known_isSome_iff hLt).2 hResult)
    rw [hValue]
    exact ((hSound.le hArc hComplete p).value hValue).symm
  refine ⟨?_, ?_, ?_⟩
  · refine fun id => lookup_eq_of_known (.of_runs hLinear ?_ hSecond)
      (.of_fresh_run hLinear hWhole) (funext fun n => ?_) id
    · exact Reactor.Recorded.of_fresh_run hLinear hFirst
    · rw [hKnown, hSums.completed n fun hHeld => hHeld.2 (hCompleted n hHeld.1)]
  · intro n
    rw [hSums.executed, hBooked.executed_fresh, hBooked'.executed,
      show R.known t.results = b.known from funext hKnown]
    constructor
    · rintro ⟨hIn, hSkip, -⟩
      obtain hReleased | hGiven := mem_completedNodes.1 ((hEntered n).1 hIn)
      · exact .inr ⟨hReleased, hSkip⟩
      · have hBefore := (hResumable.mem_completed hBooked).2 hGiven
        rw [← hGathered n hBefore] at hSkip
        exact .inl ⟨hBefore, hSkip⟩
    · have hClosed : ∀ n, b.entered n → n ∉ b.completed → (R.waits O b.known n).isSome = true :=
        fun n hIn hNot => absurd (hCompleted n hIn) hNot
      rintro (⟨hBefore, hSkip⟩ | ⟨hReleased, hSkip⟩)
      · have hIn : b.entered n := (hSound.le hArc hComplete n).entered (.inr hBefore)
        rw [hGathered n hBefore] at hSkip
        exact ⟨hIn, hSkip, hClosed n hIn⟩
      · have hIn : b.entered n := (hEntered n).2 (mem_completedNodes.2 (.inl hReleased))
        exact ⟨hIn, hSkip, hClosed n hIn⟩
  · intro n hBefore hAfter
    have hIn := (hResumable.mem_completed hBooked).1 (hBooked.executed_fresh.1 hBefore).1
    exact hApart n ((hBooked'.executed n).1 hAfter).1 hIn

section Samples

theorem mapped_of_entries {E : ParallelWorkflowEngine H}
    (hEntries : ∀ entry ∈ E.nodeMap.entries, E.graph.nodes[entry.2]? = some entry.1)
    (hNodes : ∀ idx < E.graph.nodes.length, E.nodeMap.lookup (E.nodeId idx) = some idx) :
    E.Mapped := by
  intro id idx
  constructor
  · exact fun hLookup => hEntries ⟨id, idx⟩ (AList.mem_lookup_iff.1 hLookup)
  · intro hNode
    have hFound := hNodes idx (List.getElem?_eq_some_iff.1 hNode).1
    rwa [nodeId_eq_of_getElem? hNode] at hFound

def mappedJoinEngine : ParallelWorkflowEngine (bareHost true) :=
  { joinEngine {} with nodeMap := nodeTable [(1, 0), (2, 1), (3, 2)] }

theorem mappedJoinEngine_mapped : mappedJoinEngine.Mapped :=
  mapped_of_entries (by decide) (by decide)

def interruptedActions : List Action :=
  [.pop .accepted, .pop .accepted, .finish 0 (.ok .null) 1, .visit]

def resumedActions : List Action :=
  [.pop .accepted, .finish 0 (.ok .null) 1, .visit, .pop .accepted, .finish 0 (.ok .null) 1]

theorem resumable_of_edges {R : Reactor H} {O : Outcomes} {s : State}
    (hComplete : ∀ n < R.graph.nodes.length, R.nodeId n ∈ s.results → .released n ∈ s.history)
    (hEdges : ∀ e ∈ R.graph.edges, R.nodeId e.source ∈ s.results → R.nodeId e.target ∉ s.results →
      R.marksArc O (R.known s.results) e.source e.target = false ∧
        R.admitsArc O (R.known s.results) e.source e.target = true) : Resumable R O s where
  complete := hComplete
  admits p n hArc := by
    obtain ⟨e, hEdge, rfl, rfl⟩ := hArc
    exact hEdges e hEdge

theorem resumed_run_agrees_join : ∃ s t u : State, s.results.lookup 1 = some .null ∧
    .executed 0 ∉ t.history ∧ .executed 2 ∈ t.history ∧
      (∀ id, t.results.lookup id = u.results.lookup id) ∧
        (∀ n, .executed n ∈ u.history ↔ .executed n ∈ s.history ∨ .executed n ∈ t.history) ∧
          ∀ n, .executed n ∈ s.history → .executed n ∉ t.history := by
  let E := mappedJoinEngine
  let R := E.reactor 9 ∅
  have hReplays : (replay R.step (Unordered nullOutcomes R) interruptedActions
      (R.initialState ∅)).bind (fun s => (replay (E.reactor 9 s.results).step
        (UnorderedFrom (R.recordedNodes s.results) nullOutcomes (E.reactor 9 s.results))
          resumedActions ((E.reactor 9 s.results).initialState s.results)).bind fun t =>
            (replay R.step (Unordered nullOutcomes R) (joinedActions 1) (R.initialState ∅)).map
              fun u => decide (s.status = .running ∧ t.Quiescent ∧ u.Settled ∧
                (∀ n < R.graph.nodes.length, R.nodeId n ∈ s.results → .released n ∈ s.history) ∧
                (∀ e ∈ R.graph.edges, R.nodeId e.source ∈ s.results →
                  R.nodeId e.target ∉ s.results →
                    R.marksArc nullOutcomes (R.known s.results) e.source e.target = false ∧
                      R.admitsArc nullOutcomes (R.known s.results) e.source e.target = true) ∧
                s.results.lookup 1 = some .null ∧ .executed 0 ∉ t.history ∧
                  .executed 2 ∈ t.history)) = some true := by
    decide
  obtain ⟨s, hs, hReplays⟩ := Option.bind_eq_some_iff.1 hReplays
  obtain ⟨t, ht, hReplays⟩ := Option.bind_eq_some_iff.1 hReplays
  obtain ⟨u, hu, hEnds⟩ := Option.map_eq_some_iff.1 hReplays
  obtain ⟨hRunning, hQuiescent, hSettled, hComplete, hEdges, hFirst, hNot, hExecuted⟩ :=
    of_decide_eq_true hEnds
  have hAcyclic : E.graph.Acyclic := joinEngine_acyclic {}
  exact ⟨s, t, u, hFirst, hNot, hExecuted, resumed_run_agrees E (by decide) mappedJoinEngine_mapped
    (joinEngine_fanInFree {}) (by decide) 9 nullOutcomes s t u ⟨hAcyclic, replay_run hs⟩ hRunning
    (resumable_of_edges hComplete hEdges) ⟨hAcyclic, replay_run ht⟩ hQuiescent
    ⟨hAcyclic, replay_run hu⟩ hSettled⟩

end Samples

end TalosWorkflow
