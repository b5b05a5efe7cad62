import TalosWorkflow.Coverage.Visits
import TalosWorkflow.Ledger.FreshRuns

/-!
# No node is lost

A fresh run that empties its queues has executed or skipped every node, as
long as none of its steps leaves a node behind.
-/

namespace TalosWorkflow

open Multigraph

variable {H : Host} {R : Reactor H} {s t base : State}

section Completions

variable {action : Action} {start idx n : NodeIndex} {events : List Event} {mode : Completion}
  {value : Json}

theorem skips_carries (h : R.skips s idx = some value) :
    value.get "__skipped" = some (.bool true) := by
  rw [Reactor.skips] at h
  split at h
  · rename_i output hCheck
    cases h
    rw [ParallelWorkflowEngine.checkSkipCondition] at hCheck
    split at hCheck
    · cases hCheck
    · dsimp only at hCheck
      split at hCheck
      · cases hCheck
        rfl
      · cases hCheck
  · split at h
    · rename_i pattern _
      cases pattern with
      | none => cases h
      | some pattern =>
          simp only [Reactor.tryDispatchErrorHandler] at h
          split at h
          · cases h
          · cases h
            rfl
    · cases h

theorem members_eq_self (h : R.chainOf idx = none) : R.members idx = [idx] := by
  rw [Reactor.members, h, Option.getD_none]

/-- The nodes of a dispatch that loses nothing have been executed, or the node is skipped. -/
theorem Concluding.covers (hChains : R.ChainsDetected) (hOrderly : Orderly R s)
    (hLoses : LosesNothing R s action)
    (h : Concluding R s action start idx base events mode value) :
    (∀ n ∈ R.members start, .executed n ∈ events) ∨
      (∀ n ∈ R.members start, n = idx) ∧ value.get "__skipped" = some (.bool true) := by
  cases h with
  | stored _ _ rest _ hBatch =>
      have hPlain := hOrderly.plainBatch (start, value) (hBatch ▸ List.mem_cons_self)
      rw [members_eq_self hPlain]
      exact .inl (by simp)
  | popped _ rest answer _ _ _ hVisits hBatch hReady hPlain hSettles =>
      rw [members_eq_self hPlain]
      cases hSettles with
      | skipped _ hSkips => exact .inr ⟨by simp, skips_carries hSkips⟩
      | refused limit _ _ hAnswer =>
          subst hAnswer
          exact absurd hLoses id
      | handled =>
          refine .inl fun n hn => ?_
          rw [List.mem_singleton.1 hn, Reactor.handledEvents]
          split
          · simp
          · simp
  | returned position result ran flight _ nodes _ _ hVisits hBatch hReady hFlight hLands =>
      have hFlies := hOrderly.flights flight (List.mem_of_getElem? hFlight)
      refine .inl fun n hn => ?_
      cases hLands with
      | single parents =>
          rw [Flight.start, members_eq_self hFlies] at hn
          simpa using hn
      | chain members parents _ hTail =>
          obtain ⟨hMembers, head, hHead⟩ := hFlies
          rw [Flight.start, List.headD_eq_head?_getD, hHead, Option.getD_some, Reactor.members,
            chainOf_of_mem hChains hMembers (List.mem_of_mem_head? hHead), Option.getD_some] at hn
          simp only [LosesNothing, hFlight] at hLoses
          rw [hLoses, List.take_length]
          simpa using hn

end Completions

namespace Coverage

variable {concluded cascaded dropped : List NodeIndex} {action : Action}

theorem conclude (hChains : R.ChainsDetected)
    (hIds : R.graph.nodes.Nodup) (hOrderly : Orderly R s)
    (h : Coverage R s concluded cascaded dropped) (hLoses : LosesNothing R s action)
    {start idx : NodeIndex} {events : List Event} {mode : Completion} {value : Json}
    (hConcluding : Concluding R s action start idx base events mode value) :
    Coverage R (R.conclude base idx mode value) (start :: concluded) cascaded dropped := by
  have hShifted := hConcluding.shifted
  have hTail := hConcluding.isTail hOrderly hChains
  have hEnqueued : ∀ n, .enqueued n ∈ (R.conclude base idx mode value).history ↔
      .enqueued n ∈ s.history := fun n => hConcluding.mem_enqueued
  have hReached : ∀ n, Reached R s concluded cascaded n →
      Reached R (R.conclude base idx mode value) (start :: concluded) cascaded n :=
    fun n hn => hn.mono (hEnqueued n).2 resolved_cons_subset
  have hPending := fun n => Reactor.conclude_pending (R := R) base idx mode value n
  simp only [hShifted.pending] at hPending
  constructor
  · intro n
    obtain hSame | ⟨-, hZero⟩ := hPending n
    · rw [hSame]
      exact h.bounded n
    · rw [hZero]
      exact Nat.zero_le _
  · intro n hn
    obtain hSame | ⟨-, hZero⟩ := hPending n
    · rw [hSame]
      exact h.settled n (hn.imp_left (hEnqueued n).1)
    · exact hZero
  · exact fun n hn => h.leaders n (hn.imp_left (hEnqueued n).1)
  · intro n
    have hWork : (R.conclude base idx mode value).work = base.work := by simp [State.work]
    rw [hEnqueued, h.located, hShifted.work.mem_iff, hWork, List.mem_append, List.mem_singleton,
      List.mem_cons]
    tauto
  · intro n hn
    obtain hSame | ⟨hIn, -⟩ := hPending n
    · rw [hSame]
      exact (h.positive n hn).imp_left (hReached n)
    · exact .inl (.inr (members_resolved (mem_members_of_chainOf hChains hTail hIn)))
  · intro n hn
    obtain hOld | hOld | hFollower | hCount := h.waiting n hn
    · exact .inl (hReached n hOld)
    · exact .inr (.inl hOld)
    · exact .inr (.inr (.inl hFollower))
    · by_cases hFollower : R.IsFollower n
      · exact .inr (.inr (.inl hFollower))
      · refine .inr (.inr (.inr ?_))
        have hOpen := openEdges_conclude hChains hTail hFollower concluded cascaded
        rw [conclude_targets]
        rw [hShifted.idle, List.map_nil, List.count_nil, Nat.add_zero] at hCount
        obtain hSame | ⟨-, hZero⟩ := hPending n
        · omega
        · omega
  · exact fun n hn => ⟨(h.idle n hn).1, fun g hArc => hReached g ((h.idle n hn).2 g hArc)⟩
  · exact fun n hn g hArc hFollower => hReached g (h.closed n hn g hArc hFollower)
  · intro n hn hIn
    have hExecuted : ∀ m, .executed m ∈ base.history →
        .executed m ∈ (R.conclude base idx mode value).history := by
      intro m hm
      rw [Reactor.conclude_history]
      exact List.mem_cons_of_mem _ hm
    by_cases hMember : n ∈ R.members start
    · obtain hEvents | ⟨hOnly, hSkip⟩ := hConcluding.covers hChains hOrderly hLoses
      · refine .inl (hExecuted n ?_)
        rw [hShifted.history]
        exact List.mem_append_left _ (hEvents n hMember)
      · refine .inr ⟨value, ?_, hSkip⟩
        rw [hOnly n hMember, Reactor.conclude_results, AList.lookup_insert]
    · have hOld : n ∈ resolvedNodes R concluded cascaded ∨ n ∈ dropped := by
        simp only [resolvedNodes, List.flatMap_cons, List.mem_append] at hIn ⊢
        tauto
      obtain hDone | ⟨old, hLookup, hSkip⟩ := h.covered n hn hOld
      · refine .inl (hExecuted n ?_)
        rw [hShifted.history]
        exact List.mem_append_right _ hDone
      · refine .inr ⟨old, ?_, hSkip⟩
        have hne : R.nodeId n ≠ R.nodeId idx := by
          intro hId
          have hLength : idx < R.graph.nodes.length :=
            hOrderly.members_lt hChains (hShifted.work.mem_iff.2 List.mem_cons_self)
              hTail.mem_members
          exact hMember (nodeId_injective hIds hn hLength hId ▸ hTail.mem_members)
        rw [Reactor.conclude_results, AList.lookup_insert_ne hne, hShifted.results]
        exact hLookup

theorem relocate (h : Coverage R s concluded cascaded dropped) {events : List Event}
    (hRelocating : Relocating R s action t events) : Coverage R t concluded cascaded dropped := by
  have hShifted := hRelocating.shifted
  have hReached : ∀ n, Reached R s concluded cascaded n → Reached R t concluded cascaded n :=
    fun n hn => hn.mono hShifted.mem_enqueued.2 (List.Subset.refl _)
  constructor
  · rw [hShifted.pending]
    exact h.bounded
  · rw [hShifted.pending]
    exact fun n hn => h.settled n (hn.imp_left hShifted.mem_enqueued.1)
  · exact fun n hn => h.leaders n (hn.imp_left hShifted.mem_enqueued.1)
  · intro n
    rw [hShifted.mem_enqueued, h.located, hShifted.work.mem_iff, List.nil_append]
  · rw [hShifted.pending]
    exact fun n hn => (h.positive n hn).imp_left (hReached n)
  · rw [hShifted.pending, hShifted.visits, ← hShifted.idle]
    exact fun n hn => (h.waiting n hn).imp_left (hReached n)
  · exact fun n hn => ⟨(h.idle n hn).1, fun g hArc => hReached g ((h.idle n hn).2 g hArc)⟩
  · exact fun n hn g hArc hFollower => hReached g (h.closed n hn g hArc hFollower)
  · intro n hn hIn
    refine (h.covered n hn hIn).imp (fun hExecuted => ?_) fun hSkip => ?_
    · rw [hShifted.history]
      exact List.mem_append_right _ hExecuted
    · rw [Reactor.CarriesSkip, hShifted.results]
      exact hSkip

theorem step (hAcyclic : R.graph.Acyclic) (hChains : R.ChainsDetected)
    (hIds : R.graph.nodes.Nodup) (hOrderly : Orderly R s)
    (h : Coverage R s concluded cascaded dropped) (hLoses : LosesNothing R s action)
    (hStep : R.step s action = some t) (hRunning : t.status = .running) :
    Orderly R t ∧ ∃ concluded cascaded dropped, Coverage R t concluded cascaded dropped := by
  obtain ⟨-, hStepped | ⟨e, -, rfl⟩⟩ := Reactor.step_cases hStep
  · have hMoved := hOrderly.moved hStepped
    refine ⟨hOrderly.step hAcyclic hChains hMoved hRunning, ?_⟩
    cases hMoved with
    | visited visit rest _ hVisits hVisit =>
        obtain ⟨hLeader, hArc⟩ := hOrderly.targets visit (hVisits ▸ List.mem_cons_self)
        simp only [LosesNothing, hVisits, List.head?_cons] at hLoses
        exact ⟨concluded,
          h.visited hChains hVisits hLeader hArc.target_lt (hLoses visit rfl) hVisit⟩
    | concluded _ start idx base events mode value hConcluding =>
        exact ⟨_, _, _, h.conclude hChains hIds hOrderly hLoses hConcluding⟩
    | relocated _ _ events hRelocating => exact ⟨_, _, _, h.relocate hRelocating⟩
    | paused => cases hRunning
  · cases e with
    | failed message => cases hRunning
    | counterUnderflow idx => cases hRunning
    | charBoundary => cases hRunning

theorem initial (hChains : R.ChainsDetected) : Coverage R (R.initialState ∅) [] [] [] := by
  have hEnqueued : ∀ n, .enqueued n ∈ (R.initialState ∅).history ↔
      n < R.graph.nodes.length ∧ R.graph.inDegree n = 0 := by
    intro n
    rw [enqueued_initialState, mem_initialReady]
    exact ⟨fun hn => ⟨hn.1, hn.2.1⟩, fun hn => ⟨hn.1, hn.2, by simp⟩⟩
  constructor
  · exact fun n => le_refl _
  · rintro n (hn | hn)
    · exact ((hEnqueued n).1 hn).2
    · cases hn
  · rintro n hn ⟨a, hConsecutive⟩
    have hOne := (hConsecutive.linked hChains).2.2
    obtain hn | hn := hn
    · rw [((hEnqueued n).1 hn).2] at hOne
      cases hOne
    · cases hn
  · intro n
    rw [enqueued_initialState]
    simp [State.work, Reactor.initialState]
  · intro n hn
    obtain hZero | hPos := Nat.eq_zero_or_pos (R.graph.inDegree n)
    · exact .inl (.inl ((hEnqueued n).2 ⟨hn, hZero⟩))
    · exact .inr hPos
  · exact fun n _ => .inr (.inr (.inr (openEdges_nil R n).ge))
  · exact fun n hn => absurd hn List.not_mem_nil
  · exact fun n hn => absurd hn List.not_mem_nil
  · rintro n - (hn | hn)
    · cases hn
    · cases hn

end Coverage

section Runs

/-- Every node has been executed or skipped when the queues of a fresh run are empty, and no join
is left waiting, if no step of the run leaves a node behind. -/
theorem fresh_run_loses_no_node (E : ParallelWorkflowEngine H) (hIds : E.graph.nodes.Nodup)
    (executionId : Uuid) (s : State) (hRun : E.FreshRun executionId LosesNothing s)
    (hQuiescent : s.Quiescent) :
    (∀ idx < E.graph.nodes.length, Covered (E.reactor executionId ∅) s idx) ∧
      ∀ idx, 2 ≤ E.graph.inDegree idx → s.pending idx = 0 := by
  obtain ⟨hAcyclic, hRun⟩ := hRun
  have hChains := reactor_chainsDetected E executionId ∅
  let R := E.reactor executionId ∅
  have hInvariant : s.status = .running → Orderly R s ∧
      ∃ concluded cascaded dropped, Coverage R s concluded cascaded dropped := by
    refine Run.invariant (fun s => s.status = .running → Orderly R s ∧
      ∃ concluded cascaded dropped, Coverage R s concluded cascaded dropped) ?_ hRun
      fun _ => ⟨Orderly.initial hChains (.inr rfl), [], [], [], Coverage.initial hChains⟩
    intro s action t hLoses hInv hStep hRunning
    obtain ⟨hOrderly, concluded, cascaded, dropped, hCoverage⟩ :=
      hInv (Reactor.step_cases hStep).1
    exact hCoverage.step hAcyclic hChains hIds hOrderly hLoses hStep hRunning
  obtain ⟨-, concluded, cascaded, dropped, hCoverage⟩ := hInvariant hQuiescent.1
  have hResolved := hCoverage.resolved_of_quiescent hAcyclic hChains hQuiescent
  refine ⟨fun idx hIdx => hCoverage.covered idx hIdx (hResolved idx hIdx), fun idx hJoin => ?_⟩
  have hLength : idx < E.graph.nodes.length := by
    obtain ⟨p, hArc⟩ := E.graph.inDegree_pos.1 (show 0 < E.graph.inDegree idx by omega)
    exact hArc.target_lt
  have hFollower : ¬ R.IsFollower idx := by
    rintro ⟨a, hConsecutive⟩
    have hOne : E.graph.inDegree idx = 1 := (hConsecutive.linked hChains).2.2
    omega
  obtain hIn | hIn := hResolved idx hLength
  · apply hCoverage.settled
    obtain hIn | hIn := List.mem_append.1 hIn
    · exact .inr hIn
    · obtain ⟨start, hStart, hMember⟩ := List.mem_flatMap.1 hIn
      have hEnqueued := (hCoverage.located start).2 (.inr hStart)
      obtain rfl | hFollows :=
        eq_or_isFollower_of_mem_members (hCoverage.leaders start (.inl hEnqueued)) hMember
      · exact .inl hEnqueued
      · exact absurd hFollows hFollower
  · have hDegree : E.graph.inDegree idx ≤ 1 := (hCoverage.idle idx hIn).1
    omega

end Runs

section Samples

/-- A module with an error handler, another module after it, and a join of the two modules. -/
def handledJoinEngine : ParallelWorkflowEngine (bareHost true) :=
  { ParallelWorkflowEngine.new with
    graph := ⟨[1, 2, 3, 4], [⟨0, 1, { edgeType := "error" }⟩, ⟨0, 2, {}⟩, ⟨0, 3, {}⟩, ⟨2, 3, {}⟩],
      by decide⟩
    nodeMeta := nodeTable [(1, moduleNode), (2, moduleNode), (3, moduleNode), (4, moduleNode)] }

def handledJoinActions : List Action :=
  [.pop .accepted, .finish 0 (.ok .null) 1, .visit, .visit, .visit, .pop .accepted,
    .finish 0 (.ok .null) 1, .visit, .pop .accepted, .finish 0 (.ok .null) 1]

theorem fresh_run_loses_no_node_handled_join :
    ∃ s, s.Quiescent ∧ .executed 3 ∈ s.history ∧
      (∀ idx < handledJoinEngine.graph.nodes.length,
        Covered (handledJoinEngine.reactor 9 ∅) s idx) ∧
      ∀ idx, 2 ≤ handledJoinEngine.graph.inDegree idx → s.pending idx = 0 := by
  let R := handledJoinEngine.reactor 9 ∅
  have hReplay : (replay R.step (LosesNothing R) handledJoinActions (R.initialState ∅)).map
      (fun s => decide (s.Quiescent ∧ .executed 3 ∈ s.history)) = some true := by
    decide
  obtain ⟨s, hs, hEnd⟩ := Option.map_eq_some_iff.1 hReplay
  obtain ⟨hQuiescent, hExecuted⟩ := of_decide_eq_true hEnd
  have hAcyclic : handledJoinEngine.graph.Acyclic := acyclic_of_rank id (by decide)
  exact ⟨s, hQuiescent, hExecuted, fresh_run_loses_no_node handledJoinEngine (by decide) 9 s
    ⟨hAcyclic, replay_run hs⟩ hQuiescent⟩

def starvedJoinEngine : ParallelWorkflowEngine (bareHost true) :=
  { handledJoinEngine with
    graph := ⟨[1, 2, 3, 4], [⟨0, 1, { edgeType := "error" }⟩, ⟨0, 2, {}⟩, ⟨1, 3, {}⟩, ⟨2, 3, {}⟩],
      by decide⟩ }

def starvedJoinActions : List Action :=
  [.pop .accepted, .finish 0 (.ok .null) 1, .visit, .visit, .pop .accepted,
    .finish 0 (.ok .null) 1, .visit]

theorem skipped_handler_starves_join :
    ¬ ∀ (H : Host) (E : ParallelWorkflowEngine H), E.graph.nodes.Nodup →
      ∀ (executionId : Uuid) (s : State), E.FreshRun executionId (fun _ _ _ => True) s →
        s.Quiescent →
        (∀ idx < E.graph.nodes.length, Covered (E.reactor executionId ∅) s idx) ∧
          ∀ idx, 2 ≤ E.graph.inDegree idx → s.pending idx = 0 := by
  intro hAll
  let R := starvedJoinEngine.reactor 9 ∅
  have hReplay : (replay R.step (fun _ _ => True) starvedJoinActions (R.initialState ∅)).map
      (fun s => decide (s.Quiescent ∧ .executed 3 ∉ s.history ∧
        s.results.lookup 4 = none ∧ s.pending 3 = 1)) = some true := by
    decide
  obtain ⟨s, hs, hEnd⟩ := Option.map_eq_some_iff.1 hReplay
  obtain ⟨hQuiescent, hExecuted, hResult, hPending⟩ := of_decide_eq_true hEnd
  have hAcyclic : starvedJoinEngine.graph.Acyclic := acyclic_of_rank id (by decide)
  obtain ⟨-, hJoins⟩ := hAll _ starvedJoinEngine (by decide) 9 s ⟨hAcyclic, replay_run hs⟩
    hQuiescent
  have hZero := hJoins 3 (by decide)
  rw [hPending] at hZero
  cases hZero

end Samples

end TalosWorkflow
