import TalosWorkflow.Gating.Departures
import TalosWorkflow.Ledger.FreshRuns
import TalosWorkflow.Ledger.Seeds

/-!
# Retired nodes

Without early joins, the dispatch of a node that a counter has let through is
over for good, and so is the result that it has recorded.
-/

namespace TalosWorkflow

open Multigraph

variable {H : Host} {R : Reactor H} {s t base : State}

section Retirement

/-- The dispatch that completes `p` is over, or will never come. -/
def Retired (R : Reactor H) (s : State) (p : NodeIndex) : Prop :=
  ∃ start, ¬ R.IsFollower start ∧ p ∈ R.members start ∧ s.pending start = 0 ∧ start ∉ s.work

variable {p n : NodeIndex} {concluded cascaded : List NodeIndex} {action : Action}

theorem Retired.not_mem_work (hChains : R.ChainsDetected) (h : Retired R s p)
    (hLeader : ¬ R.IsFollower n) (hMember : p ∈ R.members n) : n ∉ s.work := by
  obtain ⟨start, hStart, hIn, -, hOut⟩ := h
  rwa [eq_of_mem_members hChains hLeader hStart hMember hIn]

theorem Ledger.retired (h : Ledger R s concluded cascaded)
    (hp : p ∈ resolvedNodes R concluded cascaded) : Retired R s p := by
  obtain hCascaded | hConcluded := List.mem_append.1 hp
  · refine ⟨p, h.leaders p (.inr hCascaded), mem_members_self, h.settled p (.inr hCascaded), ?_⟩
    exact fun hWork => h.cascadedFresh p hCascaded (h.work_enqueued hWork)
  · obtain ⟨start, hStart, hMember⟩ := List.mem_flatMap.1 hConcluded
    have hEnqueued := h.concluded_enqueued hStart
    refine ⟨start, h.leaders start (.inl hEnqueued), hMember, h.settled start (.inl hEnqueued), ?_⟩
    exact fun hWork => (List.nodup_append.1 h.work_nodup).2.2 start hWork start hStart rfl

theorem Retired.of_le {t : State} (h : Retired R s p) (hPending : ∀ n, t.pending n ≤ s.pending n)
    (hWork : t.work ⊆ s.work) : Retired R t p := by
  obtain ⟨start, hStart, hIn, hZero, hOut⟩ := h
  have hLe := hPending start
  exact ⟨start, hStart, hIn, by omega, fun hn => hOut (hWork hn)⟩

/-- A visit that counts finds the counter of its target above zero, so it retires nobody anew. -/
theorem Retired.visited {visit : Visit} {rest : List Visit} (h : Retired R s p)
    (hPos : R.marks visit = false → 0 < s.pending visit.target)
    (hVisit : Reactor.Visited R { s with visits := rest } visit t) : Retired R t p := by
  obtain ⟨start, hStart, hIn, hZero, hOut⟩ := h
  have hOther : R.marks visit = false → start ≠ visit.target := by
    rintro hMarks rfl
    exact absurd hZero (hPos hMarks).ne'
  refine ⟨start, hStart, hIn, ?_, fun hWork => ?_⟩
  · cases hVisit with
    | marked => exact hZero
    | counted hMarks =>
        exact (State.setPending_pending_ne _ _ (hOther hMarks)).trans hZero
    | enqueued events hMarks =>
        exact (State.setPending_pending_ne _ _ (hOther hMarks)).trans hZero
    | cascaded events output hMarks =>
        have hLe := Reactor.cascadeSkip_pending_le (R := R)
          { s with visits := rest, history := events ++ s.history } visit.target start
        exact Nat.le_zero.1 (hLe.trans_eq hZero)
    | wrapped output hMarks hChecks hMode hWrapped =>
        exact absurd hWrapped (hPos hMarks).ne'
  · obtain hOld | rfl := visited_work hVisit hWork
    · exact hOut hOld
    · cases hVisit with
      | marked => exact hOut hWork
      | counted hMarks => exact hOther hMarks rfl
      | enqueued events hMarks => exact hOther hMarks rfl
      | cascaded events output hMarks => exact hOther hMarks rfl
      | wrapped output hMarks => exact hOther hMarks rfl

end Retirement

section Steps

variable {p : NodeIndex} {concluded cascaded : List NodeIndex} {action : Action}

theorem Retired.step (hOrderly : Orderly R s) (hLedger : Ledger R s concluded cascaded)
    (hLive : CountsLiveFanIns R s action) (h : Retired R s p) (hStep : R.step s action = some t)
    (hRunning : t.status = .running) : Retired R t p := by
  obtain ⟨-, hStepped⟩ := step_running hStep hRunning
  cases hOrderly.moved hStepped with
  | visited visit rest _ hVisits hVisit =>
      refine h.visited (fun hMarks => ?_) hVisit
      simp only [CountsLiveFanIns, hVisits] at hLive
      exact hLedger.pending_pos hVisits (hLive hMarks)
  | concluded _ start idx base events mode value hConcluding =>
      have hShifted := hConcluding.shifted
      refine h.of_le (fun n => ?_) fun n hn => ?_
      · rw [← hShifted.pending]
        obtain hSame | ⟨-, hZero⟩ := Reactor.conclude_pending (R := R) base idx mode value n
        · exact hSame.le
        · exact hZero.trans_le (Nat.zero_le _)
      · simp only [State.work, Reactor.conclude_batch, Reactor.conclude_ready,
          Reactor.conclude_executing] at hn
        exact hShifted.work.mem_iff.2 (List.mem_append_right _ hn)
  | relocated _ _ events hRelocating =>
      have hShifted := hRelocating.shifted
      refine h.of_le (fun n => (congrFun hShifted.pending n).le) fun n hn => ?_
      exact hShifted.work.mem_iff.2 hn
  | paused => cases hRunning

theorem work_of_ready {n : NodeIndex} (hn : n ∈ s.ready) : n ∈ s.work :=
  List.mem_append_right _ (List.mem_append_left _ hn)

/-- A step writes to a node that is queued, or that an edge is about to be counted into. -/
theorem Retired.lookup_step (hChains : R.ChainsDetected) (hIds : R.graph.nodes.Nodup)
    (hOrderly : Orderly R s) (hLedger : Ledger R s concluded cascaded)
    (hWaits : ∀ n < R.graph.nodes.length, R.joinsEarly n = false) (h : Retired R s p)
    (hp : p < R.graph.nodes.length) (hStep : R.step s action = some t) :
    t.results.lookup (R.nodeId p) = s.results.lookup (R.nodeId p) := by
  have hOther : ∀ m value, m < R.graph.nodes.length → p ≠ m →
      (s.results.insert (R.nodeId m) value).lookup (R.nodeId p) =
        s.results.lookup (R.nodeId p) := by
    intro m value hm hne
    exact AList.lookup_insert_ne fun hSame => hne (nodeId_injective hIds hp hm hSame)
  have hQueued : ∀ start m, start ∈ s.work → m ∈ R.members start → p ≠ m := by
    rintro start m hWork hMember rfl
    exact h.not_mem_work hChains (hOrderly.leaders start hWork).1 hMember hWork
  obtain ⟨-, hStepped | ⟨e, -, rfl⟩⟩ := Reactor.step_cases hStep
  · cases hOrderly.moved hStepped with
    | visited visit rest _ hVisits hVisit =>
        obtain hSame | hMarked := visited_results hVisit
        · rw [hSame]
        · obtain ⟨hLeader, hArc⟩ := hOrderly.targets visit (hVisits ▸ List.mem_cons_self)
          have hPos := hLedger.pending_pos hVisits fun hJoins => by
            rw [hWaits _ hArc.target_lt] at hJoins
            cases hJoins
          rw [hMarked]
          refine hOther visit.target _ hArc.target_lt ?_
          rintro rfl
          obtain ⟨start, hStart, hIn, hZero, -⟩ := h
          rw [eq_of_mem_members hChains hStart hLeader hIn mem_members_self] at hZero
          omega
    | concluded _ start idx base events mode value hConcluding =>
        have hShifted := hConcluding.shifted
        have hWork : start ∈ s.work :=
          hShifted.work.mem_iff.2 (List.mem_append_left _ (List.mem_singleton_self start))
        have hMember := (hConcluding.isTail hOrderly hChains).mem_members
        rw [Reactor.conclude_results, hShifted.results]
        exact hOther idx value (hOrderly.members_lt hChains hWork hMember)
          (hQueued start idx hWork hMember)
    | relocated _ _ events hRelocating => rw [hRelocating.shifted.results]
    | paused idx rest answer waiting _ _ hReady =>
        have hWork : idx ∈ s.work := work_of_ready (hReady ▸ List.mem_cons_self)
        rw [Reactor.pauseAt_results]
        exact hOther idx waiting (hOrderly.leaders idx hWork).2
          (hQueued idx idx hWork mem_members_self)
  · cases e with
    | failed message => rfl
    | counterUnderflow idx => rfl
    | charBoundary => rfl

end Steps

section Runs

variable {E : ParallelWorkflowEngine H} {executionId : Uuid} {initialResults : Table Json}
  {allowed : Reactor H → State → Action → Prop}

def WaitsForAll (E : ParallelWorkflowEngine H) : Prop :=
  ∀ idx < E.graph.nodes.length, ∀ mode expr,
    E.kindOf (E.nodeId idx) = some (.fanIn mode expr) → mode = .all

theorem WaitsForAll.joinsEarly_eq_false (hWaits : WaitsForAll E) (executionId : Uuid)
    (initialResults : Table Json) : ∀ n < E.graph.nodes.length,
      (E.reactor executionId initialResults).joinsEarly n = false := by
  intro n hn
  rw [Bool.eq_false_iff]
  intro hJoins
  obtain ⟨mode, expr, hKind⟩ := Reactor.isFanIn_iff.1 (Reactor.isFanIn_of_joinsEarly hJoins)
  obtain rfl := hWaits n hn mode expr hKind
  rw [Reactor.joinsEarly, hKind] at hJoins
  cases hJoins

theorem WaitsForAll.countsLiveFanIns (hWaits : WaitsForAll E)
    (hOrderly : Orderly (E.reactor executionId initialResults) s) (action : Action) :
    CountsLiveFanIns (E.reactor executionId initialResults) s action := by
  unfold CountsLiveFanIns
  split
  · rename_i hVisits
    intro _ hJoins
    have hTarget := (hOrderly.targets _ (hVisits ▸ List.mem_cons_self)).2.target_lt
    rw [hWaits.joinsEarly_eq_false executionId initialResults _ hTarget] at hJoins
    cases hJoins
  · trivial

theorem WaitsForAll.ledger (hWaits : WaitsForAll E) (hClosed : SeedsClosed E initialResults)
    (hRun : E.Runs executionId initialResults allowed s) (hRunning : s.status = .running) :
    ∃ concluded cascaded, Ledger (E.reactor executionId initialResults) s concluded cascaded := by
  have hLive : E.Runs executionId initialResults CountsLiveFanIns s := by
    obtain ⟨hAcyclic, hRun⟩ := hRun
    refine ⟨hAcyclic, ?_⟩
    clear hRunning
    induction hRun with
    | refl => exact .refl
    | tail hFirst hLast ih =>
        obtain ⟨action, -, hStep⟩ := hLast
        have hOrderly := Orderly.of_runs ⟨hAcyclic, hFirst⟩ (Reactor.step_cases hStep).1
        exact ih.tail ⟨action, hWaits.countsLiveFanIns hOrderly action, hStep⟩
  exact (seeded_run_ledger hClosed hLive hRunning).2

end Runs

end TalosWorkflow
