import TalosWorkflow.Ledger.FreshRuns
import TalosWorkflow.Gating.Departures
import TalosWorkflow.Library.Workload

/-!
# Every run ends

The work that is left in a state bounds the steps that can still be taken, and
a state without a step has ended the run.
-/

namespace TalosWorkflow

open Multigraph

variable {H : Host}

namespace Reactor

variable (R : Reactor H)

/-- What is left to do for a node that is visited, enqueued and popped. -/
def arrivalCost (idx : NodeIndex) : Nat := R.graph.workload 2 1 idx

/-- What is left to do for a node that completes. -/
def completionCost (idx : NodeIndex) : Nat := R.graph.passedOn 2 1 idx

def load (s : State) : Nat :=
  (s.visits.map fun visit => 1 + R.arrivalCost visit.target).sum +
    ((s.work.map fun n => 1 + R.completionCost n).sum + s.ready.length)

def remaining (s : State) : Nat := if s.status = .running then R.load s + 1 else 0

end Reactor

namespace ParallelWorkflowEngine

def stepBound (E : ParallelWorkflowEngine H) (executionId : Uuid) (initialResults : Table Json) :
    Nat :=
  let R := E.reactor executionId initialResults
  ((R.initialReady initialResults).map R.arrivalCost).sum + 1

end ParallelWorkflowEngine

section Costs

variable {R : Reactor H} {s t base : State}

theorem arrivalCost_eq (hAcyclic : R.graph.Acyclic) (idx : NodeIndex) :
    R.arrivalCost idx = 2 + R.completionCost idx :=
  hAcyclic.workload_eq 2 1 idx

theorem Reactor.IsTail.completionCost_le (hAcyclic : R.graph.Acyclic) (hChains : R.ChainsDetected)
    {start idx : NodeIndex} (h : R.IsTail start idx) (hStart : ¬ R.IsFollower start) :
    R.completionCost idx ≤ R.completionCost start := by
  unfold Reactor.IsTail at h
  cases hChain : R.chainOf start with
  | none =>
      rw [hChain] at h
      exact (congrArg R.completionCost h).le
  | some members =>
      rw [hChain] at h
      obtain ⟨hMembers, -⟩ := chainOf_eq_some hChain
      obtain ⟨hHead, -⟩ := isChainHead_of_not_isFollower hChain hStart
      rw [List.head?_eq_getElem?, List.getElem?_eq_some_iff] at hHead
      simp only [List.getLast?_eq_getElem?, List.getElem?_eq_some_iff] at h
      obtain ⟨hFirst, rfl⟩ := hHead
      obtain ⟨hLast, rfl⟩ := h
      obtain hOne | hMore := Nat.eq_zero_or_pos (members.length - 1)
      · simp only [hOne, le_refl]
      · exact hAcyclic.passedOn_le (transGen_of_lt hChains hMembers hMore hLast)

/-- Completing a node replaces what was due for its dispatch by the visits to its successors. -/
theorem load_conclude (idx : NodeIndex) (mode : Completion) (value : Json)
    (hVisits : base.visits = []) :
    R.load (R.conclude base idx mode value) = R.load base + R.completionCost idx := by
  simp only [Reactor.load, State.work, Reactor.conclude_visits, Reactor.conclude_ready,
    Reactor.conclude_batch, Reactor.conclude_executing, List.map_map, hVisits, List.map_nil,
    List.sum_nil]
  have hSuccessors : ((R.graph.successors idx).map
      ((fun visit : Visit => 1 + R.arrivalCost visit.target) ∘
        fun child => (⟨mode, idx, child⟩ : Visit))).sum = R.completionCost idx := rfl
  rw [hSuccessors]
  omega

theorem Shifted.load_eq {done : List NodeIndex} {events : List Event}
    (h : Shifted s base done events) :
    R.load base + (done.map fun n => 1 + R.completionCost n).sum +
      (dispatchedNodes events).length ≤ R.load s := by
  have hWork : (s.work.map fun n => 1 + R.completionCost n).sum =
      (done.map fun n => 1 + R.completionCost n).sum +
        (base.work.map fun n => 1 + R.completionCost n).sum := by
    rw [(h.work.map _).sum_eq, List.map_append, List.sum_append]
  have hReady := h.ready.length_le
  rw [List.length_append] at hReady
  simp only [Reactor.load, h.idle, h.visits, hWork, List.map_nil, List.sum_nil]
  omega

theorem load_visited (hAcyclic : R.graph.Acyclic) {visit : Visit} {rest : List Visit}
    (hVisits : s.visits = visit :: rest)
    (hVisit : Reactor.Visited R { s with visits := rest } visit t) : R.load t < R.load s := by
  have hCost := arrivalCost_eq hAcyclic visit.target
  have hBefore : R.load s = 1 + R.arrivalCost visit.target + R.load { s with visits := rest } := by
    simp only [Reactor.load, hVisits, List.map_cons, List.sum_cons, State.work]
    omega
  have hSame : ∀ {u : State}, u.visits = rest → u.ready = s.ready → u.batch = s.batch →
      u.executing = s.executing → R.load u < R.load s := by
    intro u hRest hReady hBatch hExecuting
    have hEqual : R.load u = R.load { s with visits := rest } := by
      simp only [Reactor.load, State.work, hRest, hReady, hBatch, hExecuting]
    omega
  cases hVisit with
  | marked | counted | wrapped => exact hSame rfl rfl rfl rfl
  | cascaded events output hMarks hFills hMode hFails =>
      rw [Reactor.cascadeSkip_eq]
      exact hSame rfl rfl rfl rfl
  | enqueued events hMarks hFills hPasses =>
      let base := State.setPending
        { s with visits := rest, history := events ++ s.history } visit.target 0
      have hBase : R.load base = R.load { s with visits := rest } := rfl
      have hWork := ((base.enqueue_work visit.target).map
        fun n => 1 + R.completionCost n).sum_eq
      rw [List.map_cons, List.sum_cons] at hWork
      have hAfter : R.load (base.enqueue visit.target) =
          R.load base + (1 + R.completionCost visit.target) + 1 := by
        simp only [Reactor.load, hWork, State.enqueue_visits, State.enqueue_ready,
          List.length_append, List.length_singleton]
        omega
      show R.load (base.enqueue visit.target) < R.load s
      omega

theorem load_step (hAcyclic : R.graph.Acyclic) (hChains : R.ChainsDetected)
    (hOrderly : Orderly R s) {action : Action} (hMoved : Moved R s action t) :
    t.status = .paused ∨ R.load t < R.load s := by
  cases hMoved with
  | visited visit rest _ hVisits hVisit => exact .inr (load_visited hAcyclic hVisits hVisit)
  | paused => exact .inl rfl
  | relocated _ _ events hRelocating =>
      have hShifted := hRelocating.shifted
      have hLoad := hShifted.load_eq (R := R)
      have hLeaves : 0 < (dispatchedNodes events).length := by
        cases hRelocating with
        | launchedSingle => exact Nat.one_pos
        | launchedChain idx rest answer members hVisits hBatch hReady hChain hHead =>
            simp [dispatchedNodes, hHead]
        | drained => simp [dispatchedNodes, List.filterMap_map]
      rw [List.map_nil, List.sum_nil] at hLoad
      exact .inr (by omega)
  | concluded _ start idx base events mode value hConcluding =>
      have hShifted := hConcluding.shifted
      have hLoad := hShifted.load_eq (R := R)
      have hStart : ¬ R.IsFollower start := (hOrderly.leaders start
        (hShifted.work.mem_iff.2 List.mem_cons_self)).1
      have hTail := (hConcluding.isTail hOrderly hChains).completionCost_le hAcyclic hChains hStart
      rw [List.map_singleton, List.sum_singleton] at hLoad
      rw [load_conclude idx mode value hShifted.visits]
      exact .inr (by omega)

theorem remaining_step (hAcyclic : R.graph.Acyclic) (hChains : R.ChainsDetected)
    (hOrderly : s.status = .running → Orderly R s) {action : Action}
    (hStep : R.step s action = some t) :
    (t.status = .running → Orderly R t) ∧ R.remaining t < R.remaining s := by
  obtain ⟨hRunning, hEnds⟩ := Reactor.step_cases hStep
  have hBefore : R.remaining s = R.load s + 1 := if_pos hRunning
  obtain hStepped | ⟨e, -, rfl⟩ := hEnds
  · have hMoved := (hOrderly hRunning).moved hStepped
    refine ⟨(hOrderly hRunning).step hAcyclic hChains hMoved, ?_⟩
    rw [hBefore, Reactor.remaining]
    obtain hPaused | hLess := load_step hAcyclic hChains (hOrderly hRunning) hMoved
    · rw [hPaused, if_neg (by simp)]
      omega
    · split <;> omega
  · rw [hBefore]
    cases e with
    | failed message | counterUnderflow idx | charBoundary =>
        exact ⟨(by simp [State.halt]), Nat.succ_pos _⟩

end Costs

section Progress

variable {R : Reactor H} {s : State}

/-- Whatever its kind, a popped node has an answer that the loop accepts. -/
theorem exists_dispatchKind (s : State) (idx : NodeIndex) (kind : Option SystemNodeKind) :
    ∃ answer, (R.dispatchKind s idx kind answer).isSome := by
  cases kind with
  | none => exact ⟨.accepted, rfl⟩
  | some kind =>
      cases kind with
      | errorHandler pattern =>
          refine ⟨.accepted, ?_⟩
          simp only [Reactor.dispatchKind]
          split <;> rfl
      | subWorkflow id timeout =>
          refine ⟨.outputs (List.replicate (s.ready.filter R.isSubWorkflowNode).length.succ .null), ?_⟩
          simp [Reactor.dispatchKind, Reactor.drainSubWorkflows]
      | wait message => exact ⟨.accepted, rfl⟩
      | _ => exact ⟨.output .null, rfl⟩

theorem exists_dispatchNode (s : State) (idx : NodeIndex) :
    ∃ answer, (R.dispatchNode s idx answer).isSome := by
  obtain ⟨answer, hKind⟩ := exists_dispatchKind (R := R) s idx (R.kindOf (R.nodeId idx))
  refine ⟨answer, ?_⟩
  unfold Reactor.dispatchNode
  split
  · split <;> rfl
  · split
    · rfl
    · exact hKind

theorem exists_finishFlight {flight : Flight} (hFlight : flight.WellFormed R) (s : State) :
    ∃ result ran, (R.finishFlight s flight result ran).isSome := by
  cases flight with
  | single idx parents => exact ⟨.ok .null, 0, rfl⟩
  | chain members parents =>
      obtain ⟨-, head, hHead⟩ := hFlight
      refine ⟨.ok .null, members.length, ?_⟩
      cases hLast : members.getLast? with
      | none =>
          rw [List.getLast?_eq_none_iff.1 hLast] at hHead
          cases hHead
      | some tail => simp [Reactor.finishFlight, hLast]

theorem exists_step (hOrderly : Orderly R s) (hRunning : s.status = .running)
    (hNot : ¬ s.Quiescent) : ∃ action, (R.step s action).isSome := by
  have hStep : ∀ {action : Action}, (R.body s action).isSome → (R.step s action).isSome := by
    intro action hBody
    rw [Reactor.step, if_pos hRunning, Option.isSome_map]
    exact hBody
  cases hVisits : s.visits with
  | cons visit rest => exact ⟨.visit, hStep (by simp [Reactor.body, hVisits])⟩
  | nil =>
      cases hBatch : s.batch with
      | cons entry rest => exact ⟨.store, hStep (by simp [Reactor.body, hVisits, hBatch])⟩
      | nil =>
          cases hReady : s.ready with
          | cons idx rest =>
              obtain ⟨answer, hAnswer⟩ := exists_dispatchNode (R := R) { s with ready := rest } idx
              exact ⟨.pop answer, hStep (by simpa [Reactor.body, hVisits, hBatch, hReady] using hAnswer)⟩
          | nil =>
              cases hExecuting : s.executing with
              | nil => exact absurd ⟨hRunning, hVisits, hBatch, hReady, hExecuting⟩ hNot
              | cons flight rest =>
                  have hFlight := hOrderly.flights flight (hExecuting ▸ List.mem_cons_self)
                  obtain ⟨result, ran, hResult⟩ :=
                    exists_finishFlight hFlight { s with executing := s.executing.eraseIdx 0 }
                  refine ⟨.finish 0 result ran, hStep ?_⟩
                  simpa [Reactor.body, hVisits, hBatch, hReady, hExecuting] using hResult

end Progress

section Runs

variable (E : ParallelWorkflowEngine H) (executionId : Uuid) (initialResults : Table Json)

theorem remaining_initialState (hAcyclic : E.graph.Acyclic) :
    (E.reactor executionId initialResults).remaining
      ((E.reactor executionId initialResults).initialState initialResults) =
        E.stepBound executionId initialResults := by
  simp only [Reactor.remaining, Reactor.load, State.work, Reactor.initialState, List.map_nil,
    List.sum_nil, List.nil_append, List.append_nil, if_true, ParallelWorkflowEngine.stepBound]
  have hCost : (E.reactor executionId initialResults).arrivalCost =
      fun n => 2 + (E.reactor executionId initialResults).completionCost n :=
    funext (arrivalCost_eq (R := E.reactor executionId initialResults) hAcyclic)
  rw [hCost]
  induction (E.reactor executionId initialResults).initialReady initialResults with
  | nil => rfl
  | cons n rest ih =>
      simp only [List.map_cons, List.sum_cons, List.length_cons]
      omega

variable {E executionId initialResults} in
theorem steps_le_stepBound (hAcyclic : E.graph.Acyclic) {actions : List Action} {s : State}
    (hRun : replay (E.reactor executionId initialResults).step (fun _ _ => True) actions
      ((E.reactor executionId initialResults).initialState initialResults) = some s) :
    actions.length ≤ E.stepBound executionId initialResults := by
  have hChains := reactor_chainsDetected E executionId initialResults
  have hLength := replay_length_le
    (fun s => s.status = .running → Orderly (E.reactor executionId initialResults) s)
    (E.reactor executionId initialResults).remaining
    (fun _ _ _ _ hOrderly hStep => remaining_step hAcyclic hChains hOrderly hStep)
    (fun _ => Orderly.initial hChains (reactor_fresh_or_seeded E executionId initialResults))
    hRun
  rw [remaining_initialState E executionId initialResults hAcyclic] at hLength
  exact (Nat.le_add_right _ _).trans hLength

/-- In an acyclic graph no order of completion keeps the loop going: a run takes at most
`stepBound` steps, and it can take another one until it has ended. -/
theorem every_run_ends (hAcyclic : E.graph.Acyclic) (actions : List Action) (s : State)
    (hRun : replay (E.reactor executionId initialResults).step (fun _ _ => True) actions
      ((E.reactor executionId initialResults).initialState initialResults) = some s) :
    actions.length ≤ E.stepBound executionId initialResults ∧
      (s.status ≠ .running ∨ s.Quiescent ∨
        ∃ action, ((E.reactor executionId initialResults).step s action).isSome) := by
  refine ⟨steps_le_stepBound hAcyclic hRun, ?_⟩
  by_cases hRunning : s.status = .running
  · refine .inr ?_
    by_cases hDone : s.Quiescent
    · exact .inl hDone
    · have hRuns : E.Runs executionId initialResults (fun _ _ _ => True) s :=
        ⟨hAcyclic, replay_run hRun⟩
      exact .inr (exists_step (Orderly.of_runs hRuns hRunning) hRunning hDone)
  · exact .inl hRunning

/-- The fan-in of this run is enqueued and aggregated twice, and still the run ends. -/
theorem every_run_ends_late_parent :
    ∃ s, lateParentActions.length ≤ (anyJoinEngine false).stepBound 9 ∅ ∧
      aggregatedNodes s.history = [2, 2] ∧
      (s.status ≠ .running ∨ s.Quiescent ∨
        ∃ action, (((anyJoinEngine false).reactor 9 ∅).step s action).isSome) := by
  let R := (anyJoinEngine false).reactor 9 ∅
  have hReplay : (replay R.step (fun _ _ => True) lateParentActions (R.initialState ∅)).map
      (fun s => aggregatedNodes s.history) = some [2, 2] := by
    decide
  obtain ⟨s, hs, hAggregated⟩ := Option.map_eq_some_iff.1 hReplay
  obtain ⟨hLength, hEnds⟩ := every_run_ends (anyJoinEngine false) 9 ∅ (anyJoinEngine_acyclic false)
    lateParentActions s hs
  exact ⟨s, hLength, hAggregated, hEnds⟩

example : (anyJoinEngine false).stepBound 9 ∅ = 11 := by decide

end Runs

end TalosWorkflow
