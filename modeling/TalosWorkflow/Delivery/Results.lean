import TalosWorkflow.Delivery.Awaited
import TalosWorkflow.Exits.Context
import TalosWorkflow.Ledger.Retirement

/-!
# Real results and skip marks

A node is skipped by a visit or when its turn in the queues comes. As long as
visits come to nodes that are still waiting, each turn is the first one, and a
real result is written once.
-/

namespace TalosWorkflow

open Multigraph

variable {H : Host}

def Json.IsSkip (value : Json) : Prop := value.get "__skipped" = some (.bool true)

instance (value : Json) : Decidable value.IsSkip := by
  unfold Json.IsSkip
  infer_instance

section Definitions

variable (R : Reactor H)

def Reactor.HasRealResult (s : State) (n : NodeIndex) : Prop :=
  ∃ value ∈ s.results.lookup (R.nodeId n), ¬ value.IsSkip

instance (s : State) (n : NodeIndex) : Decidable (R.HasRealResult s n) := by
  unfold Reactor.HasRealResult
  infer_instance

/-- The target of a visit is neither queued nor running, and neither it nor a member of its chain
holds a real result. -/
def FindsWaiting (s : State) (action : Action) : Prop :=
  action matches .visit → ∀ visit ∈ s.visits.head?,
    visit.target ∉ s.work ∧ ∀ n ∈ R.members visit.target, ¬ R.HasRealResult s n

instance : ∀ s action, Decidable (FindsWaiting R s action) := by
  intro s action
  unfold FindsWaiting
  infer_instance

structure FirstTurns (s : State) : Prop where
  work : s.work.Nodup
  fresh : ∀ start ∈ s.work, ∀ n ∈ R.members start, ¬ R.HasRealResult s n

end Definitions

section Steps

variable {R : Reactor H} {s t base : State} {action : Action} {m n start idx : NodeIndex}

theorem hasRealResult_congr (h : t.results = s.results) :
    R.HasRealResult t n ↔ R.HasRealResult s n := by
  rw [Reactor.HasRealResult, Reactor.HasRealResult, h]

theorem hasRealResult_insert_ne {value : Json}
    (hResults : t.results = s.results.insert (R.nodeId m) value) (hId : R.nodeId n ≠ R.nodeId m) :
    R.HasRealResult t n ↔ R.HasRealResult s n := by
  rw [Reactor.HasRealResult, Reactor.HasRealResult, hResults, AList.lookup_insert_ne hId]

theorem not_hasRealResult_of_mark (hResults : t.results = s.results.insert (R.nodeId m) skippedMark)
    (hId : R.nodeId n = R.nodeId m) : ¬ R.HasRealResult t n := by
  rintro ⟨value, hValue, hReal⟩
  rw [hResults, hId, AList.lookup_insert] at hValue
  cases hValue
  exact hReal rfl

theorem hasRealResult_of_nodeId (hId : R.nodeId n = R.nodeId m) :
    R.HasRealResult s n ↔ R.HasRealResult s m := by
  rw [Reactor.HasRealResult, Reactor.HasRealResult, hId]

namespace FirstTurns

/-- What was real stays so where a node is written that has no real result. -/
theorem kept {value : Json} (hResults : t.results = s.results.insert (R.nodeId m) value)
    (hNew : ¬ R.HasRealResult s m) (h : R.HasRealResult s n) : R.HasRealResult t n := by
  refine (hasRealResult_insert_ne hResults fun hId => ?_).2 h
  exact hNew ((hasRealResult_of_nodeId hId).1 h)

theorem visited (h : FirstTurns R s) {visit : Visit} {rest : List Visit}
    (hTarget : visit.target ∉ s.work)
    (hWaiting : ∀ n ∈ R.members visit.target, ¬ R.HasRealResult s n)
    (hVisit : Reactor.Visited R { s with visits := rest } visit t) : FirstTurns R t := by
  constructor
  · cases hVisit with
    | cascaded =>
        rw [Reactor.cascadeSkip_eq]
        exact h.work
    | enqueued =>
        exact (State.enqueue_work _ _).nodup_iff.2 (List.nodup_cons.2 ⟨hTarget, h.work⟩)
    | _ => exact h.work
  · intro start hStart n hn hReal
    have hBefore : R.HasRealResult s n := by
      obtain hSame | hMarked := visited_results hVisit
      · exact (hasRealResult_congr hSame).1 hReal
      · by_cases hId : R.nodeId n = R.nodeId visit.target
        · exact absurd hReal (not_hasRealResult_of_mark hMarked hId)
        · exact (hasRealResult_insert_ne hMarked hId).1 hReal
    obtain hOld | rfl := visited_work hVisit hStart
    · exact h.fresh start hOld n hn hBefore
    · exact hWaiting n hn hBefore

theorem concluded (h : FirstTurns R s) (hIds : R.graph.nodes.Nodup) (hChains : R.ChainsDetected)
    (hOrderly : Orderly R s) {events : List Event} {mode : Completion} {value : Json}
    (hConcluding : Concluding R s action start idx base events mode value) :
    FirstTurns R (R.conclude base idx mode value) ∧ ¬ R.HasRealResult s idx := by
  have hShifted := hConcluding.shifted
  have hMember := (hConcluding.isTail hOrderly hChains).mem_members
  have hStart : start ∈ s.work := hShifted.work.mem_iff.2 List.mem_cons_self
  have hNodup : (start :: base.work).Nodup := hShifted.work.nodup_iff.1 h.work
  have hWork : (R.conclude base idx mode value).work = base.work := by
    simp [State.work]
  refine ⟨⟨?_, fun other hOther n hn => ?_⟩, h.fresh start hStart idx hMember⟩
  · rw [hWork]
    exact (List.nodup_cons.1 hNodup).2
  · rw [hWork] at hOther
    have hOld : other ∈ s.work := hShifted.work.mem_iff.2 (List.mem_cons_of_mem start hOther)
    have hResults : (R.conclude base idx mode value).results =
        s.results.insert (R.nodeId idx) value := by
      rw [Reactor.conclude_results, hShifted.results]
    rw [hasRealResult_insert_ne hResults fun hId => ?_]
    · exact h.fresh other hOld n hn
    · obtain rfl := nodeId_injective hIds (hOrderly.members_lt hChains hOld hn)
        (hOrderly.members_lt hChains hStart hMember) hId
      obtain rfl := eq_of_mem_members hChains (hOrderly.leaders other hOld).1
        (hOrderly.leaders start hStart).1 hn hMember
      exact (List.nodup_cons.1 hNodup).1 hOther

/-- A visit to a node that is waiting keeps the turns first, and each step the real results. -/
theorem step (h : FirstTurns R s) (hIds : R.graph.nodes.Nodup) (hChains : R.ChainsDetected)
    (hOrderly : Orderly R s) (hFinds : FindsWaiting R s action) (hStep : R.step s action = some t) :
    (t.status = .running → FirstTurns R t) ∧ ∀ n, R.HasRealResult s n → R.HasRealResult t n := by
  obtain ⟨-, hStepped | ⟨e, -, rfl⟩⟩ := Reactor.step_cases hStep
  · cases hOrderly.moved hStepped with
    | visited visit rest _ hVisits hVisit =>
        obtain ⟨hTarget, hWaiting⟩ := hFinds rfl visit (by rw [hVisits]; rfl)
        refine ⟨fun _ => h.visited hTarget hWaiting hVisit, fun n hn => ?_⟩
        obtain hSame | hMarked := visited_results hVisit
        · exact (hasRealResult_congr hSame).2 hn
        · exact kept (s := s) hMarked (hWaiting visit.target mem_members_self) hn
    | concluded _ start idx base events mode value hConcluding =>
        obtain ⟨hTurns, hNew⟩ := h.concluded hIds hChains hOrderly hConcluding
        have hResults : (R.conclude base idx mode value).results =
            s.results.insert (R.nodeId idx) value := by
          rw [Reactor.conclude_results, hConcluding.shifted.results]
        exact ⟨fun _ => hTurns, fun n hn => kept hResults hNew hn⟩
    | relocated _ _ events hRelocating =>
        have hShifted := hRelocating.shifted
        have hWork : s.work.Perm t.work := hShifted.work
        refine ⟨fun _ => ⟨hWork.nodup_iff.1 h.work, fun start hStart n hn => ?_⟩, fun n hn => ?_⟩
        · rw [hasRealResult_congr hShifted.results]
          exact h.fresh start (hWork.mem_iff.2 hStart) n hn
        · exact (hasRealResult_congr hShifted.results).2 hn
    | paused idx rest answer waiting _ _ hReady =>
        have hIdx : idx ∈ s.work := work_of_ready (hReady ▸ List.mem_cons_self)
        refine ⟨fun hRunning => (by cases hRunning), fun n hn => ?_⟩
        exact kept (s := s) (Reactor.pauseAt_results ..) (h.fresh idx hIdx idx mem_members_self) hn
  · cases e with
    | failed message => exact ⟨fun hRunning => (by cases hRunning), fun n hn => hn⟩
    | counterUnderflow idx => exact ⟨fun hRunning => (by cases hRunning), fun n hn => hn⟩
    | charBoundary => exact ⟨fun hRunning => (by cases hRunning), fun n hn => hn⟩

end FirstTurns

end Steps

section Runs

variable {E : ParallelWorkflowEngine H} {executionId : Uuid} {initialResults : Table Json}
  {s t : State} {allowed : Reactor H → State → Action → Prop}

theorem ParallelWorkflowEngine.Indexed.nodup (hIndexed : E.Indexed) : E.graph.nodes.Nodup := by
  rw [List.nodup_iff_injective_getElem]
  intro a b hSame
  have hId : E.nodeId a = E.nodeId b := by
    simpa [ParallelWorkflowEngine.nodeId] using hSame
  have hIndex : some a.val = some b.val := by
    rw [← hIndexed a a.isLt, hId, hIndexed b b.isLt]
  exact Fin.ext (Option.some.inj hIndex)

theorem FirstTurns.initial : FirstTurns (E.reactor executionId initialResults)
    ((E.reactor executionId initialResults).initialState initialResults) := by
  let R := E.reactor executionId initialResults
  have hWork : (R.initialState initialResults).work = R.initialReady initialResults := by
    simp [State.work, Reactor.initialState]
  constructor
  · rw [hWork]
    exact R.graph.nodeIndices_nodup.filter _
  · rintro start hStart n hn ⟨value, hValue, -⟩
    obtain hNone | rfl := reactor_fresh_or_seeded E executionId initialResults
    · have hAlone : R.members start = [start] := by
        simp [Reactor.members, Reactor.chainOf, R, hNone]
      rw [hAlone] at hn
      obtain rfl := List.mem_singleton.1 hn
      rw [hWork] at hStart
      exact (mem_initialReady.1 hStart).2.2 (AList.lookup_isSome.1 (Option.isSome_of_mem hValue))
    · cases hValue

/-- A run whose visits find their targets waiting keeps the real results. -/
theorem real_results_kept (hIds : E.graph.nodes.Nodup)
    (hBefore : E.Runs executionId initialResults FindsWaiting s)
    (hAfter : Run (E.reactor executionId initialResults).step
      (FindsWaiting (E.reactor executionId initialResults)) s t) (n : NodeIndex)
    (hReal : (E.reactor executionId initialResults).HasRealResult s n) :
    (E.reactor executionId initialResults).HasRealResult t n := by
  have hChains := reactor_chainsDetected E executionId initialResults
  have hTurns : ∀ u, E.Runs executionId initialResults FindsWaiting u → u.status = .running →
      FirstTurns (E.reactor executionId initialResults) u := by
    intro u hRun
    refine runs_invariant (fun u => u.status = .running →
      FirstTurns (E.reactor executionId initialResults) u) hRun (fun _ => .initial) ?_
    intro u action v hOrderly hFinds hInv hStep
    exact ((hInv (Reactor.step_cases hStep).1).step hIds hChains hOrderly hFinds hStep).1
  induction hAfter with
  | refl => exact hReal
  | tail hMid hLast ih =>
      obtain ⟨action, hFinds, hStep⟩ := hLast
      have hRuns : E.Runs executionId initialResults FindsWaiting _ :=
        ⟨hBefore.1, hBefore.2.trans hMid⟩
      have hRunning := (Reactor.step_cases hStep).1
      exact ((hTurns _ hRuns hRunning).step hIds hChains (Orderly.of_runs hRuns hRunning) hFinds
        hStep).2 n ih

theorem retired_of_hasRealResult (hIds : E.graph.nodes.Nodup) (hWaits : WaitsForAll E)
    (hClosed : SeedsClosed E initialResults) (hRun : E.Runs executionId initialResults allowed s)
    {n : NodeIndex} (hn : n < E.graph.nodes.length) (hRunning : s.status = .running)
    (hReal : (E.reactor executionId initialResults).HasRealResult s n) :
    Retired (E.reactor executionId initialResults) s n := by
  have hChains := reactor_chainsDetected E executionId initialResults
  obtain ⟨hAcyclic, hRun⟩ := hRun
  induction hRun with
  | refl =>
      obtain ⟨value, hValue, -⟩ := hReal
      have hSeeded : E.nodeId n ∈ initialResults :=
        AList.lookup_isSome.1 (Option.isSome_of_mem hValue)
      have hSome : initialResults.entries.isEmpty = false := by
        rw [Bool.eq_false_iff]
        intro hNone
        obtain rfl : initialResults = ∅ := AList.ext (List.isEmpty_iff.1 hNone)
        exact AList.notMem_empty _ hSeeded
      refine (Ledger.seeded hClosed hSome).retired (List.mem_append_left _ ?_)
      exact (hClosed.mem_seededNodes hn).2 hSeeded
  | @tail u v hFirst hLast ih =>
      obtain ⟨action, hAllowed, hStep⟩ := hLast
      have hRuns : E.Runs executionId initialResults allowed u := ⟨hAcyclic, hFirst⟩
      obtain ⟨hBefore, hStepped⟩ := step_running hStep hRunning
      have hOrderly := Orderly.of_runs hRuns hBefore
      obtain ⟨concluded, cascaded, hLedger⟩ := hWaits.ledger hClosed hRuns hBefore
      have hOld : (E.reactor executionId initialResults).HasRealResult u n →
          Retired (E.reactor executionId initialResults) v n := fun hReal =>
        (ih hBefore hReal).step hOrderly hLedger (hWaits.countsLiveFanIns hOrderly action) hStep
          hRunning
      cases hOrderly.moved hStepped with
      | visited visit rest _ hVisits hVisit =>
          obtain hSame | hMarked := visited_results hVisit
          · exact hOld ((hasRealResult_congr hSame).1 hReal)
          · by_cases hId : (E.reactor executionId initialResults).nodeId n =
                (E.reactor executionId initialResults).nodeId visit.target
            · exact absurd hReal (not_hasRealResult_of_mark hMarked hId)
            · exact hOld ((hasRealResult_insert_ne (s := u) hMarked hId).1 hReal)
      | concluded _ start idx base events mode value hConcluding =>
          have hMember := (hConcluding.isTail hOrderly hChains).mem_members
          have hStart := hConcluding.shifted.work.mem_iff.2 List.mem_cons_self
          by_cases hId : (E.reactor executionId initialResults).nodeId n =
              (E.reactor executionId initialResults).nodeId idx
          · obtain rfl := nodeId_injective hIds hn (hOrderly.members_lt hChains hStart hMember) hId
            refine (hLedger.conclude hAcyclic hChains hOrderly hConcluding).retired ?_
            exact List.mem_append_right _ (List.mem_flatMap.2 ⟨start, List.mem_cons_self, hMember⟩)
          · have hResults := Reactor.conclude_results (R := E.reactor executionId initialResults) base
              idx mode value
            rw [hConcluding.shifted.results] at hResults
            exact hOld ((hasRealResult_insert_ne hResults hId).1 hReal)
      | relocated _ _ events hRelocating =>
          exact hOld ((hasRealResult_congr hRelocating.shifted.results).1 hReal)
      | paused => cases hRunning

/-- Without early joins, and with closed seeds, every visit finds its target waiting. -/
theorem findsWaiting_of_waitsForAll (hIds : E.graph.nodes.Nodup) (hWaits : WaitsForAll E)
    (hClosed : SeedsClosed E initialResults) (hRun : E.Runs executionId initialResults allowed s)
    (hRunning : s.status = .running) (action : Action) :
    FindsWaiting (E.reactor executionId initialResults) s action := by
  have hChains := reactor_chainsDetected E executionId initialResults
  have hOrderly := Orderly.of_runs hRun hRunning
  obtain ⟨concluded, cascaded, hLedger⟩ := hWaits.ledger hClosed hRun hRunning
  intro _ visit hVisit
  obtain ⟨rest, hVisits⟩ := List.head?_eq_some_iff.1 hVisit
  obtain ⟨hLeader, hArc⟩ := hOrderly.targets visit (hVisits ▸ List.mem_cons_self)
  have hPos := hLedger.pending_pos hVisits fun hJoins => by
    rw [hWaits.joinsEarly_eq_false executionId initialResults _ hArc.target_lt] at hJoins
    cases hJoins
  constructor
  · intro hWork
    have hZero := hLedger.settled visit.target (.inl (hLedger.work_enqueued hWork))
    omega
  · intro n hn hReal
    have hLength : n < E.graph.nodes.length := by
      obtain rfl | ⟨a, hConsecutive⟩ := eq_or_isFollower_of_mem_members hLeader hn
      · exact hArc.target_lt
      · exact (hConsecutive.linked hChains).1.target_lt
    obtain ⟨start, hStart, hIn, hZero, -⟩ :=
      retired_of_hasRealResult hIds hWaits hClosed hRun hLength hRunning hReal
    rw [eq_of_mem_members hChains hStart hLeader hIn hn] at hZero
    omega

theorem real_results_kept_of_waitsForAll (hIds : E.graph.nodes.Nodup) (hWaits : WaitsForAll E)
    (hClosed : SeedsClosed E initialResults) (hBefore : E.Runs executionId initialResults allowed s)
    (hAfter : Run (E.reactor executionId initialResults).step
      (allowed (E.reactor executionId initialResults)) s t) (n : NodeIndex)
    (hReal : (E.reactor executionId initialResults).HasRealResult s n) :
    (E.reactor executionId initialResults).HasRealResult t n := by
  have hFinds : ∀ u v, E.Runs executionId initialResults allowed u →
      Run (E.reactor executionId initialResults).step
        (allowed (E.reactor executionId initialResults)) u v →
      Run (E.reactor executionId initialResults).step
        (FindsWaiting (E.reactor executionId initialResults)) u v := by
    intro u v hRun hLater
    induction hLater with
    | refl => exact .refl
    | tail hMid hLast ih =>
        obtain ⟨action, -, hStep⟩ := hLast
        have hRuns : E.Runs executionId initialResults allowed _ := ⟨hRun.1, hRun.2.trans hMid⟩
        refine ih.tail ⟨action, ?_, hStep⟩
        exact findsWaiting_of_waitsForAll hIds hWaits hClosed hRuns (Reactor.step_cases hStep).1
          action
  refine real_results_kept hIds ⟨hBefore.1, ?_⟩ (hFinds s t hBefore hAfter) n hReal
  exact hFinds _ s ⟨hBefore.1, .refl⟩ hBefore.2

end Runs

end TalosWorkflow
