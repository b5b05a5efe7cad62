import TalosWorkflow.Coverage.Invariant

/-!
# Visits keep the coverage
-/

namespace TalosWorkflow

open Multigraph

variable {H : Host} {R : Reactor H} {s t : State} {concluded cascaded dropped : List NodeIndex}
  {visit : Visit} {rest : List Visit} {events : List Event}

theorem Reactor.Fills.fillsNow {idx : NodeIndex} (h : Reactor.Fills R s idx events) :
    R.fillsNow s idx := by
  cases h with
  | filled hReady => exact hReady
  | wrapped _ hZero => exact .inl (by omega)

theorem Reactor.Fills.not_enqueued {idx : NodeIndex} (h : Reactor.Fills R s idx events)
    (n : NodeIndex) : .enqueued n ∉ events := by
  cases h with
  | filled => exact List.not_mem_nil
  | wrapped => simp

theorem mem_append_of_not_enqueued {history : List Event} (h : ∀ n, .enqueued n ∉ events)
    {n : NodeIndex} : .enqueued n ∈ events ++ history ↔ .enqueued n ∈ history := by
  rw [List.mem_append]
  exact or_iff_right (h n)

theorem mem_enqueued_cons {history : List Event} (h : ∀ n, .enqueued n ∉ events)
    {idx n : NodeIndex} :
    .enqueued n ∈ Event.enqueued idx :: (events ++ history) ↔
      n = idx ∨ .enqueued n ∈ history := by
  rw [List.mem_cons, mem_append_of_not_enqueued h, Event.enqueued.injEq]

section Enqueuing

/-- A visit has enqueued its target, and the counters of the other nodes are as before. -/
structure Enqueues (R : Reactor H) (s : State) (visit : Visit) (t : State) : Prop where
  history : ∀ n, .enqueued n ∈ t.history ↔ n = visit.target ∨ .enqueued n ∈ s.history
  pending_target : t.pending visit.target = 0
  pending_ne : ∀ n, n ≠ visit.target → t.pending n = s.pending n

theorem enqueues_enqueue (R : Reactor H) (s : State) (visit : Visit) (rest : List Visit)
    (hEvents : ∀ n, .enqueued n ∉ events) :
    Enqueues R s visit ((State.setPending
      { s with visits := rest, history := events ++ s.history } visit.target 0).enqueue
        visit.target) where
  history _ := mem_enqueued_cons hEvents
  pending_target := by rw [State.enqueue_pending, State.setPending_pending_self]
  pending_ne n hne := by rw [State.enqueue_pending, State.setPending_pending_ne _ _ hne]

namespace Enqueues

variable {n : NodeIndex}

theorem reached (h : Enqueues R s visit t) (hn : Reached R s concluded cascaded n) :
    Reached R t concluded cascaded n :=
  hn.mono (fun hOld => (h.history n).2 (.inr hOld)) (List.Subset.refl _)

theorem leaders (h : Enqueues R s visit t) (hLeader : ¬ R.IsFollower visit.target)
    (hLeaders : ∀ n, .enqueued n ∈ s.history ∨ n ∈ cascaded → ¬ R.IsFollower n) :
    ∀ n, .enqueued n ∈ t.history ∨ n ∈ cascaded → ¬ R.IsFollower n := by
  rintro n (hNew | hCascaded)
  · obtain rfl | hOld := (h.history n).1 hNew
    · exact hLeader
    · exact hLeaders n (.inl hOld)
  · exact hLeaders n (.inr hCascaded)

theorem reached_target (h : Enqueues R s visit t) (hn : n = visit.target) :
    Reached R t concluded cascaded n :=
  .inl ((h.history n).2 (.inl hn))

theorem positive (h : Enqueues R s visit t)
    (hn : Reached R s concluded cascaded n ∨ 0 < s.pending n) :
    Reached R t concluded cascaded n ∨ 0 < t.pending n := by
  by_cases hne : n = visit.target
  · exact .inl (h.reached_target hne)
  · rw [h.pending_ne n hne]
    exact hn.imp_left h.reached

end Enqueues

end Enqueuing

section Cascading

/-- A visit has skipped its target: nothing waits for the target any more, its successors have been
counted down, and no node has been enqueued. -/
structure Cascades (R : Reactor H) (s : State) (visit : Visit) (t : State) : Prop where
  history : ∀ n, .enqueued n ∈ t.history ↔ .enqueued n ∈ s.history
  pending : ∀ n, t.pending n =
    Function.update s.pending visit.target 0 n - (R.graph.successors visit.target).count n

theorem cascades_cascadeSkip (R : Reactor H) (s : State) (visit : Visit) (rest : List Visit)
    (hEvents : ∀ n, .enqueued n ∉ events) :
    Cascades R s visit (R.cascadeSkip (State.setPending
      { s with visits := rest, history := events ++ s.history } visit.target 0) visit.target) := by
  rw [Reactor.cascadeSkip_eq]
  exact ⟨fun _ => mem_append_of_not_enqueued hEvents, fun _ => rfl⟩

namespace Cascades

variable {n : NodeIndex}

theorem pending_target (h : Cascades R s visit t) : t.pending visit.target = 0 := by
  rw [h.pending, Function.update_self, Nat.zero_sub]

theorem pending_ne (h : Cascades R s visit t) (hne : n ≠ visit.target) :
    t.pending n = s.pending n - (R.graph.successors visit.target).count n := by
  rw [h.pending, Function.update_of_ne hne]

theorem pending_le (h : Cascades R s visit t) (n : NodeIndex) : t.pending n ≤ s.pending n := by
  by_cases hn : n = visit.target
  · rw [hn, h.pending_target]
    exact Nat.zero_le _
  · rw [h.pending_ne hn]
    exact Nat.sub_le _ _

theorem reached (h : Cascades R s visit t) (hn : Reached R s concluded cascaded n) :
    Reached R t concluded (visit.target :: cascaded) n :=
  hn.mono (h.history n).2 (List.subset_cons_self _ _)

theorem reached_target (hn : n = visit.target) :
    Reached R t concluded (visit.target :: cascaded) n :=
  .inr (hn ▸ List.mem_cons_self)

theorem leaders (h : Cascades R s visit t) (hLeader : ¬ R.IsFollower visit.target)
    (hLeaders : ∀ n, .enqueued n ∈ s.history ∨ n ∈ cascaded → ¬ R.IsFollower n) :
    ∀ n, .enqueued n ∈ t.history ∨ n ∈ visit.target :: cascaded → ¬ R.IsFollower n := by
  rintro n (hOld | hIn)
  · exact hLeaders n (.inl ((h.history n).1 hOld))
  · obtain rfl | hIn := List.mem_cons.1 hIn
    · exact hLeader
    · exact hLeaders n (.inr hIn)

/-- A node that still waits for more than the target keeps waiting. -/
theorem positive (h : Cascades R s visit t)
    (hn : Reached R s concluded cascaded n ∨ 0 < s.pending n)
    (hWaits : n ∈ R.graph.successors visit.target →
      s.pending n = 0 ∨ (R.graph.successors visit.target).count n < s.pending n) :
    Reached R t concluded (visit.target :: cascaded) n ∨ 0 < t.pending n := by
  by_cases hne : n = visit.target
  · exact .inl (reached_target hne)
  · obtain hOld | hPos := hn
    · exact .inl (h.reached hOld)
    · rw [h.pending_ne hne]
      by_cases hIn : n ∈ R.graph.successors visit.target
      · have hLess := hWaits hIn
        omega
      · rw [List.count_eq_zero.2 hIn]
        exact .inr hPos

/-- The edges out of the target are not waited for any more. -/
theorem counted (h : Cascades R s visit t) (hne : n ≠ visit.target) {visits : Nat}
    (hCount : s.pending n ≤ openEdges R (resolvedNodes R concluded cascaded) n + visits) :
    t.pending n ≤
      openEdges R (resolvedNodes R concluded (visit.target :: cascaded)) n + visits := by
  have hOpen : openEdges R (resolvedNodes R concluded cascaded) n ≤
      openEdges R (resolvedNodes R concluded (visit.target :: cascaded)) n +
        (R.graph.successors visit.target).count n :=
    openEdges_le_add_count fun p _ hp => (List.mem_cons.1 hp).symm
  rw [h.pending_ne hne]
  omega

/-- The counter of a follower is one at most, so it does not wait for more than the target. -/
theorem follower (h : Cascades R s visit t) (hIn : n ∈ R.graph.successors visit.target)
    (hBound : s.pending n ≤ 1) (hn : Reached R s concluded cascaded n ∨ 0 < s.pending n)
    (hWaits : s.pending n = 0 ∨ (R.graph.successors visit.target).count n < s.pending n) :
    Reached R t concluded (visit.target :: cascaded) n := by
  have hCount := List.count_pos_iff.2 hIn
  refine h.reached (hn.resolve_right ?_)
  omega

end Cascades

end Cascading

namespace Coverage

theorem count_rest (h : Coverage R s concluded cascaded dropped) (hVisits : s.visits = visit :: rest)
    {n : NodeIndex} (hn : n < R.graph.nodes.length) :
    Reached R s concluded cascaded n ∨ n ∈ dropped ∨ R.IsFollower n ∨
      s.pending n ≤ openEdges R (resolvedNodes R concluded cascaded) n +
        (rest.map (·.target)).count n + (if n = visit.target then 1 else 0) := by
  have hWaiting := h.waiting n hn
  rw [hVisits, count_targets] at hWaiting
  exact hWaiting.imp_right fun hWaiting => hWaiting.imp_right fun hWaiting =>
    hWaiting.imp_right fun hWaiting => by omega

/-- A node that is marked as skipped has been reached before, or nothing waits for it. -/
theorem visited_marked (h : Coverage R s concluded cascaded dropped)
    (hVisits : s.visits = visit :: rest) (hTarget : visit.target < R.graph.nodes.length)
    (hHarmless : s.pending visit.target = 0 ∨
      R.graph.inDegree visit.target ≤ 1 ∧ ∀ g ∈ R.graph.successors visit.target, s.pending g = 0) :
    ∃ dropped', Coverage R (R.markSkipped { s with visits := rest } visit.target) concluded cascaded
      dropped' := by
  have hWaiting : ∀ n < R.graph.nodes.length, n ≠ visit.target →
      Reached R s concluded cascaded n ∨ n ∈ dropped ∨ R.IsFollower n ∨
        s.pending n ≤ openEdges R (resolvedNodes R concluded cascaded) n +
          (rest.map (·.target)).count n := by
    intro n hn hne
    have hCount := h.count_rest hVisits hn
    rw [if_neg hne] at hCount
    exact hCount
  obtain hZero | ⟨hDegree, hSuccessors⟩ := hHarmless
  · refine ⟨dropped, { h with waiting := fun n hn => ?_, covered := fun n hn hIn => ?_ }⟩
    · by_cases hne : n = visit.target
      · rw [hne]
        exact .inl (h.reached_of_pending hTarget hZero)
      · exact hWaiting n hn hne
    · exact Covered.insert_skip (h.covered n hn hIn) rfl
  · refine ⟨visit.target :: dropped,
      { h with
        waiting := fun n hn => ?_
        idle := fun n hn => ?_
        covered := fun n hn hIn => ?_ }⟩
    · by_cases hne : n = visit.target
      · exact .inr (.inl (hne ▸ List.mem_cons_self))
      · exact (hWaiting n hn hne).imp_right fun hOld => hOld.imp_left (List.mem_cons_of_mem _)
    · obtain rfl | hOld := List.mem_cons.1 hn
      · refine ⟨hDegree, fun g hArc => h.reached_of_pending hArc.target_lt ?_⟩
        exact hSuccessors g ((mem_successors _).2 hArc)
      · exact h.idle n hOld
    · by_cases hne : n = visit.target
      · refine .inr ⟨skippedMark, ?_, rfl⟩
        rw [hne, Reactor.markSkipped, State.insert_results, AList.lookup_insert]
      · refine Covered.insert_skip (h.covered n hn (hIn.imp_right fun hDropped => ?_)) rfl
        exact (List.mem_cons.1 hDropped).resolve_left hne

theorem visited_counted (h : Coverage R s concluded cascaded dropped)
    (hVisits : s.visits = visit :: rest) (hPending : 1 < s.pending visit.target) :
    Coverage R (State.setPending { s with visits := rest } visit.target (s.pending visit.target - 1))
      concluded cascaded dropped := by
  have hLe : ∀ n, (State.setPending { s with visits := rest } visit.target
      (s.pending visit.target - 1)).pending n ≤ s.pending n :=
    State.setPending_pending_le (Nat.sub_le _ _)
  exact
    { h with
      bounded := fun n => (hLe n).trans (h.bounded n)
      settled := fun n hn => Nat.le_zero.1 ((hLe n).trans (h.settled n hn).le)
      positive := fun n hn => by
        refine (h.positive n hn).imp_right fun hPos => ?_
        by_cases hne : n = visit.target
        · subst hne
          rw [State.setPending_pending_self]
          omega
        · rw [State.setPending_pending_ne _ _ hne]
          exact hPos
      waiting := fun n hn => by
        have hCount := h.count_rest hVisits hn
        refine hCount.imp_right fun hCount => hCount.imp_right fun hCount =>
          hCount.imp_right fun hCount => ?_
        by_cases hne : n = visit.target
        · subst hne
          rw [if_pos rfl] at hCount
          rw [State.setPending_pending_self]
          simp only [State.setPending_visits]
          omega
        · rw [State.setPending_pending_ne _ _ hne]
          rw [if_neg hne] at hCount
          exact hCount }

theorem visited_enqueued (h : Coverage R s concluded cascaded dropped)
    (hVisits : s.visits = visit :: rest) (hLeader : ¬ R.IsFollower visit.target)
    (hEvents : ∀ n, .enqueued n ∉ events) :
    Coverage R ((State.setPending
        { s with visits := rest, history := events ++ s.history } visit.target 0).enqueue
        visit.target) concluded cascaded dropped := by
  have hEnqueues := enqueues_enqueue R s visit rest hEvents
  exact
    { bounded := fun n =>
        (State.setPending_pending_le (Nat.zero_le _) n).trans (h.bounded n)
      settled := fun n hn => by
        by_cases hne : n = visit.target
        · rw [hne]
          exact hEnqueues.pending_target
        · rw [hEnqueues.pending_ne n hne]
          exact h.settled n (hn.imp_left fun hNew => ((hEnqueues.history n).1 hNew).resolve_left hne)
      leaders := hEnqueues.leaders hLeader h.leaders
      located := fun n => by
        rw [State.mem_enqueue_work, or_assoc]
        exact (hEnqueues.history n).trans (or_congr_right (h.located n))
      positive := fun n hn => hEnqueues.positive (h.positive n hn)
      waiting := fun n hn => by
        by_cases hne : n = visit.target
        · exact .inl (hEnqueues.reached_target hne)
        · have hCount := h.count_rest hVisits hn
          rw [if_neg hne] at hCount
          rw [hEnqueues.pending_ne n hne]
          exact hCount.imp_left hEnqueues.reached
      idle := fun n hn =>
        ⟨(h.idle n hn).1, fun g hArc => hEnqueues.reached ((h.idle n hn).2 g hArc)⟩
      closed := fun n hn g hArc hFollower => hEnqueues.reached (h.closed n hn g hArc hFollower)
      covered := fun n hn hIn => by
        refine (h.covered n hn hIn).imp_left fun hExecuted => ?_
        exact List.mem_cons_of_mem _ (List.mem_append_right _ hExecuted) }

/-- The successors of a skipped target keep waiting, or they have been reached. -/
theorem visited_cascaded (hChains : R.ChainsDetected)
    (h : Coverage R s concluded cascaded dropped) (hVisits : s.visits = visit :: rest)
    (hLeader : ¬ R.IsFollower visit.target) (hEvents : ∀ n, .enqueued n ∉ events)
    (hWaits : ∀ g ∈ R.graph.successors visit.target,
      s.pending g = 0 ∨ (R.graph.successors visit.target).count g < s.pending g) :
    Coverage R (R.cascadeSkip (State.setPending
        { s with visits := rest, history := events ++ s.history } visit.target 0) visit.target)
      concluded (visit.target :: cascaded) dropped := by
  have hCascades := cascades_cascadeSkip R s visit rest hEvents
  rw [Reactor.cascadeSkip_eq] at hCascades ⊢
  exact
    { bounded := fun n => (hCascades.pending_le n).trans (h.bounded n)
      settled := fun n hn => by
        by_cases hne : n = visit.target
        · rw [hne]
          exact hCascades.pending_target
        · have hOld : .enqueued n ∈ s.history ∨ n ∈ cascaded :=
            hn.imp (hCascades.history n).1 fun hIn => (List.mem_cons.1 hIn).resolve_left hne
          rw [hCascades.pending_ne hne, h.settled n hOld, Nat.zero_sub]
      leaders := hCascades.leaders hLeader h.leaders
      located := fun n => (hCascades.history n).trans (h.located n)
      positive := fun n hn => hCascades.positive (h.positive n hn) (hWaits n)
      waiting := fun n hn => by
        by_cases hne : n = visit.target
        · exact .inl (Cascades.reached_target hne)
        · have hCount := h.count_rest hVisits hn
          rw [if_neg hne] at hCount
          exact hCount.imp hCascades.reached fun hCount => hCount.imp_right fun hCount =>
            hCount.imp_right (hCascades.counted hne)
      idle := fun n hn =>
        ⟨(h.idle n hn).1, fun g hArc => hCascades.reached ((h.idle n hn).2 g hArc)⟩
      closed := fun n hn g hArc hFollower => by
        obtain rfl | hIn := List.mem_cons.1 hn
        · have hSuccessor := (mem_successors _).2 hArc
          obtain ⟨a, hConsecutive⟩ := hFollower
          have hBound : s.pending g ≤ 1 :=
            (h.bounded g).trans (hConsecutive.linked hChains).2.2.le
          exact hCascades.follower hSuccessor hBound (h.positive g hArc.target_lt)
            (hWaits g hSuccessor)
        · exact hCascades.reached (h.closed n hIn g hArc hFollower)
      covered := fun n hn hIn => by
        by_cases hne : n = visit.target
        · refine .inr ⟨skippedMark, ?_, rfl⟩
          rw [hne]
          exact AList.lookup_insert _
        · have hOld : n ∈ resolvedNodes R concluded cascaded ∨ n ∈ dropped :=
            hIn.imp_left fun hIn => (List.mem_cons.1 hIn).resolve_left hne
          have hCovered : Covered R { s with history := events ++ s.history } n :=
            (h.covered n hn hOld).imp_left fun hExecuted => List.mem_append_right _ hExecuted
          exact hCovered.insert_skip rfl }

theorem visited (hChains : R.ChainsDetected)
    (h : Coverage R s concluded cascaded dropped) (hVisits : s.visits = visit :: rest)
    (hLeader : ¬ R.IsFollower visit.target) (hTarget : visit.target < R.graph.nodes.length)
    (hLoses : visit.LosesNothing R s)
    (hVisit : Reactor.Visited R { s with visits := rest } visit t) :
    ∃ cascaded' dropped', Coverage R t concluded cascaded' dropped' := by
  cases hVisit with
  | marked hMarks =>
      rw [Visit.LosesNothing, if_pos hMarks] at hLoses
      exact ⟨cascaded, h.visited_marked hVisits hTarget hLoses⟩
  | counted hMarks hPending => exact ⟨cascaded, dropped, h.visited_counted hVisits hPending⟩
  | enqueued events hMarks hFills =>
      exact ⟨cascaded, dropped, h.visited_enqueued hVisits hLeader hFills.not_enqueued⟩
  | cascaded events output hMarks hFills hMode hFails =>
      rw [Visit.LosesNothing, if_neg (by simp [hMarks]), hMode] at hLoses
      have hNow : R.fillsNow s visit.target := hFills.fillsNow
      have hCoverage := h.visited_cascaded hChains hVisits hLeader hFills.not_enqueued
        (hLoses.2 hFails hNow)
      exact ⟨visit.target :: cascaded, dropped, hCoverage⟩
  | wrapped output hMarks hChecks hMode hZero hQuota =>
      rw [Visit.LosesNothing, if_neg (by simp [hMarks]), hMode] at hLoses
      simp only at hZero
      simp [hZero, hChecks, hQuota] at hLoses

end Coverage

end TalosWorkflow
