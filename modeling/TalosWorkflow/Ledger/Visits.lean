import TalosWorkflow.Ledger.Invariant

/-!
# Visits keep the ledger
-/

namespace TalosWorkflow

open Multigraph

variable {H : Host} {R : Reactor H} {s t : State}

theorem isSome_lookup_insert {results : Table Json} {id id' : Uuid} {value : Json}
    (h : (results.lookup id').isSome = true) :
    ((results.insert id value).lookup id').isSome = true := by
  by_cases hId : id' = id
  · rw [hId, AList.lookup_insert]
    rfl
  · rwa [AList.lookup_insert_ne hId]

namespace Ledger

variable {concluded cascaded : List NodeIndex} {visit : Visit} {rest : List Visit}

theorem recorded_insert (h : Ledger R s concluded cascaded) (id : Uuid) (value : Json) :
    ∀ n, n ∈ cascaded ∨ (∃ start ∈ concluded, R.IsTail start n) →
      ((s.results.insert id value).lookup (R.nodeId n)).isSome = true :=
  fun n hn => isSome_lookup_insert (h.recorded n hn)

theorem count_rest (h : Ledger R s concluded cascaded) (hVisits : s.visits = visit :: rest)
    (n : NodeIndex) : R.joinsEarly n = true ∧ s.pending n = 0 ∨
      openEdges R (resolvedNodes R concluded cascaded) n + (rest.map (·.target)).count n +
        (if n = visit.target then 1 else 0) ≤ s.pending n := by
  have hCounted := h.counted n
  rw [hVisits, count_targets] at hCounted
  exact hCounted.imp_right fun hCount => by omega

theorem visited_marked (h : Ledger R s concluded cascaded) (hVisits : s.visits = visit :: rest) :
    Ledger R (R.markSkipped { s with visits := rest } visit.target) concluded cascaded :=
  { h with
    counted := fun n => by
      have hCount := h.count_rest hVisits n
      simp only [Reactor.markSkipped, State.insert_pending, State.insert_visits]
      exact hCount.imp_right fun hCount => by omega
    recorded := h.recorded_insert _ _ }

theorem visited_counted (h : Ledger R s concluded cascaded) (hVisits : s.visits = visit :: rest)
    (hPending : 1 < s.pending visit.target) :
    Ledger R (State.setPending { s with visits := rest } visit.target (s.pending visit.target - 1))
      concluded cascaded := by
  have hLe : ∀ n, (State.setPending { s with visits := rest } visit.target
      (s.pending visit.target - 1)).pending n ≤ s.pending n :=
    State.setPending_pending_le (Nat.sub_le _ _)
  exact
    { h with
      counted := fun n => by
        have hCount := h.count_rest hVisits n
        by_cases hn : n = visit.target
        · subst hn
          simp only [State.setPending_pending_self, State.setPending_visits]
          simp only [if_true] at hCount
          omega
        · rw [State.setPending_pending_ne _ _ hn]
          simp only [if_neg hn] at hCount
          exact hCount
      bounded := fun n => (hLe n).trans (h.bounded n)
      settled := fun n hn => Nat.le_zero.1 ((hLe n).trans (h.settled n hn).le) }

theorem visited_enqueued (h : Ledger R s concluded cascaded) (hVisits : s.visits = visit :: rest)
    (hLeader : ¬ R.IsFollower visit.target)
    (hReady : s.pending visit.target ≤ 1 ∨ R.joinsEarly visit.target = true)
    (hPos : 0 < s.pending visit.target) :
    Ledger R ((State.setPending { s with visits := rest } visit.target 0).enqueue visit.target)
      concluded cascaded := by
  have hNew : .enqueued visit.target ∉ s.history := by
    intro hEnqueued
    have := h.settled _ (.inl hEnqueued)
    omega
  have hNotCascaded : visit.target ∉ cascaded := by
    intro hCascaded
    have := h.settled _ (.inr hCascaded)
    omega
  have hMem : ∀ n, .enqueued n ∈ Event.enqueued visit.target :: s.history ↔
      n = visit.target ∨ .enqueued n ∈ s.history := by
    intro n
    simp
  exact
    { h with
      counted := fun n => by
        have hCount := h.count_rest hVisits n
        by_cases hn : n = visit.target
        · subst hn
          simp only [State.enqueue_pending, State.setPending_pending_self]
          simp only [if_true] at hCount
          rcases hReady with hReady | hFanIn
          · refine .inr ?_
            simp only [State.enqueue_visits, State.setPending_visits]
            omega
          · exact .inl ⟨hFanIn, trivial⟩
        · simp only [State.enqueue_pending]
          rw [State.setPending_pending_ne _ _ hn]
          simp only [if_neg hn] at hCount
          exact hCount
      bounded := fun n =>
        (State.setPending_pending_le (Nat.zero_le _) n).trans (h.bounded n)
      settled := fun n hn => by
        simp only [State.enqueue_pending]
        by_cases hne : n = visit.target
        · subst hne
          exact State.setPending_pending_self _ _ _
        · rw [State.setPending_pending_ne _ _ hne]
          refine h.settled n (hn.imp_left fun hEnqueued => ?_)
          exact ((hMem n).1 hEnqueued).resolve_left hne
      enqueuedOnce := by
        have hNotMem : visit.target ∉ enqueuedNodes s.history := by
          rwa [mem_enqueuedNodes]
        exact List.nodup_cons.2 ⟨hNotMem, h.enqueuedOnce⟩
      cascadedFresh := fun n hn hEnqueued => by
        rcases (hMem n).1 hEnqueued with rfl | hOld
        · exact hNotCascaded hn
        · exact h.cascadedFresh n hn hOld
      located := by
        refine (h.located.cons visit.target).trans ?_
        exact (State.enqueue_work _ visit.target).symm.append_right concluded
      leaders := fun n hn => by
        rcases hn with hn | hn
        · rcases (hMem n).1 hn with rfl | hOld
          · exact hLeader
          · exact h.leaders n (.inl hOld)
        · exact h.leaders n (.inr hn)
      dispatchedEnqueued := fun n hn => by
        obtain ⟨hOld, hReadyOld⟩ := h.dispatchedEnqueued n hn
        refine ⟨(hMem n).2 (.inr hOld), ?_⟩
        simp only [State.enqueue_ready, State.setPending_ready, List.mem_append,
          List.mem_singleton, not_or]
        exact ⟨hReadyOld, fun hn => hNew (hn ▸ hOld)⟩
      noUnderflow := fun n hn => h.noUnderflow n (by simpa using hn) }

theorem visited_cascaded (hAcyclic : R.graph.Acyclic) (h : Ledger R s concluded cascaded)
    (hVisits : s.visits = visit :: rest) (hLeader : ¬ R.IsFollower visit.target)
    (hReady : s.pending visit.target ≤ 1 ∨ R.joinsEarly visit.target = true)
    (hPos : 0 < s.pending visit.target) :
    Ledger R (R.cascadeSkip (State.setPending { s with visits := rest } visit.target 0) visit.target)
      concluded (visit.target :: cascaded) := by
  have hLe := R.cascadeSkip_pending_le { s with visits := rest } visit.target
  rw [Reactor.cascadeSkip_eq] at hLe ⊢
  have hUnresolved : visit.target ∉ resolvedNodes R concluded cascaded := by
    intro hResolved
    have := h.pending_eq_zero_of_resolved hResolved hLeader
    omega
  have hNew : .enqueued visit.target ∉ s.history := by
    intro hEnqueued
    have := h.settled _ (.inl hEnqueued)
    omega
  have hOpen := openEdges_add_count R (List.subset_cons_self visit.target _) List.mem_cons_self
    hUnresolved
  have hSelf : (R.graph.successors visit.target).count visit.target = 0 := by
    rw [List.count_eq_zero, mem_successors]
    exact hAcyclic.not_arc_self _
  exact
    { h with
      counted := fun n => by
        have hCount := h.count_rest hVisits n
        have hOpenN := hOpen n
        change R.joinsEarly n = true ∧ Function.update s.pending visit.target 0 n - _ = 0 ∨
          openEdges R (visit.target :: resolvedNodes R concluded cascaded) n +
              (rest.map (·.target)).count n ≤
            Function.update s.pending visit.target 0 n - _
        by_cases hn : n = visit.target
        · subst hn
          simp only [Function.update_self]
          simp only [if_true] at hCount
          rcases hReady with hReady | hFanIn
          · refine .inr ?_
            omega
          · exact .inl ⟨hFanIn, by omega⟩
        · rw [Function.update_of_ne hn]
          simp only [if_neg hn] at hCount
          rcases hCount with ⟨hFanIn, hZero⟩ | hCount
          · exact .inl ⟨hFanIn, by omega⟩
          · refine .inr ?_
            omega
      bounded := fun n => (hLe n).trans (h.bounded n)
      settled := fun n hn => by
        change Function.update s.pending visit.target 0 n - _ = 0
        by_cases hne : n = visit.target
        · subst hne
          rw [Function.update_self, Nat.zero_sub]
        · rw [Function.update_of_ne hne,
            h.settled n (hn.imp_right fun hn => (List.mem_cons.1 hn).resolve_left hne),
            Nat.zero_sub]
      cascadedFresh := fun n hn => by
        rcases List.mem_cons.1 hn with rfl | hn
        · exact hNew
        · exact h.cascadedFresh n hn
      leaders := fun n hn => by
        rcases hn with hn | hn
        · exact h.leaders n (.inl hn)
        · rcases List.mem_cons.1 hn with rfl | hn
          · exact hLeader
          · exact h.leaders n (.inr hn)
      recorded := fun n hn => by
        by_cases hne : n = visit.target
        · change ((s.results.insert _ skippedMark).lookup _).isSome = true
          rw [hne, AList.lookup_insert]
          rfl
        · refine h.recorded_insert _ _ n (hn.imp_left fun hn => ?_)
          exact (List.mem_cons.1 hn).resolve_left hne
      releasedResolved := fun n hn => List.mem_cons_of_mem _ (h.releasedResolved hn) }

/-- Each counted edge finds a counter above zero, so a visit keeps the ledger. -/
theorem visited (hAcyclic : R.graph.Acyclic) (h : Ledger R s concluded cascaded)
    (hVisits : s.visits = visit :: rest) (hLeader : ¬ R.IsFollower visit.target)
    (hPos : R.marks visit = false → 0 < s.pending visit.target)
    (hVisit : Reactor.Visited R { s with visits := rest } visit t) :
    ∃ cascaded', Ledger R t concluded cascaded' := by
  have hFilled : ∀ events, R.marks visit = false →
      Reactor.Fills R { s with visits := rest } visit.target events →
      events = [] ∧ (s.pending visit.target ≤ 1 ∨ R.joinsEarly visit.target = true) := by
    intro events hMarks hFills
    cases hFills with
    | filled hReady => exact ⟨rfl, hReady.imp_right Reactor.joinsEarly_of_quotaMet⟩
    | wrapped _ hZero => exact absurd hZero (hPos hMarks).ne'
  cases hVisit with
  | marked => exact ⟨cascaded, h.visited_marked hVisits⟩
  | counted hMarks hPending => exact ⟨cascaded, h.visited_counted hVisits hPending⟩
  | enqueued events hMarks hFills =>
      obtain ⟨rfl, hReady⟩ := hFilled events hMarks hFills
      have hLedger := h.visited_enqueued hVisits hLeader hReady (hPos hMarks)
      exact ⟨cascaded, hLedger⟩
  | cascaded events output hMarks hFills =>
      obtain ⟨rfl, hReady⟩ := hFilled events hMarks hFills
      have hLedger := h.visited_cascaded hAcyclic hVisits hLeader hReady (hPos hMarks)
      exact ⟨visit.target :: cascaded, hLedger⟩
  | wrapped output hMarks _ _ hZero => exact absurd hZero (hPos hMarks).ne'

end Ledger

end TalosWorkflow
