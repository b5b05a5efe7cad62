import TalosWorkflow.Ledger.Counting

/-!
# The counter ledger

The invariant that ties every pending counter to the incoming edges that are
still to be counted.
-/

namespace TalosWorkflow

open Multigraph

variable {H : Host}

/-- What the history of a run tells about its queues. -/
structure Chronicle (s : State) (concluded : List NodeIndex) : Prop where
  enqueuedOnce : (enqueuedNodes s.history).Nodup
  located : (enqueuedNodes s.history).Perm (s.work ++ concluded)
  dispatchedOnce : (dispatchedNodes s.history).Nodup
  dispatchedEnqueued : ∀ n ∈ dispatchedNodes s.history, .enqueued n ∈ s.history ∧ n ∉ s.ready
  aggregatedDispatched : (aggregatedNodes s.history).Sublist (dispatchedNodes s.history)
  noUnderflow : ∀ n, .underflow n ∉ s.history

structure Ledger (R : Reactor H) (s : State) (concluded cascaded : List NodeIndex) : Prop
    extends Chronicle s concluded where
  counted : ∀ n, R.joinsEarly n = true ∧ s.pending n = 0 ∨
    openEdges R (resolvedNodes R concluded cascaded) n + (s.visits.map (·.target)).count n ≤
      s.pending n
  bounded : ∀ n, s.pending n ≤ R.graph.inDegree n
  settled : ∀ n, .enqueued n ∈ s.history ∨ n ∈ cascaded → s.pending n = 0
  cascadedFresh : ∀ n ∈ cascaded, .enqueued n ∉ s.history
  leaders : ∀ n, .enqueued n ∈ s.history ∨ n ∈ cascaded → ¬ R.IsFollower n
  recorded : ∀ n, n ∈ cascaded ∨ (∃ start ∈ concluded, R.IsTail start n) →
    (s.results.lookup (R.nodeId n)).isSome = true
  releasedOnce : (releasedNodes s.history).Nodup
  releasedResolved : releasedNodes s.history ⊆ resolvedNodes R concluded cascaded

variable {R : Reactor H} {s base : State} {concluded cascaded : List NodeIndex}

namespace Chronicle

theorem work_nodup (h : Chronicle s concluded) : (s.work ++ concluded).Nodup :=
  h.located.nodup_iff.1 h.enqueuedOnce

theorem ready_nodup (h : Chronicle s concluded) : s.ready.Nodup :=
  (List.nodup_append.1 (List.nodup_append.1 (List.nodup_append.1 h.work_nodup).1).2.1).1

theorem concluded_enqueued (h : Chronicle s concluded) {n : NodeIndex} (hn : n ∈ concluded) :
    .enqueued n ∈ s.history := by
  rw [← mem_enqueuedNodes, h.located.mem_iff]
  exact List.mem_append_right _ hn

theorem work_enqueued (h : Chronicle s concluded) {n : NodeIndex} (hn : n ∈ s.work) :
    .enqueued n ∈ s.history := by
  rw [← mem_enqueuedNodes, h.located.mem_iff]
  exact List.mem_append_left _ hn

theorem ready_enqueued (h : Chronicle s concluded) {n : NodeIndex} (hn : n ∈ s.ready) :
    .enqueued n ∈ s.history := by
  apply h.work_enqueued
  exact List.mem_append_right _ (List.mem_append_left _ hn)

theorem shifted (h : Chronicle s concluded) {done : List NodeIndex} {events : List Event}
    (hShifted : Shifted s base done events) : Chronicle base (done ++ concluded) := by
  have hEnqueued : enqueuedNodes base.history = enqueuedNodes s.history := by
    rw [hShifted.history, enqueuedNodes_append, hShifted.quiet.enqueued, List.nil_append]
  obtain ⟨moved, hPerm, hSub⟩ := hShifted.ready
  have hMoved : (dispatchedNodes events ++ base.ready).Nodup :=
    hPerm.nodup_iff.1 (h.ready_nodup.sublist hSub)
  have hReady : ∀ n ∈ dispatchedNodes events ++ base.ready, n ∈ s.ready :=
    fun n hn => hSub.subset (hPerm.mem_iff.2 hn)
  obtain ⟨hOnce, -, hDisjoint⟩ := List.nodup_append.1 hMoved
  exact
    { enqueuedOnce := hEnqueued ▸ h.enqueuedOnce
      located := by
        rw [hEnqueued]
        refine h.located.trans ((hShifted.work.append_right concluded).trans ?_)
        rw [List.append_assoc, ← List.append_assoc, ← List.append_assoc]
        exact List.perm_append_comm.append_right concluded
      dispatchedOnce := by
        rw [hShifted.history, dispatchedNodes_append, List.nodup_append]
        refine ⟨hOnce, h.dispatchedOnce, ?_⟩
        rintro a ha b hb rfl
        exact (h.dispatchedEnqueued a hb).2 (hReady a (List.mem_append_left _ ha))
      dispatchedEnqueued := fun n hn => by
        rw [hShifted.history, dispatchedNodes_append] at hn
        rw [hShifted.mem_enqueued]
        rcases List.mem_append.1 hn with hn | hn
        · exact ⟨h.ready_enqueued (hReady n (List.mem_append_left _ hn)),
            fun hIn => hDisjoint n hn n hIn rfl⟩
        · obtain ⟨hOld, hOut⟩ := h.dispatchedEnqueued n hn
          exact ⟨hOld, fun hIn => hOut (hReady n (List.mem_append_right _ hIn))⟩
      aggregatedDispatched := by
        rw [hShifted.history, aggregatedNodes_append, dispatchedNodes_append]
        exact hShifted.aggregated.append h.aggregatedDispatched
      noUnderflow := fun n => by
        rw [hShifted.history]
        exact hShifted.quiet.not_mem_underflow (h.noUnderflow n) }

theorem conclude (h : Chronicle base concluded) (idx : NodeIndex) (mode : Completion)
    (value : Json) : Chronicle (R.conclude base idx mode value) concluded := by
  have hWork : (R.conclude base idx mode value).work = base.work := by
    simp [State.work]
  have hHistory : (R.conclude base idx mode value).history = .released idx :: base.history :=
    Reactor.conclude_history base idx mode value
  exact
    { enqueuedOnce := hHistory ▸ h.enqueuedOnce
      located := by
        rw [hHistory, hWork]
        exact h.located
      dispatchedOnce := hHistory ▸ h.dispatchedOnce
      dispatchedEnqueued := fun n hn => by
        rw [hHistory] at hn ⊢
        rw [Reactor.conclude_ready]
        obtain ⟨hEnqueued, hOut⟩ := h.dispatchedEnqueued n hn
        exact ⟨List.mem_cons_of_mem _ hEnqueued, hOut⟩
      aggregatedDispatched := hHistory ▸ h.aggregatedDispatched
      noUnderflow := fun n hn => by
        rw [hHistory] at hn
        rcases List.mem_cons.1 hn with hn | hn
        · cases hn
        · exact h.noUnderflow n hn }

theorem initial (initialResults : Table Json) : Chronicle (R.initialState initialResults) [] := by
  have hEnqueued : enqueuedNodes (R.initialState initialResults).history =
      (R.initialState initialResults).ready.reverse := by
    simp only [Reactor.initialState, enqueuedNodes, List.filterMap_map, Function.comp_def,
      List.filterMap_some]
  have hDispatched : dispatchedNodes (R.initialState initialResults).history = [] := by
    simp [Reactor.initialState, dispatchedNodes, List.filterMap_map]
  have hAggregated : aggregatedNodes (R.initialState initialResults).history = [] := by
    simp [Reactor.initialState, aggregatedNodes, List.filterMap_map]
  constructor
  · rw [hEnqueued, List.nodup_reverse]
    exact R.graph.nodeIndices_nodup.filter _
  · rw [hEnqueued]
    simp only [State.work, Reactor.initialState, List.map_nil, List.nil_append, List.append_nil]
    exact List.reverse_perm _
  · rw [hDispatched]
    exact List.nodup_nil
  · rw [hDispatched]
    exact fun n hn => absurd hn List.not_mem_nil
  · rw [hAggregated]
    exact List.nil_sublist _
  · simp [Reactor.initialState]

end Chronicle

namespace Ledger

/-- What is resolved is not counted again, unless it follows in a chain. -/
theorem pending_eq_zero_of_resolved (h : Ledger R s concluded cascaded) {n : NodeIndex}
    (hn : n ∈ resolvedNodes R concluded cascaded) (hFollower : ¬ R.IsFollower n) :
    s.pending n = 0 := by
  rcases List.mem_append.1 hn with hn | hn
  · exact h.settled n (.inr hn)
  · obtain ⟨start, hStart, hMember⟩ := List.mem_flatMap.1 hn
    have hEnqueued := h.concluded_enqueued hStart
    rcases eq_or_isFollower_of_mem_members (h.leaders start (.inl hEnqueued)) hMember with rfl | hn
    · exact h.settled n (.inl hEnqueued)
    · exact absurd hn hFollower

theorem predecessors_resolved (h : Ledger R s concluded cascaded) {n : NodeIndex}
    (hn : s.pending n = 0) (hFanIn : R.joinsEarly n = false) {p : NodeIndex}
    (hArc : R.graph.Arc p n) : p ∈ resolvedNodes R concluded cascaded := by
  rcases h.counted n with ⟨hIs, -⟩ | hCount
  · rw [hFanIn] at hIs
    cases hIs
  · have hZero : openEdges R (resolvedNodes R concluded cascaded) n = 0 := by omega
    exact openEdges_eq_zero.1 hZero p hArc

/-- Of the resolved nodes only inner members of chains may be without a result. -/
theorem recorded_or_isInner (h : Ledger R s concluded cascaded) {n : NodeIndex}
    (hn : n ∈ resolvedNodes R concluded cascaded) :
    (s.results.lookup (R.nodeId n)).isSome = true ∨ R.IsInner n := by
  obtain hn | hn := List.mem_append.1 hn
  · exact .inl (h.recorded n (.inl hn))
  · obtain ⟨start, hStart, hMember⟩ := List.mem_flatMap.1 hn
    obtain ⟨idx, hTail⟩ := exists_isTail (R := R) start
    obtain rfl | hInner := hTail.eq_or_isInner hMember
    · exact .inl (h.recorded n (.inr ⟨start, hStart, hTail⟩))
    · exact .inr hInner

theorem pending_pos (h : Ledger R s concluded cascaded) {visit : Visit} {rest : List Visit}
    (hVisits : s.visits = visit :: rest)
    (hFanIn : R.joinsEarly visit.target = true → 0 < s.pending visit.target) :
    0 < s.pending visit.target := by
  rcases h.counted visit.target with ⟨hIs, -⟩ | hCount
  · exact hFanIn hIs
  · rw [hVisits, List.map_cons, List.count_cons_self] at hCount
    omega

end Ledger

end TalosWorkflow
