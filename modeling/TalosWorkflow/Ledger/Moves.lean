import TalosWorkflow.Ledger.Visits

/-!
# Completions and pops keep the ledger
-/

namespace TalosWorkflow

open Multigraph

variable {H : Host} {R : Reactor H} {s t base : State}

namespace Ledger

variable {concluded cascaded : List NodeIndex} {action : Action} {start idx : NodeIndex}
  {events : List Event} {mode : Completion} {value : Json}

theorem not_mem_resolved (hChains : R.ChainsDetected) (h : Ledger R s concluded cascaded)
    (hStart : start ∈ s.work) (hIdx : idx ∈ R.members start) :
    idx ∉ resolvedNodes R concluded cascaded := by
  have hEnqueued := h.work_enqueued hStart
  have hLeader := h.leaders start (.inl hEnqueued)
  intro hMem
  rcases List.mem_append.1 hMem with hCascaded | hConcluded
  · rcases eq_or_isFollower_of_mem_members hLeader hIdx with rfl | hFollower
    · exact h.cascadedFresh _ hCascaded hEnqueued
    · exact h.leaders idx (.inr hCascaded) hFollower
  · obtain ⟨other, hOther, hIdx'⟩ := List.mem_flatMap.1 hConcluded
    have hSame : start = other :=
      eq_of_mem_members hChains hLeader
        (h.leaders other (.inl (h.concluded_enqueued hOther))) hIdx hIdx'
    subst hSame
    exact (List.nodup_append.1 h.work_nodup).2.2 start hStart start hOther rfl

/-- The edges into a member of a completed chain have been counted or lie inside the chain. -/
theorem member_closed (hChains : R.ChainsDetected) (h : Ledger R s concluded cascaded)
    (hStart : start ∈ s.work) {n : NodeIndex}
    (hChain : R.chainOf start ≠ none) (hn : n ∈ R.members start) :
    openEdges R (resolvedNodes R (start :: concluded) cascaded) n = 0 := by
  have hEnqueued := h.work_enqueued hStart
  rw [openEdges_eq_zero]
  intro p hArc
  rcases eq_or_isFollower_of_mem_members (h.leaders start (.inl hEnqueued)) hn with rfl | hFollower
  · refine resolved_cons_subset (h.predecessors_resolved (h.settled n (.inl hEnqueued)) ?_ hArc)
    rw [Bool.eq_false_iff]
    exact fun hJoins =>
      hChain (chainOf_eq_none_of_isFanIn hChains (Reactor.isFanIn_of_joinsEarly hJoins))
  · obtain ⟨a, hConsecutive⟩ := hFollower
    obtain ⟨chain, hMembers, i, _, hi, rfl, rfl⟩ := Reactor.consecutive_iff.1 hConsecutive
    have hLinked := chain_getElem_linked (hChains chain hMembers).1 hi
    rw [R.graph.eq_of_inDegree_one hLinked.2.2 hArc hLinked.1]
    apply members_resolved
    have hSame := chainOf_members hChains hn
    rw [chainOf_of_mem hChains hMembers (List.getElem_mem hi)] at hSame
    rw [Reactor.members, ← hSame, Option.getD_some]
    exact List.getElem_mem (by omega)

/-- Storing a result and beginning the visits of its node keeps the ledger. -/
theorem conclude (hAcyclic : R.graph.Acyclic) (hChains : R.ChainsDetected) (hOrderly : Orderly R s)
    (h : Ledger R s concluded cascaded)
    (hConcluding : Concluding R s action start idx base events mode value) :
    Ledger R (R.conclude base idx mode value) (start :: concluded) cascaded := by
  have hShifted := hConcluding.shifted
  have hTail := hConcluding.isTail hOrderly hChains
  have hStart : start ∈ s.work := hShifted.work.mem_iff.2 List.mem_cons_self
  have hUnresolved := h.not_mem_resolved hChains hStart hTail.mem_members
  have hOpen := openEdges_add_count R resolved_cons_subset (members_resolved hTail.mem_members)
    hUnresolved
  have hEnqueued : ∀ n, .enqueued n ∈ (R.conclude base idx mode value).history ↔
      .enqueued n ∈ s.history := fun n => hConcluding.mem_enqueued
  have hReleased : releasedNodes (R.conclude base idx mode value).history =
      idx :: releasedNodes s.history := by
    rw [Reactor.conclude_history, hShifted.history, ← List.singleton_append,
      releasedNodes_append, releasedNodes_append, hShifted.quiet.released]
    rfl
  have hPending := fun n => Reactor.conclude_pending (R := R) base idx mode value n
  simp only [hShifted.pending] at hPending
  refine
    { (h.toChronicle.shifted hShifted).conclude (R := R) idx mode value with
      counted := fun n => ?_
      bounded := fun n => ?_
      settled := fun n hn => ?_
      cascadedFresh := fun n hn hNew => h.cascadedFresh n hn ((hEnqueued n).1 hNew)
      leaders := fun n hn => h.leaders n (hn.imp_left (hEnqueued n).1)
      recorded := fun n hn => ?_
      releasedOnce := ?_
      releasedResolved := ?_ }
  · have hOld := h.counted n
    have hOpenN := hOpen n
    rw [conclude_targets]
    rw [hShifted.idle, List.map_nil, List.count_nil, Nat.add_zero] at hOld
    rcases hPending n with hSame | ⟨hn, hZero⟩
    · rw [hSame]
      exact hOld.imp_right fun hOld => by omega
    · have hMember := mem_members_of_chainOf hChains hTail hn
      have hChain : R.chainOf start ≠ none := by
        intro hNone
        rw [chainOf_members hChains hTail.mem_members, hNone] at hn
        exact absurd hn List.not_mem_nil
      have hCount : (R.graph.successors idx).count n = 0 := by
        rw [List.count_eq_zero, mem_successors]
        exact hTail.not_arc hAcyclic hChains hMember
      have hClosed := h.member_closed hChains hStart hChain hMember
      refine .inr ?_
      omega
  · rcases hPending n with hSame | ⟨-, hZero⟩
    · rw [hSame]
      exact h.bounded n
    · rw [hZero]
      exact Nat.zero_le _
  · rcases hPending n with hSame | ⟨-, hZero⟩
    · rw [hSame]
      exact h.settled n (hn.imp_left (hEnqueued n).1)
    · exact hZero
  · rw [Reactor.conclude_results, hShifted.results]
    obtain hn | ⟨other, hOther, hEnds⟩ := hn
    · exact h.recorded_insert _ _ n (.inl hn)
    · obtain rfl | hOther := List.mem_cons.1 hOther
      · rw [hEnds.unique hTail, AList.lookup_insert]
        rfl
      · exact h.recorded_insert _ _ n (.inr ⟨other, hOther, hEnds⟩)
  · rw [hReleased]
    exact List.nodup_cons.2 ⟨fun hMem => hUnresolved (h.releasedResolved hMem), h.releasedOnce⟩
  · rw [hReleased]
    exact List.cons_subset.2 ⟨members_resolved hTail.mem_members,
      fun n hn => resolved_cons_subset (h.releasedResolved hn)⟩

theorem relocate (h : Ledger R s concluded cascaded)
    (hRelocating : Relocating R s action t events) : Ledger R t concluded cascaded := by
  have hShifted := hRelocating.shifted
  have hReleased : releasedNodes t.history = releasedNodes s.history := by
    rw [hShifted.history, releasedNodes_append, hShifted.quiet.released, List.nil_append]
  exact
    { h.toChronicle.shifted hShifted with
      counted := by
        rw [hShifted.pending, hShifted.visits, ← hShifted.idle]
        exact h.counted
      bounded := by
        rw [hShifted.pending]
        exact h.bounded
      settled := fun n hn => by
        rw [hShifted.pending]
        exact h.settled n (hn.imp_left hShifted.mem_enqueued.1)
      cascadedFresh := fun n hn hNew => h.cascadedFresh n hn (hShifted.mem_enqueued.1 hNew)
      leaders := fun n hn => h.leaders n (hn.imp_left hShifted.mem_enqueued.1)
      recorded := by
        rw [hShifted.results]
        exact h.recorded
      releasedOnce := hReleased ▸ h.releasedOnce
      releasedResolved := hReleased ▸ h.releasedResolved }

end Ledger

end TalosWorkflow
