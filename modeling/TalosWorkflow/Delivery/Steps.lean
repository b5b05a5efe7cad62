import TalosWorkflow.Coverage.Visits
import TalosWorkflow.Delivery.Awaited

/-!
# Steps keep a handler awaited
-/

namespace TalosWorkflow

open Multigraph

variable {H : Host} {handler : NodeIndex} {R : Reactor H} {s t base : State}
  {concluded cascaded : List NodeIndex} {visit : Visit} {rest : List Visit} {events : List Event}
  {action : Action}

namespace Awaited

section Visits

theorem count_rest (h : Awaited handler R s concluded cascaded)
    (hVisits : s.visits = visit :: rest) {n : NodeIndex} (hn : R.LeadsTo handler n) :
    Reached R s concluded cascaded n ∨ R.IsFollower n ∨
      s.pending n ≤ openEdges R (resolvedNodes R concluded cascaded) n +
        (rest.map (·.target)).count n + (if n = visit.target then 1 else 0) := by
  have hWaiting := h.waiting n hn
  rw [hVisits, count_targets] at hWaiting
  exact hWaiting.imp_right fun hWaiting => hWaiting.imp_right fun hWaiting => by omega

theorem visited_marked (h : Awaited handler R s concluded cascaded)
    (hVisits : s.visits = visit :: rest)
    (hZero : R.LeadsTo handler visit.target → s.pending visit.target = 0) :
    Awaited handler R (R.markSkipped { s with visits := rest } visit.target) concluded cascaded :=
  { h with
    waiting := fun n hn => by
      have hCount := h.count_rest hVisits hn
      refine hCount.imp_right fun hCount => hCount.imp_right fun hCount => ?_
      by_cases hne : n = visit.target
      · subst hne
        exact (hZero hn).trans_le (Nat.zero_le _)
      · rw [if_neg hne] at hCount
        exact hCount }

theorem visited_counted (h : Awaited handler R s concluded cascaded)
    (hVisits : s.visits = visit :: rest) (hPending : 1 < s.pending visit.target) :
    Awaited handler R
      (State.setPending { s with visits := rest } visit.target (s.pending visit.target - 1))
      concluded cascaded :=
  { h with
    followers := fun n hn =>
      (State.setPending_pending_le (Nat.sub_le _ _) n).trans (h.followers n hn)
    positive := fun n hn => by
      refine (h.positive n hn).imp_right fun hPos => ?_
      by_cases hne : n = visit.target
      · subst hne
        rw [State.setPending_pending_self]
        omega
      · rw [State.setPending_pending_ne _ _ hne]
        exact hPos
    waiting := fun n hn => by
      have hCount := h.count_rest hVisits hn
      refine hCount.imp_right fun hCount => hCount.imp_right fun hCount => ?_
      by_cases hne : n = visit.target
      · subst hne
        rw [if_pos rfl] at hCount
        rw [State.setPending_pending_self]
        simp only [State.setPending_visits]
        omega
      · rw [State.setPending_pending_ne _ _ hne]
        rw [if_neg hne] at hCount
        exact hCount }

theorem visited_enqueued (h : Awaited handler R s concluded cascaded)
    (hVisits : s.visits = visit :: rest) (hLeader : ¬ R.IsFollower visit.target)
    (hEvents : ∀ n, .enqueued n ∉ events) :
    Awaited handler R ((State.setPending
        { s with visits := rest, history := events ++ s.history } visit.target 0).enqueue
        visit.target) concluded cascaded := by
  have hEnqueues := enqueues_enqueue R s visit rest hEvents
  exact
    { h with
      located := fun n => by
        rw [State.mem_enqueue_work, or_assoc]
        exact (hEnqueues.history n).trans (or_congr_right (h.located n))
      leaders := hEnqueues.leaders hLeader h.leaders
      followers := fun n hn =>
        (State.setPending_pending_le (Nat.zero_le _) n).trans (h.followers n hn)
      positive := fun n hn => hEnqueues.positive (h.positive n hn)
      waiting := fun n hn => by
        by_cases hne : n = visit.target
        · exact .inl (hEnqueues.reached_target hne)
        · have hCount := h.count_rest hVisits hn
          rw [if_neg hne] at hCount
          rw [hEnqueues.pending_ne n hne]
          exact hCount.imp_left hEnqueues.reached
      closed := fun n hn g hArc hg hFollower =>
        hEnqueues.reached (h.closed n hn g hArc hg hFollower)
      started := fun hIn => by
        refine mem_startedNodes.2 ((mem_startedNodes.1 (h.started hIn)).imp ?_ ?_)
        · exact fun hOld => List.mem_cons_of_mem _ (List.mem_append_right _ hOld)
        · rintro ⟨members, hOld, hMember⟩
          exact ⟨members, List.mem_cons_of_mem _ (List.mem_append_right _ hOld), hMember⟩ }

/-- The successors of a skipped target keep waiting, or they have been reached. -/
theorem visited_cascaded (hLeaderHandler : ¬ R.IsFollower handler)
    (h : Awaited handler R s concluded cascaded) (hVisits : s.visits = visit :: rest)
    (hLeader : ¬ R.IsFollower visit.target) (hNotHandler : visit.target ≠ handler)
    (hEvents : ∀ n, .enqueued n ∉ events)
    (hWaits : ∀ g ∈ R.graph.successors visit.target, R.LeadsTo handler g →
      s.pending g = 0 ∨ (R.graph.successors visit.target).count g < s.pending g) :
    Awaited handler R (R.cascadeSkip (State.setPending
        { s with visits := rest, history := events ++ s.history } visit.target 0) visit.target)
      concluded (visit.target :: cascaded) := by
  have hCascades := cascades_cascadeSkip R s visit rest hEvents
  rw [Reactor.cascadeSkip_eq] at hCascades ⊢
  exact
    { located := fun n => (hCascades.history n).trans (h.located n)
      leaders := hCascades.leaders hLeader h.leaders
      followers := fun n hn => (hCascades.pending_le n).trans (h.followers n hn)
      own := by
        rw [List.mem_cons]
        rintro (hSame | hIn)
        · exact hNotHandler hSame.symm
        · exact h.own hIn
      positive := fun n hn =>
        hCascades.positive (h.positive n hn) fun hIn => hWaits n hIn hn.to_reflTransGen
      waiting := fun n hn => by
        by_cases hne : n = visit.target
        · exact .inl (Cascades.reached_target hne)
        · have hCount := h.count_rest hVisits hn
          rw [if_neg hne] at hCount
          exact hCount.imp hCascades.reached fun hCount =>
            hCount.imp_right (hCascades.counted hne)
      closed := fun n hn g hArc hg hFollower => by
        obtain rfl | hIn := List.mem_cons.1 hn
        · obtain rfl | hLeads := hg.eq_or_transGen
          · exact absurd hFollower hLeaderHandler
          · have hSuccessor := (mem_successors _).2 hArc
            exact hCascades.follower hSuccessor (h.followers g hFollower) (h.positive g hLeads)
              (hWaits g hSuccessor hg)
        · exact hCascades.reached (h.closed n hIn g hArc hg hFollower)
      started := fun hIn => by
        change handler ∈ startedNodes (events ++ s.history)
        rw [startedNodes_append]
        exact List.mem_append_right _ (h.started hIn) }

/-- A counter that wraps around belongs to a node that has been reached. -/
theorem visited_wrapped (h : Awaited handler R s concluded cascaded)
    (hVisits : s.visits = visit :: rest) (hLeader : ¬ R.IsFollower visit.target)
    (hNotHandler : visit.target ≠ handler) (hZero : s.pending visit.target = 0) :
    Awaited handler R (State.setPending
        (State.log { s with visits := rest } (.underflow visit.target)) visit.target usizeMax)
      concluded cascaded := by
  have hMem : ∀ n, .enqueued n ∈ Event.underflow visit.target :: s.history ↔
      .enqueued n ∈ s.history := by
    simp
  have hReached : ∀ n, Reached R s concluded cascaded n →
      .enqueued n ∈ Event.underflow visit.target :: s.history ∨
        n ∈ resolvedNodes R concluded cascaded :=
    fun n hn => hn.imp_left (hMem n).2
  exact
    { h with
      located := fun n => (hMem n).trans (h.located n)
      leaders := fun n hn => h.leaders n (hn.imp_left (hMem n).1)
      followers := fun n hn => by
        by_cases hne : n = visit.target
        · exact absurd (hne ▸ hn) hLeader
        · rw [State.setPending_pending_ne _ _ hne]
          exact h.followers n hn
      positive := fun n hn => by
        refine (h.positive n hn).imp (hReached n) fun hPos => ?_
        have hne : n ≠ visit.target := by
          rintro rfl
          omega
        rw [State.setPending_pending_ne _ _ hne]
        exact hPos
      waiting := fun n hn => by
        by_cases hne : n = visit.target
        · subst hne
          have hLeads := hn.eq_or_transGen.resolve_left hNotHandler
          refine .inl (hReached _ ((h.positive _ hLeads).resolve_right ?_))
          omega
        · rw [State.setPending_pending_ne _ _ hne]
          have hCount := h.count_rest hVisits hn
          rw [if_neg hne] at hCount
          exact hCount.imp_left (hReached n)
      closed := fun n hn g hArc hg hFollower => hReached g (h.closed n hn g hArc hg hFollower)
      started := fun hIn => by
        change handler ∈ startedNodes ([.underflow visit.target] ++ s.history)
        rw [startedNodes_append]
        exact List.mem_append_right _ (h.started hIn) }

theorem visited (hHandles : R.toParallelWorkflowEngine.OnlyHandles handler)
    (hLeaderHandler : ¬ R.IsFollower handler) (hOrderly : Orderly R s)
    (h : Awaited handler R s concluded cascaded) (hVisits : s.visits = visit :: rest)
    (hKeeps : visit.KeepsWaiting handler R s)
    (hVisit : Reactor.Visited R { s with visits := rest } visit t) :
    ∃ cascaded', Awaited handler R t concluded cascaded' := by
  obtain ⟨hLeader, hArc⟩ := hOrderly.targets visit (hVisits ▸ List.mem_cons_self)
  cases hVisit with
  | marked hMarks =>
      rw [Visit.KeepsWaiting, if_pos hMarks] at hKeeps
      exact ⟨cascaded, h.visited_marked hVisits hKeeps⟩
  | counted hMarks hPending => exact ⟨cascaded, h.visited_counted hVisits hPending⟩
  | enqueued events hMarks hFills =>
      exact ⟨cascaded, h.visited_enqueued hVisits hLeader hFills.not_enqueued⟩
  | cascaded events output hMarks hFills hMode hFails =>
      rw [Visit.KeepsWaiting, if_neg (by simp [hMarks])] at hKeeps
      have hNow : R.fillsNow s visit.target := hFills.fillsNow
      have hAwaited := h.visited_cascaded hLeaderHandler hVisits hLeader
        (hHandles.ne_target hArc hMode hMarks) hFills.not_enqueued (hKeeps output hMode hFails hNow)
      exact ⟨visit.target :: cascaded, hAwaited⟩
  | wrapped output hMarks hChecks hMode hZero =>
      have hAwaited := h.visited_wrapped hVisits hLeader (hHandles.ne_target hArc hMode hMarks) hZero
      exact ⟨cascaded, hAwaited⟩

end Visits

section Completions

theorem skips_handler (hNoSkip : R.skipCondition (R.nodeId handler) = none)
    (hPattern : ∀ pattern, R.kindOf (R.nodeId handler) = some (.errorHandler pattern) →
      R.tryDispatchErrorHandler handler pattern s.results = none) : R.skips s handler = none := by
  have hCheck : R.checkSkipCondition handler s.results = none := by
    rw [ParallelWorkflowEngine.checkSkipCondition, hNoSkip]
  rw [Reactor.skips, hCheck]
  dsimp only
  split
  · rename_i pattern hKind
    exact hPattern pattern hKind
  · rfl

theorem conclude_started (hNoSkip : R.skipCondition (R.nodeId handler) = none)
    (hOrderly : Orderly R s) (hTracked : Tracked s) (hKeeps : KeepsHandler handler R s action)
    {start idx : NodeIndex} {mode : Completion} {value : Json}
    (hConcluding : Concluding R s action start idx base events mode value)
    (hStart : start = handler) : handler ∈ startedNodes (events ++ s.history) := by
  rw [startedNodes_append]
  cases hConcluding with
  | stored _ _ rest _ hBatch =>
      subst hStart
      exact List.mem_append_right _ (hTracked.batched (start, value) (hBatch ▸ List.mem_cons_self))
  | popped _ rest answer _ _ _ _ _ hReady _ hSettles =>
      subst hStart
      obtain ⟨hAdmitted, hPattern⟩ := hKeeps (by rw [hReady]; rfl)
      cases hSettles with
      | skipped _ hSkips =>
          rw [skips_handler hNoSkip hPattern] at hSkips
          cases hSkips
      | refused _ _ _ hAnswer => exact absurd hAnswer hAdmitted
      | handled =>
          refine List.mem_append_left _ (mem_startedNodes.2 (.inl ?_))
          rw [Reactor.handledEvents]
          split
          · simp
          · simp
  | returned position result ran flight _ nodes _ _ _ _ _ hFlight =>
      have hIn := List.mem_of_getElem? hFlight
      have hFlies := hOrderly.flights flight hIn
      refine List.mem_append_right _ (hTracked.flights flight hIn handler ?_)
      cases flight with
      | single => exact List.mem_singleton.2 hStart.symm
      | chain members =>
          obtain ⟨-, head, hHead⟩ := hFlies
          rw [Flight.start, List.headD_eq_head?_getD, hHead, Option.getD_some] at hStart
          exact hStart ▸ List.mem_of_mem_head? hHead

theorem conclude (hNoSkip : R.skipCondition (R.nodeId handler) = none)
    (hChains : R.ChainsDetected) (hOrderly : Orderly R s) (hTracked : Tracked s)
    (h : Awaited handler R s concluded cascaded) (hKeeps : KeepsHandler handler R s action)
    {start idx : NodeIndex} {mode : Completion} {value : Json}
    (hConcluding : Concluding R s action start idx base events mode value) :
    Awaited handler R (R.conclude base idx mode value) (start :: concluded) cascaded := by
  have hShifted := hConcluding.shifted
  have hTail := hConcluding.isTail hOrderly hChains
  have hEnqueued : ∀ n, .enqueued n ∈ (R.conclude base idx mode value).history ↔
      .enqueued n ∈ s.history := fun n => hConcluding.mem_enqueued
  have hReached : ∀ n, Reached R s concluded cascaded n →
      Reached R (R.conclude base idx mode value) (start :: concluded) cascaded n :=
    fun n hn => hn.mono (hEnqueued n).2 resolved_cons_subset
  have hPending := fun n => Reactor.conclude_pending (R := R) base idx mode value n
  simp only [hShifted.pending] at hPending
  constructor
  · intro n
    have hWork : (R.conclude base idx mode value).work = base.work := by simp [State.work]
    rw [hEnqueued, h.located, hShifted.work.mem_iff, hWork, List.mem_append, List.mem_singleton,
      List.mem_cons]
    tauto
  · exact fun n hn => h.leaders n (hn.imp_left (hEnqueued n).1)
  · intro n hn
    obtain hSame | ⟨-, hZero⟩ := hPending n
    · rw [hSame]
      exact h.followers n hn
    · omega
  · exact h.own
  · intro n hn
    obtain hSame | ⟨hIn, -⟩ := hPending n
    · rw [hSame]
      exact (h.positive n hn).imp_left (hReached n)
    · exact .inl (.inr (members_resolved (mem_members_of_chainOf hChains hTail hIn)))
  · intro n hn
    obtain hOld | hFollower | hCount := h.waiting n hn
    · exact .inl (hReached n hOld)
    · exact .inr (.inl hFollower)
    · by_cases hFollower : R.IsFollower n
      · exact .inr (.inl hFollower)
      · refine .inr (.inr ?_)
        have hOpen := openEdges_conclude hChains hTail hFollower concluded cascaded
        rw [conclude_targets]
        rw [hShifted.idle, List.map_nil, List.count_nil, Nat.add_zero] at hCount
        obtain hSame | ⟨-, hZero⟩ := hPending n
        · omega
        · omega
  · exact fun n hn g hArc hg hFollower => hReached g (h.closed n hn g hArc hg hFollower)
  · intro hIn
    rw [Reactor.conclude_history, hShifted.history, startedNodes_cons]
    refine List.mem_append_right _ ?_
    obtain hSame | hOld := List.mem_cons.1 hIn
    · exact conclude_started hNoSkip hOrderly hTracked hKeeps hConcluding hSame.symm
    · rw [startedNodes_append]
      exact List.mem_append_right _ (h.started hOld)

theorem relocate (h : Awaited handler R s concluded cascaded)
    (hRelocating : Relocating R s action t events) : Awaited handler R t concluded cascaded := by
  have hShifted := hRelocating.shifted
  have hReached : ∀ n, Reached R s concluded cascaded n → Reached R t concluded cascaded n :=
    fun n hn => hn.mono hShifted.mem_enqueued.2 (List.Subset.refl _)
  constructor
  · intro n
    rw [hShifted.mem_enqueued, h.located, hShifted.work.mem_iff, List.nil_append]
  · exact fun n hn => h.leaders n (hn.imp_left hShifted.mem_enqueued.1)
  · rw [hShifted.pending]
    exact h.followers
  · exact h.own
  · rw [hShifted.pending]
    exact fun n hn => (h.positive n hn).imp_left (hReached n)
  · rw [hShifted.pending, hShifted.visits, ← hShifted.idle]
    exact fun n hn => (h.waiting n hn).imp_left (hReached n)
  · exact fun n hn g hArc hg hFollower => hReached g (h.closed n hn g hArc hg hFollower)
  · intro hIn
    rw [hShifted.history, startedNodes_append]
    exact List.mem_append_right _ (h.started hIn)

theorem step (hHandles : R.toParallelWorkflowEngine.OnlyHandles handler)
    (hNoSkip : R.skipCondition (R.nodeId handler) = none) (hLeader : ¬ R.IsFollower handler)
    (hChains : R.ChainsDetected) (hOrderly : Orderly R s) (hTracked : Tracked s)
    (h : Awaited handler R s concluded cascaded) (hKeeps : KeepsHandler handler R s action)
    (hStep : R.step s action = some t) (hRunning : t.status = .running) :
    ∃ concluded cascaded, Awaited handler R t concluded cascaded := by
  obtain ⟨-, hStepped⟩ := step_running hStep hRunning
  cases hOrderly.moved hStepped with
  | visited visit rest _ hVisits hVisit =>
      have hVisitKeeps := hKeeps visit (by rw [hVisits]; rfl)
      exact ⟨concluded, h.visited hHandles hLeader hOrderly hVisits hVisitKeeps hVisit⟩
  | concluded _ start idx base events mode value hConcluding =>
      exact ⟨_, _, h.conclude hNoSkip hChains hOrderly hTracked hKeeps hConcluding⟩
  | relocated _ _ events hRelocating => exact ⟨_, _, h.relocate hRelocating⟩
  | paused => cases hRunning

end Completions

end Awaited

section Failures

/-- The failure of a dispatched module is reported for `source`. -/
def Reactor.Fails (R : Reactor H) (s : State) (source : NodeIndex) (t : State) : Prop :=
  ∃ position message ran flight, s.executing[position]? = some flight ∧ flight.last = source ∧
    R.step s (.finish position (.error message) ran) = some t

/-- A visit to another node, or one that marks, is not the one that is about to be counted. -/
theorem due_rest (hVisits : s.visits = visit :: rest)
    (hOther : visit.target ≠ handler ∨ R.marks visit = true)
    (h : ∃ visit ∈ s.visits, visit.target = handler ∧ R.marks visit = false) :
    ∃ visit ∈ rest, visit.target = handler ∧ R.marks visit = false := by
  obtain ⟨other, hIn, hTarget, hMarks⟩ := h
  rw [hVisits, List.mem_cons] at hIn
  obtain rfl | hIn := hIn
  · obtain hne | hMarked := hOther
    · exact absurd hTarget hne
    · rw [hMarks] at hMarked
      cases hMarked
  · exact ⟨other, hIn, hTarget, hMarks⟩

theorem Due.visited (hHandles : R.toParallelWorkflowEngine.OnlyHandles handler)
    (hArc : R.graph.Arc visit.source visit.target) (hVisits : s.visits = visit :: rest)
    (hKeeps : visit.KeepsWaiting handler R s)
    (hVisit : Reactor.Visited R { s with visits := rest } visit t)
    (h : 0 < s.pending handler ∨
      ∃ visit ∈ s.visits, visit.target = handler ∧ R.marks visit = false) :
    Due handler R t := by
  cases hVisit with
  | marked hMarks => exact .inr (h.imp_right fun hDue => due_rest hVisits (.inr hMarks) hDue)
  | counted hMarks hPending =>
      refine .inr ?_
      by_cases hne : visit.target = handler
      · subst hne
        rw [State.setPending_pending_self]
        exact .inl (Nat.sub_pos_of_lt hPending)
      · rw [State.setPending_pending_ne _ _ (Ne.symm hne)]
        exact h.imp_right fun hDue => due_rest hVisits (.inl hne) hDue
  | enqueued events hMarks hFills =>
      by_cases hne : visit.target = handler
      · subst hne
        exact .inl List.mem_cons_self
      · refine .inr ?_
        rw [State.enqueue_pending, State.setPending_pending_ne _ _ (Ne.symm hne)]
        exact h.imp_right fun hDue => due_rest hVisits (.inl hne) hDue
  | cascaded events output hMarks hFills hMode hFails =>
      have hne := hHandles.ne_target hArc hMode hMarks
      rw [Visit.KeepsWaiting, if_neg (by simp [hMarks])] at hKeeps
      have hNow : R.fillsNow s visit.target := hFills.fillsNow
      rw [Reactor.cascadeSkip_eq]
      refine .inr (h.imp (fun hPos => ?_) fun hDue => due_rest hVisits (.inl hne) hDue)
      change 0 < Function.update s.pending visit.target 0 handler - _
      rw [Function.update_of_ne hne.symm]
      by_cases hIn : handler ∈ R.graph.successors visit.target
      · obtain hZero | hLess := hKeeps output hMode hFails hNow handler hIn .refl
        · omega
        · omega
      · rw [List.count_eq_zero.2 hIn]
        exact hPos
  | wrapped output hMarks hChecks hMode =>
      have hne := hHandles.ne_target hArc hMode hMarks
      refine .inr ?_
      rw [State.setPending_pending_ne _ _ hne.symm]
      exact h.imp_right fun hDue => due_rest hVisits (.inl hne) hDue

theorem Due.step (hHandles : R.toParallelWorkflowEngine.OnlyHandles handler)
    (hLeader : ¬ R.IsFollower handler) (hChains : R.ChainsDetected) (hOrderly : Orderly R s)
    (hAwaited : Awaited handler R s concluded cascaded) (hKeeps : KeepsHandler handler R s action)
    (hStep : R.step s action = some t) (hRunning : t.status = .running)
    (h : Due handler R s) : Due handler R t := by
  obtain hEnqueued | hWaits := h
  · exact .inl ((history_suffix hOrderly hStep).subset hEnqueued)
  · have hHistory := history_suffix hOrderly hStep
    obtain ⟨-, hStepped⟩ := step_running hStep hRunning
    cases hOrderly.moved hStepped with
    | visited visit rest _ hVisits hVisit =>
        obtain ⟨-, hArc⟩ := hOrderly.targets visit (hVisits ▸ List.mem_cons_self)
        have hVisitKeeps := hKeeps visit (by rw [hVisits]; rfl)
        exact Due.visited hHandles hArc hVisits hVisitKeeps hVisit hWaits
    | concluded _ start idx base events mode value hConcluding =>
        have hShifted := hConcluding.shifted
        rw [hShifted.idle] at hWaits
        have hPos := hWaits.resolve_right (by simp)
        obtain hSame | ⟨hIn, -⟩ := Reactor.conclude_pending (R := R) base idx mode value handler
        · rw [hShifted.pending] at hSame
          exact .inr (.inl (hSame ▸ hPos))
        · have hTail := hConcluding.isTail hOrderly hChains
          have hMember := mem_members_of_chainOf hChains hTail hIn
          have hStart := hShifted.work.mem_iff.2 List.mem_cons_self
          obtain rfl | hFollower :=
            eq_or_isFollower_of_mem_members (hOrderly.leaders start hStart).1 hMember
          · exact .inl (hHistory.subset ((hAwaited.located handler).2 (.inl hStart)))
          · exact absurd hFollower hLeader
    | relocated _ _ events hRelocating =>
        have hShifted := hRelocating.shifted
        rw [hShifted.idle] at hWaits
        refine .inr (.inl ?_)
        rw [hShifted.pending]
        exact hWaits.resolve_right (by simp)
    | paused => cases hRunning

theorem Due.of_fails (hHandles : R.toParallelWorkflowEngine.OnlyHandles handler)
    (hOrderly : Orderly R s) {source : NodeIndex} (hArc : R.graph.Arc source handler)
    (hFails : R.Fails s source t) (hRunning : t.status = .running) : Due handler R t := by
  obtain ⟨position, message, ran, flight, hFlight, rfl, hStep⟩ := hFails
  obtain ⟨-, hStepped⟩ := step_running hStep hRunning
  generalize hAction : Action.finish position (.error message) ran = action at hStepped
  cases hOrderly.moved hStepped with
  | visited => cases hAction
  | relocated _ _ events hRelocating =>
      subst hAction
      cases hRelocating
  | paused => cases hAction
  | concluded _ start idx base events mode value hConcluding =>
      subst hAction
      cases hConcluding with
      | returned _ _ _ flight' _ nodes _ _ _ _ _ hFlight' hLands hVerdict =>
          rw [hFlight] at hFlight'
          cases hFlight'
          have hIdx := hLands.eq_last
          have hRoutes : R.errorChildren idx ≠ [] := by
            refine List.ne_nil_of_mem (a := handler) (List.mem_filter.2 ⟨?_, ?_⟩)
            · rw [hIdx]
              exact (mem_successors _).2 hArc
            · rw [hIdx]
              cases hEdge : R.graph.findEdge flight.last handler with
              | none =>
                  rw [findEdge, List.head?_eq_none_iff] at hEdge
                  exact absurd hEdge (arc_iff_edgesConnecting.1 hArc)
              | some e =>
                  obtain ⟨he, -, hTarget⟩ :=
                    (mem_edgesConnecting _).1 (List.mem_of_mem_head? hEdge)
                  exact hHandles e he hTarget
          rw [Reactor.resultVerdict, Reactor.failureVerdict, if_pos hRoutes] at hVerdict
          cases hVerdict
          refine .inr (.inr ⟨⟨.routes, idx, handler⟩, ?_, rfl, ?_⟩)
          · rw [Reactor.conclude_visits, List.mem_map]
            exact ⟨handler, (mem_successors _).2 (hIdx ▸ hArc), rfl⟩
          · rw [Reactor.marks]
            simp only [Bool.not_eq_false']
            exact hHandles.hasErrorEdge (hIdx ▸ hArc)

end Failures

end TalosWorkflow
