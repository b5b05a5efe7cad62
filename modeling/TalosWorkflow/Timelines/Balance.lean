import TalosWorkflow.Timelines.Causality

/-!
# Starts and ends balance

Every start that is written for a module outside the chains has one end, now
or when its future returns.
-/

namespace TalosWorkflow

open Multigraph

variable {H : Host} {R : Reactor H} {s t : State} {n : NodeIndex} {timed : TimedAction}

/-- The futures in flight that complete `n`. -/
def flightsAt (n : NodeIndex) (s : State) : Nat :=
  s.executing.countP fun flight => flight.completes = some n

section Writes

variable {idx : NodeIndex} {rest : List NodeIndex} {answer : Answer}

/-- The writes of a step that concern the start, or the end, of `n`. -/
def startsAt (R : Reactor H) (n : NodeIndex) (writes : List NodeEventWrite) : Nat :=
  writes.countP fun e => e.Starts (R.nodeId n)

def endsAt (R : Reactor H) (n : NodeIndex) (writes : List NodeEventWrite) : Nat :=
  writes.countP fun e => e.Ends (R.nodeId n)

/-- What is written when another node is popped does not concern a module. -/
theorem writes_of_pop_ne (hIds : R.graph.nodes.Nodup) (hOrderly : Orderly R s)
    (hn : n < R.graph.nodes.length) (hModule : R.runsModule n = true)
    (hAction : timed.action = .pop answer) (hReady : s.ready = idx :: rest) (hOther : n ≠ idx)
    {e : NodeEventWrite}
    (he : e ∈ R.awaitedWrites s timed ∨ e ∈ (R.detachedWrites s timed).flatten) :
    ¬ e.Starts (R.nodeId n) ∧ ¬ e.Ends (R.nodeId n) := by
  have hBatch : ∀ m ∈ R.subWorkflowBatch idx rest, R.nodeId m = R.nodeId n → False := by
    intro m hm hSame
    have hLt := (hOrderly.leaders m (work_of_ready (ready_of_mem_batch hReady hm))).2
    obtain rfl := nodeId_injective hIds hLt hn hSame
    obtain rfl | hSub := List.mem_cons.1 hm
    · exact hOther rfl
    · have hIs := (List.mem_filter.1 hSub).2
      rw [not_isSubWorkflowNode hModule] at hIs
      cases hIs
  have hSelf : idx ∈ R.subWorkflowBatch idx rest := List.mem_cons_self
  obtain he | he := he
  · obtain ⟨_, idx', rest', -, hReady', -, -, m, hm, hEnd⟩ | ⟨_, _, _, _, _, hFinish, -⟩ :=
      mem_awaitedWrites he
    · rw [hReady] at hReady'
      cases hReady'
      exact ⟨hEnd.starts _, fun hEnds => hBatch m hm ((hEnd.ends _).1 hEnds)⟩
    · rw [hAction] at hFinish
      cases hFinish
  · obtain ⟨idx', rest', hReady', hKinds⟩ := mem_detachedWrites he
    rw [hReady] at hReady'
    cases hReady'
    obtain ⟨m, hm, rfl⟩ | rfl | ⟨_, -, -, hEnd⟩ := hKinds
    · exact ⟨fun hStarts => hBatch m hm (starts_nodeStarted.1 hStarts), not_ends_nodeStarted⟩
    · exact ⟨not_starts_nodeSkipped, not_ends_nodeSkipped⟩
    · exact ⟨hEnd.starts _, fun hEnds => hBatch idx hSelf ((hEnd.ends _).1 hEnds)⟩

theorem startsAt_eq_zero {writes : List NodeEventWrite}
    (h : ∀ e ∈ writes, ¬ e.Starts (R.nodeId n)) : startsAt R n writes = 0 := by
  rw [startsAt, List.countP_eq_zero]
  intro e he hStarts
  exact h e he (of_decide_eq_true hStarts)

theorem endsAt_eq_zero {writes : List NodeEventWrite}
    (h : ∀ e ∈ writes, ¬ e.Ends (R.nodeId n)) : endsAt R n writes = 0 := by
  rw [endsAt, List.countP_eq_zero]
  intro e he hEnds
  exact h e he (of_decide_eq_true hEnds)

theorem awaitedWrites_module (hModule : R.runsModule n = true)
    (hAction : timed.action = .pop answer) (hReady : s.ready = n :: rest) :
    R.awaitedWrites s timed = [] := by
  refine List.eq_nil_iff_forall_not_mem.2 fun e he => ?_
  obtain ⟨_, idx, _, -, hReady', -, hNot, -⟩ | ⟨_, _, _, _, _, hFinish, -⟩ := mem_awaitedWrites he
  · rw [hReady] at hReady'
    cases hReady'
    rw [hModule] at hNot
    cases hNot
  · rw [hAction] at hFinish
    cases hFinish

theorem detachedWrites_launched (hPlain : R.chainOf n = none) (hModule : R.runsModule n = true)
    (hSkips : R.skips s n = none) (hAction : timed.action = .pop .accepted)
    (hReady : s.ready = n :: rest) : R.detachedWrites s timed = [[R.nodeStarted n]] := by
  unfold Reactor.skips at hSkips
  unfold Reactor.runsModule at hModule
  simp only [Reactor.detachedWrites, hAction, hReady, hPlain]
  split at hSkips
  · cases hSkips
  · rename_i hCheck
    rw [hCheck]
    split at hModule
    · rename_i hKind
      rw [hKind]
      rfl
    · rename_i hKind
      rw [hKind] at hSkips ⊢
      simp [Reactor.detachedByKind, hSkips]
    · cases hModule

theorem detachedWrites_module (hModule : R.runsModule n = true)
    (hAction : timed.action = .pop answer) (hReady : s.ready = n :: rest)
    (hStays : (R.skips s n).isSome = true ∨ answer ≠ .accepted) {e : NodeEventWrite}
    (he : e ∈ (R.detachedWrites s timed).flatten) : e = R.nodeSkipped n := by
  unfold Reactor.skips at hStays
  unfold Reactor.runsModule at hModule
  simp only [Reactor.detachedWrites, hAction, hReady] at he
  split at he
  · cases he
  · split at he
    · simpa using he
    · rename_i hCheck
      rw [Bool.not_eq_true, Option.isSome_eq_false_iff, Option.isNone_iff_eq_none] at hCheck
      rw [hCheck] at hStays
      split at hModule
      · rename_i hKind
        rw [hKind] at he hStays
        cases answer with
        | accepted => simp at hStays
        | _ => cases he
      · rename_i hKind
        rw [hKind] at he hStays
        cases answer with
        | accepted =>
            have hSome := hStays.resolve_right (fun h => h rfl)
            simp [Reactor.detachedByKind, hSome] at he
        | _ => cases he
      · cases hModule

end Writes

section Steps

theorem completes_lt (hChains : R.ChainsDetected) (hOrderly : Orderly R s) {flight : Flight}
    (hFlight : flight ∈ s.executing) {idx : NodeIndex} (h : flight.completes = some idx) :
    idx < R.graph.nodes.length :=
  hOrderly.members_lt hChains (flight_start_mem_work hFlight)
    (completes_mem_members hChains hOrderly hFlight h)

/-- All that a step writes about the node `n`. -/
def stepWrites (R : Reactor H) (s : State) (timed : TimedAction) : List NodeEventWrite :=
  R.awaitedWrites s timed ++ (R.detachedWrites s timed).flatten

/-- A step that launches no future of `n` and lands none writes nothing about it. -/
theorem stepWrites_pop (hIds : R.graph.nodes.Nodup) (hOrderly : Orderly R s)
    (hn : n < R.graph.nodes.length) (hModule : R.runsModule n = true) {answer : Answer}
    (hAction : timed.action = .pop answer) {idx : NodeIndex} {rest : List NodeIndex}
    (hReady : s.ready = idx :: rest)
    (hStays : n = idx → (R.skips s n).isSome = true ∨ answer ≠ .accepted) :
    startsAt R n (stepWrites R s timed) = 0 ∧ endsAt R n (stepWrites R s timed) = 0 := by
  have hNone : ∀ e ∈ stepWrites R s timed,
      ¬ e.Starts (R.nodeId n) ∧ ¬ e.Ends (R.nodeId n) := by
    intro e he
    by_cases hIs : n = idx
    · subst hIs
      rw [stepWrites, awaitedWrites_module hModule hAction hReady, List.nil_append] at he
      rw [detachedWrites_module hModule hAction hReady (hStays rfl) he]
      exact ⟨not_starts_nodeSkipped, not_ends_nodeSkipped⟩
    · exact writes_of_pop_ne hIds hOrderly hn hModule hAction hReady hIs (List.mem_append.1 he)
  exact ⟨startsAt_eq_zero fun e he => (hNone e he).1, endsAt_eq_zero fun e he => (hNone e he).2⟩

theorem stepWrites_launched (hPlain : R.chainOf n = none) (hModule : R.runsModule n = true)
    (hSkips : R.skips s n = none) (hAction : timed.action = .pop .accepted)
    {rest : List NodeIndex} (hReady : s.ready = n :: rest) :
    startsAt R n (stepWrites R s timed) = 1 ∧ endsAt R n (stepWrites R s timed) = 0 := by
  have hWrites : stepWrites R s timed = [R.nodeStarted n] := by
    rw [stepWrites, awaitedWrites_module hModule hAction hReady,
      detachedWrites_launched hPlain hModule hSkips hAction hReady]
    rfl
  rw [hWrites]
  exact ⟨by simp [startsAt], by simp [endsAt]⟩

theorem stepWrites_finish {position : Nat} {result : Except String Json} {ran : Nat}
    (hAction : timed.action = .finish position result ran) {flight : Flight} {idx : NodeIndex}
    (hFlight : s.executing[position]? = some flight) (hIdx : flight.completes = some idx) :
    startsAt R n (stepWrites R s timed) = 0 ∧
      endsAt R n (stepWrites R s timed) = if R.nodeId idx = R.nodeId n then 1 else 0 := by
  have hWrites : stepWrites R s timed = [R.futureEvent idx result] := by
    simp [stepWrites, Reactor.awaitedWrites, Reactor.detachedWrites, hAction, hFlight, hIdx]
  have hEnd : R.EndOf idx (R.futureEvent idx result) := endOf_futureEvent result
  rw [hWrites]
  refine ⟨startsAt_eq_zero fun e he => ?_, ?_⟩
  · rw [List.mem_singleton.1 he]
    exact hEnd.starts _
  · simp [endsAt, hEnd.ends, List.countP_cons]

theorem stepWrites_quiet (hAction : timed.action = .visit ∨ timed.action = .store) :
    stepWrites R s timed = [] := by
  obtain hIs | hIs := hAction <;> simp [stepWrites, Reactor.awaitedWrites, Reactor.detachedWrites, hIs]

theorem endsAt_le (hChains : R.ChainsDetected) (hIds : R.graph.nodes.Nodup)
    (hOrderly : Orderly R s) (hn : n < R.graph.nodes.length) (hPlain : R.chainOf n = none)
    (hModule : R.runsModule n = true) :
    endsAt R n (stepWrites R s timed) ≤ flightsAt n s := by
  cases hAction : timed.action with
  | visit =>
      rw [stepWrites_quiet (.inl hAction)]
      exact Nat.zero_le _
  | store =>
      rw [stepWrites_quiet (.inr hAction)]
      exact Nat.zero_le _
  | pop answer =>
      cases hReady : s.ready with
      | nil => simp [stepWrites, Reactor.awaitedWrites, Reactor.detachedWrites, hAction, hReady, endsAt]
      | cons idx rest =>
          by_cases hStays : n = idx → (R.skips s n).isSome = true ∨ answer ≠ .accepted
          · rw [(stepWrites_pop hIds hOrderly hn hModule hAction hReady hStays).2]
            exact Nat.zero_le _
          · simp only [not_forall, not_or, not_not, Bool.not_eq_true, Option.isSome_eq_false_iff,
              Option.isNone_iff_eq_none] at hStays
            obtain ⟨rfl, hSkips, rfl⟩ := hStays
            rw [(stepWrites_launched hPlain hModule hSkips hAction hReady).2]
            exact Nat.zero_le _
  | finish position result ran =>
      cases hCompletes : s.executing[position]?.bind Flight.completes with
      | none =>
          simp [stepWrites, Reactor.awaitedWrites, Reactor.detachedWrites, hAction, hCompletes,
            endsAt]
      | some idx =>
          obtain ⟨flight, hFlight, hIdx⟩ := Option.bind_eq_some_iff.1 hCompletes
          rw [(stepWrites_finish hAction hFlight hIdx).2]
          have hIn := List.mem_of_getElem? hFlight
          split
          · rename_i hSame
            obtain rfl := nodeId_injective hIds (completes_lt hChains hOrderly hIn hIdx) hn hSame
            exact List.countP_pos_iff.2 ⟨flight, hIn, decide_eq_true hIdx⟩
          · exact Nat.zero_le _

/-- What is written about a module keeps account of its futures in flight. -/
theorem flightsAt_step (hChains : R.ChainsDetected) (hIds : R.graph.nodes.Nodup)
    (hOrderly : Orderly R s) (hn : n < R.graph.nodes.length) (hPlain : R.chainOf n = none)
    (hModule : R.runsModule n = true) (hStepped : Reactor.Stepped R s timed.action t)
    (hStep : R.step s timed.action = some t) :
    flightsAt n t + endsAt R n (stepWrites R s timed) =
      flightsAt n s + startsAt R n (stepWrites R s timed) := by
  have hMoved := hOrderly.moved hStepped
  have hKeeps : t.executing = s.executing → startsAt R n (stepWrites R s timed) = 0 ∧
      endsAt R n (stepWrites R s timed) = 0 → flightsAt n t + endsAt R n (stepWrites R s timed) =
        flightsAt n s + startsAt R n (stepWrites R s timed) := by
    rintro hExecuting ⟨hStarts, hEnds⟩
    rw [hStarts, hEnds, flightsAt, flightsAt, hExecuting]
  have hQuiet : timed.action = .visit ∨ timed.action = .store →
      startsAt R n (stepWrites R s timed) = 0 ∧ endsAt R n (stepWrites R s timed) = 0 := by
    intro hAction
    rw [stepWrites_quiet hAction]
    exact ⟨rfl, rfl⟩
  have hPop := @stepWrites_pop H R s n timed hIds hOrderly hn hModule
  generalize hAction : timed.action = action at hMoved hStep
  cases hMoved with
  | visited visit rest _ hVisits hVisit =>
      exact hKeeps (visited_queues hVisit).1 (hQuiet (.inl hAction))
  | concluded _ start idx base events mode value hConcluding =>
      cases hConcluding with
      | stored => exact hKeeps (Reactor.conclude_executing ..) (hQuiet (.inr hAction))
      | popped _ rest answer _ _ _ _ _ hReady hStart hSettles =>
          refine hKeeps (Reactor.conclude_executing ..) (hPop hAction hReady ?_)
          rintro rfl
          cases hSettles with
          | skipped _ hSkips => exact .inl (Option.isSome_iff_exists.2 ⟨_, hSkips⟩)
          | refused _ _ _ hAnswer => exact .inr (by rw [hAnswer]; exact fun h => by cases h)
          | handled _ _ _ hVerdict =>
              rw [(handlerVerdict_kind hVerdict).1] at hModule
              cases hModule
      | returned position result ran flight _ nodes _ _ _ _ _ hFlight hLands =>
          have hIdx : flight.completes = some idx := by
            cases hLands with
            | single parents => rfl
            | chain members parents _ hTail => exact hTail
          obtain ⟨hStarts, hEnds⟩ := stepWrites_finish (R := R) (n := n) hAction hFlight hIdx
          have hIn := List.mem_of_getElem? hFlight
          have hCount := (perm_cons_eraseIdx hFlight).countP_eq
            (fun flight => decide (flight.completes = some n))
          rw [hStarts, hEnds, flightsAt, flightsAt, Reactor.conclude_executing, hCount,
            List.countP_cons, hIdx]
          by_cases hSame : R.nodeId idx = R.nodeId n
          · have hIs := nodeId_injective hIds (completes_lt hChains hOrderly hIn hIdx) hn hSame
            simp [hIs]
          · have hNot : idx ≠ n := fun hIs => hSame (by rw [hIs])
            simp [hSame, hNot]
  | relocated _ _ events hRelocating =>
      cases hRelocating with
      | launchedSingle idx rest _ _ hReady _ hSkips hKind =>
          rw [flightsAt, flightsAt, List.countP_append, List.countP_singleton]
          by_cases hIs : n = idx
          · subst hIs
            obtain ⟨hStarts, hEnds⟩ := stepWrites_launched hPlain hModule hSkips hAction hReady
            rw [hStarts, hEnds]
            simp [Flight.completes]
          · obtain ⟨hStarts, hEnds⟩ := hPop hAction hReady fun h => absurd h hIs
            rw [hStarts, hEnds]
            simp [Flight.completes, Ne.symm hIs]
      | launchedChain idx rest answer members _ _ hReady hChain hHead =>
          have hNot : n ≠ idx := by
            rintro rfl
            rw [hPlain] at hChain
            cases hChain
          obtain ⟨hStarts, hEnds⟩ := hPop hAction hReady fun h => absurd h hNot
          have hLast : members.getLast? ≠ some n := fun h =>
            chainOf_eq_none hPlain (chainOf_eq_some hChain).1 (List.mem_of_getLast? h)
          rw [hStarts, hEnds, flightsAt, flightsAt, List.countP_append, List.countP_singleton]
          simp [Flight.completes, hLast]
      | drained idx rest values _ _ hReady _ _ hKind =>
          refine hKeeps rfl (hPop hAction hReady ?_)
          rintro rfl
          rw [not_isSubWorkflowNode hModule] at hKind
          cases hKind
  | paused idx rest answer waiting _ _ hReady hStart hSkips =>
      refine hKeeps rfl (hPop hAction hReady ?_)
      rintro rfl
      rw [(paused_kind hStep rfl hReady).1] at hModule
      cases hModule

end Steps

section Journals

variable {E : ParallelWorkflowEngine H} {executionId : Uuid} {initialResults : Table Json}
  {j : Journal State NodeEventWrite}

def State.Alive (s : State) : Prop := s.status = .running ∨ s.status = .paused

theorem step_alive (hStep : R.step s timed.action = some t) (hAlive : t.Alive) :
    Reactor.Stepped R s timed.action t := by
  obtain ⟨-, hStepped | ⟨e, -, rfl⟩⟩ := Reactor.step_cases hStep
  · exact hStepped
  · cases e <;> obtain hStatus | hStatus := hAlive <;> cases hStatus

/-- In every interleaving of every run, each start that is written for a module outside the chains
is matched by an end or by a future in flight, until the run fails; and no end is without a start. -/
theorem starts_balance_ends (E : ParallelWorkflowEngine H) (hIds : E.graph.nodes.Nodup)
    (hSink : E.eventSink.isSome = true) (executionId : Uuid) (initialResults : Table Json)
    (j : Journal State NodeEventWrite) (hRun : E.Journals executionId initialResults j)
    (n : NodeIndex) (hn : n < E.graph.nodes.length)
    (hPlain : (E.reactor executionId initialResults).chainOf n = none)
    (hModule : (E.reactor executionId initialResults).runsModule n = true) :
    (j.state.Alive → startsAt (E.reactor executionId initialResults) n j.issued =
        endsAt (E.reactor executionId initialResults) n j.issued + flightsAt n j.state) ∧
      endsAt (E.reactor executionId initialResults) n j.issued ≤
        startsAt (E.reactor executionId initialResults) n j.issued := by
  have hChains := reactor_chainsDetected E executionId initialResults
  obtain ⟨hAcyclic, hRun⟩ := hRun
  have hWrites : ∀ s timed, (E.reactor executionId initialResults).scribe.writes s timed =
      stepWrites (E.reactor executionId initialResults) s timed := by
    intro s timed
    rw [Scribe.writes, stepWrites]
    exact congrArg₂ _ (if_pos hSink) (congrArg List.flatten (if_pos hSink))
  induction hRun with
  | refl => exact ⟨fun _ => rfl, Nat.zero_le _⟩
  | @tail j k hRun hLast ih =>
      obtain ⟨m, -, hWrite⟩ := hLast
      obtain ⟨fresh, hPerm, ⟨timed, rfl, hStep, rfl⟩ | ⟨hSame, rfl⟩⟩ :=
        (Scribe.write_cases hWrite).issued_perm
      · have hState : E.Runs executionId initialResults (fun _ _ _ => True) j.state :=
          ⟨hAcyclic, run_of_scribe (Scribe.run_state hRun)⟩
        have hRunning := (Reactor.step_cases hStep).1
        have hOrderly := Orderly.of_runs hState hRunning
        have hLe : endsAt _ n (stepWrites _ j.state timed) ≤ flightsAt n j.state :=
          endsAt_le hChains hIds hOrderly hn hPlain hModule
        have hBalanced := ih.1 (.inl hRunning)
        have hStarts : startsAt (E.reactor executionId initialResults) n k.issued =
            startsAt (E.reactor executionId initialResults) n j.issued +
              startsAt (E.reactor executionId initialResults) n
                (stepWrites (E.reactor executionId initialResults) j.state timed) := by
          rw [startsAt, hPerm.countP_eq, List.countP_append, hWrites]
          rfl
        have hEnds : endsAt (E.reactor executionId initialResults) n k.issued =
            endsAt (E.reactor executionId initialResults) n j.issued +
              endsAt (E.reactor executionId initialResults) n
                (stepWrites (E.reactor executionId initialResults) j.state timed) := by
          rw [endsAt, hPerm.countP_eq, List.countP_append, hWrites]
          rfl
        refine ⟨fun hAlive => ?_, by omega⟩
        have hFlights := flightsAt_step hChains hIds hOrderly hn hPlain hModule
          (step_alive hStep hAlive) hStep
        omega
      · rw [List.append_nil] at hPerm
        rw [startsAt, endsAt, hPerm.countP_eq, hPerm.countP_eq, hSame]
        exact ih

theorem starts_balance_ends_late_start :
    ∃ j, watchedForkEngine.Journals 9 ∅ j ∧
      flightsAt 2 j.state = 1 ∧
        (j.state.Alive → startsAt (watchedForkEngine.reactor 9 ∅) 2 j.issued =
          endsAt (watchedForkEngine.reactor 9 ∅) 2 j.issued + flightsAt 2 j.state) ∧
        endsAt (watchedForkEngine.reactor 9 ∅) 2 j.issued ≤
          startsAt (watchedForkEngine.reactor 9 ∅) 2 j.issued := by
  let R := watchedForkEngine.reactor 9 ∅
  have hReplay : (replay R.scribe.write (Scribe.Admits fun _ _ => True) lateStartMoves
      (.start (R.initialState ∅))).map (fun j => flightsAt 2 j.state) = some 1 := by
    decide
  obtain ⟨j, hj, hFlights⟩ := Option.map_eq_some_iff.1 hReplay
  have hRun : watchedForkEngine.Journals 9 ∅ j := ⟨acyclic_of_rank id (by decide), replay_run hj⟩
  exact ⟨j, hRun, hFlights, starts_balance_ends watchedForkEngine (by decide) rfl 9 ∅ j hRun 2
    (by decide) (by decide) (by decide)⟩

end Journals

end TalosWorkflow
