import TalosWorkflow.Gating.Skips

/-!
# Seeds

The nodes that a run is seeded with stay as they are, as long as no completed
node has one of them among its successors.
-/

namespace TalosWorkflow

open Multigraph

variable {H : Host}

/-- No visit of a loop over successors comes to a seeded node. -/
def AvoidsSeeds (initialResults : Table Json) (R : Reactor H) (s : State) (action : Action) : Prop :=
  action matches .visit → ∀ visit ∈ s.visits.head?, R.nodeId visit.target ∉ initialResults

instance (initialResults : Table Json) (R : Reactor H) :
    ∀ s action, Decidable (AvoidsSeeds initialResults R s action) := by
  intro s action
  unfold AvoidsSeeds
  infer_instance

/-- Seeded nodes have their seeded value, and they are neither queued nor started nor counted. -/
structure SeedsKept (initialResults : Table Json) (R : Reactor H) (s : State) : Prop where
  results : ∀ id ∈ initialResults, s.results.lookup id = initialResults.lookup id
  work : ∀ n ∈ s.work, R.nodeId n ∉ initialResults
  started : ∀ n ∈ startedNodes s.history, R.nodeId n ∉ initialResults
  counters : ∀ n, .underflow n ∈ s.history → R.nodeId n ∉ initialResults

section Steps

variable {initialResults : Table Json} {R : Reactor H} {s t base : State} {action : Action}

theorem makeVisit_error {visit : Visit} {e : Halt} (h : R.makeVisit s visit = .error e) :
    e = .counterUnderflow visit.target := by
  obtain ⟨mode, source, target⟩ := visit
  have hDecrement : ∀ {s : State}, Reactor.decrement (H := H) s target = .error e →
      e = .counterUnderflow target := by
    intro s h
    rw [Reactor.decrement] at h
    split at h
    · cases h
    · split at h
      · cases h
        rfl
      · cases h
  have hEarly : ∀ {s : State}, R.applyFanInEarlyReady s target = .error e →
      e = .counterUnderflow target := by
    intro s h
    rw [Reactor.applyFanInEarlyReady] at h
    split at h
    · cases hCompleted : R.completedParents target (s.pending target) with
      | error e' =>
          rw [hCompleted] at h
          cases h
          rw [Reactor.completedParents] at hCompleted
          split at hCompleted
          · cases hCompleted
          · split at hCompleted
            · cases hCompleted
              rfl
            · cases hCompleted
      | ok completed =>
          rw [hCompleted] at h
          simp only [bind, Except.bind] at h
          split at h
          · cases h
          · cases h
    · cases h
  cases mode with
  | unblocks => cases h
  | succeeds output =>
      simp only [Reactor.makeVisit, Reactor.visitSucceeded, bind, Except.bind] at h
      split at h
      · cases h
      · split at h
        · cases h
          exact hDecrement ‹_›
        · split at h
          · cases h
            exact hEarly ‹_›
          · split at h
            · split at h
              · cases h
              · cases h
            · cases h
  | routes =>
      simp only [Reactor.makeVisit, Reactor.visitRouted, bind, Except.bind] at h
      split at h
      · cases h
      · split at h
        · cases h
          exact hEarly ‹_›
        · split at h
          · cases h
          · cases h

namespace SeedsKept

theorem insert_ne (h : SeedsKept initialResults R s) {id : Uuid} {value : Json}
    (hId : id ∉ initialResults) (hResults : t.results = s.results.insert id value) :
    ∀ seed ∈ initialResults, t.results.lookup seed = initialResults.lookup seed := by
  intro seed hSeed
  have hne : seed ≠ id := fun hSame => hId (hSame ▸ hSeed)
  rw [hResults, AList.lookup_insert_ne hne]
  exact h.results seed hSeed

theorem append (h : SeedsKept initialResults R s) {events : List Event}
    (hHistory : t.history = events ++ s.history)
    (hResults : ∀ seed ∈ initialResults, t.results.lookup seed = initialResults.lookup seed)
    (hWork : ∀ n ∈ t.work, n ∈ s.work ∨ R.nodeId n ∉ initialResults)
    (hStarted : ∀ n ∈ startedNodes events, R.nodeId n ∉ initialResults)
    (hCounters : ∀ n, .underflow n ∈ events → R.nodeId n ∉ initialResults) :
    SeedsKept initialResults R t := by
  constructor
  · exact hResults
  · intro n hn
    obtain hOld | hNew := hWork n hn
    · exact h.work n hOld
    · exact hNew
  · intro n hn
    rw [hHistory, startedNodes_append] at hn
    obtain hNew | hOld := List.mem_append.1 hn
    · exact hStarted n hNew
    · exact h.started n hOld
  · intro n hn
    rw [hHistory] at hn
    obtain hNew | hOld := List.mem_append.1 hn
    · exact hCounters n hNew
    · exact h.counters n hOld

theorem visited (h : SeedsKept initialResults R s) {visit : Visit} {rest : List Visit}
    (hTarget : R.nodeId visit.target ∉ initialResults)
    (hVisit : Reactor.Visited R { s with visits := rest } visit t) :
    SeedsKept initialResults R t := by
  obtain ⟨events, hHistory, hEvents⟩ := visited_history hVisit
  refine h.append hHistory ?_ (fun n hn => ?_) (fun n hn => ?_) fun n hn => ?_
  · obtain hResults | hResults := visited_results hVisit
    · rw [hResults]
      exact h.results
    · exact h.insert_ne hTarget hResults
  · refine (visited_work hVisit hn).imp_right fun hSame => ?_
    rw [hSame]
    exact hTarget
  · rw [startedNodes_visited hEvents] at hn
    cases hn
  · obtain hEvent | hEvent := hEvents _ hn
    · cases hEvent
    · cases hEvent
      exact hTarget

theorem concluded (hChains : R.chains = []) (hOrderly : Orderly R s) (hTracked : Tracked s)
    (h : SeedsKept initialResults R s) {start idx : NodeIndex} {events : List Event}
    {mode : Completion} {value : Json}
    (hConcluding : Concluding R s action start idx base events mode value) :
    SeedsKept initialResults R (R.conclude base idx mode value) := by
  have hShifted := hConcluding.shifted
  have hDetected : R.ChainsDetected := fun chain hChain => by
    rw [hChains] at hChain
    cases hChain
  have hPlain : R.chainOf start = none := by
    rw [Reactor.chainOf, hChains]
    rfl
  have hIdx : R.nodeId idx ∉ initialResults := by
    have hMember := (hConcluding.isTail hOrderly hDetected).mem_members
    rw [members_eq_self hPlain, List.mem_singleton] at hMember
    exact h.work idx (hMember ▸ hShifted.work.mem_iff.2 List.mem_cons_self)
  have hHistory : (R.conclude base idx mode value).history =
      (.released idx :: events) ++ s.history := by
    rw [Reactor.conclude_history, hShifted.history]
    rfl
  have hResults : (R.conclude base idx mode value).results =
      s.results.insert (R.nodeId idx) value := by
    rw [Reactor.conclude_results, hShifted.results]
  refine h.append hHistory (h.insert_ne hIdx hResults) (fun n hn => ?_) (fun n hn => ?_)
    fun n hn => ?_
  · have hWork : (R.conclude base idx mode value).work = base.work := by simp [State.work]
    rw [hWork] at hn
    exact .inl (hShifted.work.mem_iff.2 (List.mem_append_right _ hn))
  · rw [startedNodes_cons] at hn
    have hEvents : n ∈ startedNodes events := hn
    obtain ⟨-, hNone, -⟩ | ⟨-, ⟨-, rfl, -⟩ | ⟨-, hOnly, -⟩⟩ :=
      hConcluding.started_or_leaving hTracked
    · rw [hNone] at hEvents
      cases hEvents
    · cases hEvents
    · rw [List.mem_singleton.1 (hOnly hEvents)]
      exact hIdx
  · have hEvent : .underflow n ∈ events := by simpa using hn
    exact absurd hEvent (hShifted.quiet.underflow n)

theorem relocated (hChains : R.chains = []) (h : SeedsKept initialResults R s)
    {events : List Event} (hRelocating : Relocating R s action t events) :
    SeedsKept initialResults R t := by
  have hShifted := hRelocating.shifted
  refine h.append hShifted.history ?_ (fun n hn => ?_) (fun n hn => ?_)
    fun n hn => absurd hn (hShifted.quiet.underflow n)
  · rw [hShifted.results]
    exact h.results
  · rw [hShifted.work.mem_iff]
    exact .inl hn
  · have hReady : ∀ n ∈ s.ready, R.nodeId n ∉ initialResults := fun n hn =>
      h.work n (List.mem_append_right _ (List.mem_append_left _ hn))
    cases hRelocating with
    | launchedSingle idx rest _ _ hReadyEq =>
        obtain rfl : n = idx := List.mem_singleton.1 hn
        exact hReady n (hReadyEq ▸ List.mem_cons_self)
    | launchedChain idx rest answer members _ _ _ hChain =>
        have hMem := (chainOf_eq_some hChain).1
        rw [hChains] at hMem
        cases hMem
    | drained idx rest values _ _ hReadyEq =>
        rw [startedNodes_dispatched, List.mem_reverse] at hn
        refine hReady n (hReadyEq ▸ ?_)
        obtain rfl | hn := List.mem_cons.1 hn
        · exact List.mem_cons_self
        · exact List.mem_cons_of_mem _ (List.mem_of_mem_filter hn)

theorem step (hChains : R.chains = []) (hOrderly : Orderly R s) (hTracked : Tracked s)
    (h : SeedsKept initialResults R s) (hAvoids : AvoidsSeeds initialResults R s action)
    (hStep : R.step s action = some t) : SeedsKept initialResults R t := by
  obtain ⟨-, hStepped | ⟨e, hBody, rfl⟩⟩ := Reactor.step_cases hStep
  · cases hOrderly.moved hStepped with
    | visited visit rest _ hVisits hVisit =>
        exact h.visited (hAvoids rfl visit (by rw [hVisits]; rfl)) hVisit
    | concluded _ start idx base events mode value hConcluding =>
        exact h.concluded hChains hOrderly hTracked hConcluding
    | relocated _ _ events hRelocating => exact h.relocated hChains hRelocating
    | paused idx rest answer waiting _ _ hReady =>
        have hIdx : R.nodeId idx ∉ initialResults := by
          refine h.work idx (List.mem_append_right _ (List.mem_append_left _ ?_))
          exact hReady ▸ List.mem_cons_self
        have hHistory : (R.pauseAt { s with ready := rest } idx waiting).history =
            [.executed idx, .dispatched idx] ++ s.history := rfl
        refine h.append hHistory (h.insert_ne hIdx rfl) (fun n hn => .inl ?_) (fun n hn => ?_)
          (by simp)
        · simp only [State.work, Reactor.pauseAt, Reactor.handled, State.log_batch,
            State.log_executing, State.log_ready, hReady, List.mem_append, List.mem_cons] at hn ⊢
          tauto
        · obtain rfl : n = idx := List.mem_singleton.1 hn
          exact hIdx
  · obtain hHalt | ⟨visit, rest, hVisits, hVisit⟩ := Reactor.body_error hBody
    · obtain rfl | ⟨message, rfl⟩ := hHalt
      · exact ⟨h.results, h.work, h.started, h.counters⟩
      · exact ⟨h.results, h.work, h.started, h.counters⟩
    · obtain rfl := makeVisit_error hVisit
      have hTarget : R.nodeId visit.target ∉ initialResults := by
        cases action with
        | visit => exact hAvoids rfl visit (by rw [hVisits]; rfl)
        | store | pop | finish => simp [Reactor.body, hVisits] at hBody
      have hHistory : (s.halt (.counterUnderflow visit.target)).history =
          [.underflow visit.target] ++ s.history := rfl
      refine h.append hHistory h.results (fun n hn => .inl hn) (by simp [startedNodes])
        fun n hn => ?_
      obtain rfl : n = visit.target := by simpa using hn
      exact hTarget

theorem initial : SeedsKept initialResults R (R.initialState initialResults) := by
  constructor
  · exact fun id _ => rfl
  · intro n hn
    simp only [State.work, Reactor.initialState, List.map_nil, List.nil_append,
      List.append_nil] at hn
    exact (mem_initialReady.1 hn).2.2
  · intro n hn
    rw [mem_startedNodes] at hn
    simp [Reactor.initialState] at hn
  · intro n hn
    simp [Reactor.initialState] at hn

end SeedsKept

end Steps

section Runs

variable {E : ParallelWorkflowEngine H} {executionId : Uuid} {initialResults : Table Json}
  {s : State}

theorem SeedsKept.of_runs (hRun : E.Runs executionId initialResults (AvoidsSeeds initialResults) s) :
    SeedsKept initialResults (E.reactor executionId initialResults) s := by
  obtain hChains | rfl := reactor_fresh_or_seeded E executionId initialResults
  · refine (runs_invariant (fun s => Tracked s ∧ SeedsKept initialResults _ s) hRun
      ⟨.initial, .initial⟩ ?_).2
    intro s action t hOrderly hAvoids hInv hStep
    exact ⟨hInv.1.step hOrderly hStep, hInv.2.step hChains hOrderly hInv.1 hAvoids hStep⟩
  · constructor
    · intro id hId
      simp at hId
    · simp
    · simp
    · simp

/-- A seeded node is never queued or started, keeps its value, and has no counter below zero, in
every run in which no completed node has a seeded successor. -/
theorem seeds_final (E : ParallelWorkflowEngine H) (executionId : Uuid)
    (initialResults : Table Json) (s : State)
    (hRun : E.Runs executionId initialResults (AvoidsSeeds initialResults) s) (idx : NodeIndex)
    (hSeeded : E.nodeId idx ∈ initialResults) :
    idx ∉ startedNodes s.history ∧
      s.results.lookup (E.nodeId idx) = initialResults.lookup (E.nodeId idx) ∧
        .underflow idx ∉ s.history := by
  have hKept := SeedsKept.of_runs hRun
  exact ⟨fun hStarted => hKept.started idx hStarted hSeeded, hKept.results _ hSeeded,
    fun hUnderflow => hKept.counters idx hUnderflow hSeeded⟩

end Runs

section Samples

def twoModulesEngine (overflowChecks : Bool) : ParallelWorkflowEngine (bareHost overflowChecks) :=
  { ParallelWorkflowEngine.new with
    graph := twoNodes
    nodeMap := nodeTable [(1, 0), (2, 1)]
    nodeMeta := nodeTable [(1, moduleNode), (2, moduleNode)] }

theorem twoModulesEngine_acyclic (overflowChecks : Bool) :
    (twoModulesEngine overflowChecks).graph.Acyclic :=
  acyclic_of_rank id (by decide +revert)

/-- The first module is seeded, and the second one runs to its end. -/
theorem seeds_final_first_module :
    ∃ s : State, dispatchedNodes s.history = [1] ∧ 0 ∉ startedNodes s.history ∧
      s.results.lookup ((twoModulesEngine true).nodeId 0) =
        (nodeTable [(1, Json.null)]).lookup ((twoModulesEngine true).nodeId 0) ∧
        .underflow 0 ∉ s.history := by
  let seeds : Table Json := nodeTable [(1, Json.null)]
  let R := (twoModulesEngine true).reactor 9 seeds
  have hReplay : (replay R.step (AvoidsSeeds seeds R) [.pop .accepted, .finish 0 (.ok .null) 1]
      (R.initialState seeds)).map (fun s => dispatchedNodes s.history) = some [1] := by
    decide
  obtain ⟨s, hs, hDispatched⟩ := Option.map_eq_some_iff.1 hReplay
  exact ⟨s, hDispatched, seeds_final (twoModulesEngine true) 9 seeds s
    ⟨twoModulesEngine_acyclic true, replay_run hs⟩ 0 (by decide)⟩

/-- The counter of a seeded module underflows when its predecessor completes. -/
theorem seeded_successor_underflows :
    ¬ ∀ (H : Host) (E : ParallelWorkflowEngine H) (executionId : Uuid)
      (initialResults : Table Json) (s : State),
      E.Runs executionId initialResults (fun _ _ _ => True) s →
        ∀ idx, E.nodeId idx ∈ initialResults → idx ∉ startedNodes s.history ∧
          s.results.lookup (E.nodeId idx) = initialResults.lookup (E.nodeId idx) ∧
            .underflow idx ∉ s.history := by
  intro hAll
  let seeds : Table Json := nodeTable [(2, Json.null)]
  let R := (twoModulesEngine false).reactor 9 seeds
  have hReplay : (replay R.step (fun _ _ => True)
      [.pop .accepted, .finish 0 (.ok .null) 1, .visit] (R.initialState seeds)).map
        (fun s => decide (.underflow 1 ∈ s.history)) = some true := by
    decide
  obtain ⟨s, hs, hUnderflow⟩ := Option.map_eq_some_iff.1 hReplay
  obtain ⟨-, -, hNever⟩ := hAll _ (twoModulesEngine false) 9 seeds s
    ⟨twoModulesEngine_acyclic false, replay_run hs⟩ 1 (by decide)
  exact hNever (of_decide_eq_true hUnderflow)

end Samples

end TalosWorkflow
