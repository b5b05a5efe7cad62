import TalosWorkflow.Gating.Departures

/-!
# Skip conditions

A node whose skip condition holds when it leaves the ready queue is recorded
as skipped, unless it runs as a member of a chain or next to another
sub-workflow.
-/

namespace TalosWorkflow

open Multigraph

variable {H : Host}

section Conditions

/-- What leaves the ready queue has its skip condition checked, and no node leaves it once to be
skipped and once to be executed. -/
def ChecksSkips (R : Reactor H) (s : State) (action : Action) : Prop :=
  ∀ n ∈ R.leaving s action,
    if R.skipsFirst s n then n ∉ startedNodes s.history
    else R.checkSkipCondition n s.results = none ∧ .skipped n ∉ s.history

instance (R : Reactor H) : ∀ s action, Decidable (ChecksSkips R s action) := by
  intro s action
  unfold ChecksSkips
  infer_instance

/-- What has been skipped has not been started, and its result says so. -/
structure SkipsRecorded (R : Reactor H) (s : State) : Prop extends Tracked s where
  skipped : ∀ n, .skipped n ∈ s.history →
    n < R.graph.nodes.length ∧ n ∉ startedNodes s.history ∧ R.CarriesSkip s n

end Conditions

section Steps

variable {R : Reactor H} {s t base : State} {action : Action} {n : NodeIndex}

theorem CarriesSkip.insert_skip (h : R.CarriesSkip s n) {id : Uuid} {value : Json}
    (hSkip : value.get "__skipped" = some (.bool true))
    (hResults : t.results = s.results.insert id value) : R.CarriesSkip t n := by
  obtain ⟨old, hOld, hOldSkip⟩ := h
  by_cases hId : R.nodeId n = id
  · refine ⟨value, ?_, hSkip⟩
    rw [hResults, hId, AList.lookup_insert]
  · refine ⟨old, ?_, hOldSkip⟩
    rw [hResults, AList.lookup_insert_ne hId]
    exact hOld

theorem CarriesSkip.of_results (h : R.CarriesSkip s n) (hResults : t.results = s.results) :
    R.CarriesSkip t n := by
  rw [Reactor.CarriesSkip, hResults]
  exact h

theorem CarriesSkip.insert_ne (h : R.CarriesSkip s n) {id : Uuid} {value : Json}
    (hne : R.nodeId n ≠ id) (hResults : t.results = s.results.insert id value) :
    R.CarriesSkip t n := by
  obtain ⟨old, hOld, hOldSkip⟩ := h
  refine ⟨old, ?_, hOldSkip⟩
  rw [hResults, AList.lookup_insert_ne hne]
  exact hOld

/-- The node of a completion has been started, or it has just left the ready queue. -/
theorem Concluding.started_or_leaving {start idx : NodeIndex} {events : List Event}
    {mode : Completion} {value : Json} (hTracked : Tracked s)
    (h : Concluding R s action start idx base events mode value) :
    (idx ∈ startedNodes s.history ∧ startedNodes events = [] ∧ ∀ m, .skipped m ∉ events) ∨
      idx ∈ R.leaving s action ∧
        (R.skipsFirst s idx ∧ events = [.skipped idx] ∧
            value.get "__skipped" = some (.bool true) ∨
          ¬ R.skipsFirst s idx ∧ startedNodes events ⊆ [idx] ∧ ∀ m, .skipped m ∉ events) := by
  cases h with
  | stored _ _ rest _ hBatch =>
      exact .inl ⟨hTracked.batched (start, value) (hBatch ▸ List.mem_cons_self), rfl, by simp⟩
  | returned position result ran flight _ nodes _ _ _ _ _ hFlight hLands =>
      have hIdx := hTracked.flights flight (List.mem_of_getElem? hFlight) idx hLands.nodes_subset.1
      exact .inl ⟨hIdx, startedNodes_executed nodes, by simp⟩
  | popped _ rest answer _ _ _ _ _ hReady hPlain hSettles =>
      refine .inr ⟨mem_leaving hReady hPlain, ?_⟩
      rw [skipsFirst_iff hReady hPlain]
      cases hSettles with
      | skipped _ hSkips => exact .inl ⟨by rw [hSkips]; rfl, rfl, skips_carries hSkips⟩
      | refused limit hSkips => exact .inr ⟨by simp [hSkips], List.nil_subset _, by simp⟩
      | handled _ _ hSkips =>
          refine .inr ⟨by simp [hSkips], ?_, ?_⟩
          · rw [Reactor.handledEvents]
            split
            · exact List.Subset.refl _
            · exact List.Subset.refl _
          · rw [Reactor.handledEvents]
            split
            · simp
            · simp

theorem Relocating.leaving {events : List Event} (h : Relocating R s action t events) :
    (∀ n ∈ startedNodes events, n ∈ R.leaving s action ∧
      ((R.skips s n).isSome = true → ¬ R.skipsFirst s n)) ∧
      t.results = s.results ∧ ∀ m, .skipped m ∉ events := by
  cases h with
  | launchedSingle idx rest _ _ hReady hPlain hSkips =>
      refine ⟨fun n hn => ?_, rfl, by simp⟩
      obtain rfl : n = idx := List.mem_singleton.1 hn
      exact ⟨mem_leaving hReady hPlain, by simp [hSkips]⟩
  | launchedChain idx rest answer members _ _ hReady hChain hHead =>
      refine ⟨fun n hn => ?_, rfl, by simp⟩
      rw [leaving_chain hReady hChain hHead]
      have hMember : n ∈ members := by simpa [startedNodes] using hn
      refine ⟨hMember, fun _ hFirst => ?_⟩
      rw [Reactor.skipsFirst, hReady, List.head?_cons, Option.some.injEq] at hFirst
      obtain ⟨hPlain, rfl, -⟩ := hFirst
      rw [hPlain] at hChain
      cases hChain
  | drained idx rest values _ _ hReady hPlain hSkips hKind =>
      refine ⟨fun n hn => ?_, rfl, by simp⟩
      rw [startedNodes_dispatched, List.mem_reverse] at hn
      rw [leaving_drained hReady hPlain hSkips hKind]
      refine ⟨hn, fun hSome hFirst => ?_⟩
      rw [Reactor.skipsFirst, hReady, List.head?_cons, Option.some.injEq] at hFirst
      obtain ⟨-, rfl, -⟩ := hFirst
      rw [hSkips] at hSome
      cases hSome

theorem Relocating.not_skipsFirst {events : List Event} (h : Relocating R s action t events)
    (hn : n ∈ startedNodes events) : n ∈ R.leaving s action ∧ ¬ R.skipsFirst s n := by
  obtain ⟨hLeaving, hSkips⟩ := h.leaving.1 n hn
  exact ⟨hLeaving, fun hFirst => hSkips hFirst.2.2 hFirst⟩

namespace SkipsRecorded

theorem append (h : SkipsRecorded R s) (hTracked : Tracked t) {events : List Event}
    (hHistory : t.history = events ++ s.history)
    (hStarted : ∀ n ∈ startedNodes events, .skipped n ∉ s.history)
    (hSkipped : ∀ n, .skipped n ∉ events)
    (hResults : ∀ n, .skipped n ∈ s.history → R.CarriesSkip s n → R.CarriesSkip t n) :
    SkipsRecorded R t := by
  refine { hTracked with skipped := fun n hn => ?_ }
  rw [hHistory] at hn ⊢
  have hOld := (List.mem_append.1 hn).resolve_left (hSkipped n)
  obtain ⟨hLength, hFresh, hCarries⟩ := h.skipped n hOld
  refine ⟨hLength, ?_, hResults n hOld hCarries⟩
  rw [startedNodes_append, List.mem_append]
  exact fun hIn => hIn.elim (fun hNew => hStarted n hNew hOld) hFresh

theorem concluded (hChains : R.ChainsDetected) (hIds : R.graph.nodes.Nodup) (hOrderly : Orderly R s)
    (h : SkipsRecorded R s) (hChecks : ChecksSkips R s action) {start idx : NodeIndex}
    {events : List Event} {mode : Completion} {value : Json}
    (hConcluding : Concluding R s action start idx base events mode value)
    (hTracked : Tracked (R.conclude base idx mode value)) :
    SkipsRecorded R (R.conclude base idx mode value) := by
  have hShifted := hConcluding.shifted
  have hHistory : (R.conclude base idx mode value).history =
      (.released idx :: events) ++ s.history := by
    rw [Reactor.conclude_history, hShifted.history]
    rfl
  have hResults : (R.conclude base idx mode value).results =
      s.results.insert (R.nodeId idx) value := by
    rw [Reactor.conclude_results, hShifted.results]
  have hLength : idx < R.graph.nodes.length :=
    hOrderly.members_lt hChains (hShifted.work.mem_iff.2 List.mem_cons_self)
      (hConcluding.isTail hOrderly hChains).mem_members
  have hOther : .skipped idx ∉ s.history → ∀ n, .skipped n ∈ s.history → R.CarriesSkip s n →
      R.CarriesSkip (R.conclude base idx mode value) n := by
    intro hFresh n hn hCarries
    refine CarriesSkip.insert_ne hCarries (fun hId => ?_) hResults
    exact hFresh (nodeId_injective hIds (h.skipped n hn).1 hLength hId ▸ hn)
  obtain ⟨hStarted, hNone, hSkipped⟩ | ⟨hLeaving, hFirst | hRuns⟩ :=
    hConcluding.started_or_leaving h.toTracked
  · refine h.append hTracked hHistory (fun n hn => ?_) (by simpa using hSkipped)
      (hOther fun hn => (h.skipped idx hn).2.1 hStarted)
    rw [startedNodes_cons, hNone] at hn
    cases hn
  · obtain ⟨hFirst, rfl, hSkip⟩ := hFirst
    have hFresh := hChecks idx hLeaving
    rw [if_pos hFirst] at hFresh
    refine { hTracked with skipped := fun n hn => ?_ }
    have hStarted : startedNodes (R.conclude base idx mode value).history =
        startedNodes s.history := by
      rw [hHistory]
      rfl
    rw [hStarted]
    obtain rfl | hOld : n = idx ∨ .skipped n ∈ s.history := by
      rw [hHistory] at hn
      simpa using hn
    · refine ⟨hLength, hFresh, value, ?_, hSkip⟩
      rw [hResults, AList.lookup_insert]
    · obtain ⟨hIn, hNot, hCarries⟩ := h.skipped n hOld
      exact ⟨hIn, hNot, CarriesSkip.insert_skip hCarries hSkip hResults⟩
  · obtain ⟨hNot, hStarted, hSkipped⟩ := hRuns
    have hFresh := hChecks idx hLeaving
    rw [if_neg hNot] at hFresh
    refine h.append hTracked hHistory (fun n hn => ?_) (by simpa using hSkipped) (hOther hFresh.2)
    rw [startedNodes_cons] at hn
    rw [List.mem_singleton.1 (hStarted hn)]
    exact hFresh.2

theorem step (hChains : R.ChainsDetected) (hIds : R.graph.nodes.Nodup)
    (hOrderly : Orderly R s) (h : SkipsRecorded R s) (hChecks : ChecksSkips R s action)
    (hStep : R.step s action = some t) : SkipsRecorded R t := by
  have hTracked := h.toTracked.step hOrderly hStep
  obtain ⟨-, hStepped | ⟨e, -, rfl⟩⟩ := Reactor.step_cases hStep
  · cases hOrderly.moved hStepped with
    | visited visit rest _ hVisits hVisit =>
        obtain ⟨events, hHistory, hEvents⟩ := visited_history hVisit
        refine h.append hTracked hHistory (fun n hn => ?_) (fun n hn => ?_) fun n _ hCarries => ?_
        · rw [startedNodes_visited hEvents] at hn
          cases hn
        · obtain hEvent | hEvent := hEvents _ hn
          · cases hEvent
          · cases hEvent
        · obtain hResults | hResults := visited_results hVisit
          · exact CarriesSkip.of_results hCarries hResults
          · exact CarriesSkip.insert_skip hCarries rfl hResults
    | concluded _ start idx base events mode value hConcluding =>
        exact h.concluded hChains hIds hOrderly hChecks hConcluding hTracked
    | relocated _ _ events hRelocating =>
        obtain ⟨-, hResults, hSkipped⟩ := hRelocating.leaving
        refine h.append hTracked hRelocating.shifted.history (fun n hn => ?_) hSkipped
          fun n _ hCarries => CarriesSkip.of_results hCarries hResults
        obtain ⟨hLeaving, hNot⟩ := hRelocating.not_skipsFirst hn
        have hFresh := hChecks n hLeaving
        rw [if_neg hNot] at hFresh
        exact hFresh.2
    | paused idx rest answer waiting _ _ hReady hPlain hSkips =>
        have hFresh := hChecks idx (mem_leaving hReady hPlain)
        rw [if_neg (by rw [skipsFirst_iff hReady hPlain, hSkips]; simp)] at hFresh
        have hIdx : idx ∈ s.work := by
          rw [State.work, hReady]
          exact List.mem_append_right _ (List.mem_append_left _ List.mem_cons_self)
        have hHistory : (R.pauseAt { s with ready := rest } idx waiting).history =
            [.executed idx, .dispatched idx] ++ s.history := rfl
        refine h.append hTracked hHistory (fun n hn => ?_) (by simp) fun n hn hCarries =>
          CarriesSkip.insert_ne hCarries (fun hId => ?_) rfl
        · obtain rfl : n = idx := List.mem_singleton.1 hn
          exact hFresh.2
        · exact hFresh.2
            (nodeId_injective hIds (h.skipped n hn).1 (hOrderly.leaders idx hIdx).2 hId ▸ hn)
  · cases e with
    | failed message => exact { hTracked with skipped := h.skipped }
    | counterUnderflow idx =>
        have hHistory : (s.halt (.counterUnderflow idx)).history =
            [.underflow idx] ++ s.history := rfl
        exact h.append hTracked hHistory (by simp [startedNodes]) (by simp)
          fun n _ hCarries => hCarries
    | charBoundary => exact { hTracked with skipped := h.skipped }

end SkipsRecorded

/-- A node whose skip condition is checked first and holds is recorded as skipped. -/
theorem step_skipsFirst (hFirst : R.skipsFirst s n)
    (hSkip : (R.checkSkipCondition n s.results).isSome = true) {answer : Answer}
    (hStep : R.step s (.pop answer) = some t) : .skipped n ∈ t.history := by
  obtain ⟨hPlain, hHead, -⟩ := hFirst
  obtain ⟨output, hOutput⟩ := Option.isSome_iff_exists.1 hSkip
  have hSkips : R.skips s n = some output := by rw [Reactor.skips, hOutput]
  obtain ⟨-, hStepped | ⟨e, hBody, -⟩⟩ := Reactor.step_cases hStep
  · cases hStepped with
    | popped idx rest _ _ hVisits hBatch hReady hPop =>
        rw [hReady, List.head?_cons, Option.some.injEq] at hHead
        subst hHead
        cases hPop with
        | skipped => simp
        | ignored members hChain | launchedChain members hChain =>
            rw [hPlain] at hChain
            cases hChain
        | refused _ _ hNone | launched _ hNone | handled _ _ _ hNone | paused _ _ hNone
        | drained _ _ _ hNone =>
            have hSame : R.skips s idx = none := hNone
            rw [hSkips] at hSame
            cases hSame
  · simp only [Reactor.body] at hBody
    split at hBody
    · rename_i idx rest hVisits hBatch hReady
      rw [hReady, List.head?_cons, Option.some.injEq] at hHead
      subst hHead
      simp [Reactor.dispatchNode, hPlain, hOutput] at hBody
    · cases hBody

end Steps

section Runs

variable {E : ParallelWorkflowEngine H} {executionId : Uuid} {initialResults : Table Json}
  {s : State}

theorem SkipsRecorded.of_runs (hIds : E.graph.nodes.Nodup)
    (hRun : E.Runs executionId initialResults ChecksSkips s) :
    SkipsRecorded (E.reactor executionId initialResults) s := by
  have hChains := reactor_chainsDetected E executionId initialResults
  refine runs_invariant _ hRun ?_ fun s action t hOrderly hChecks h hStep =>
    h.step hChains hIds hOrderly hChecks hStep
  refine { Tracked.initial with skipped := fun n hn => ?_ }
  simp [Reactor.initialState] at hn

/-- A node whose skip condition holds when it leaves the ready queue is never executed and stays
recorded as skipped, in every run that checks the condition of all nodes that leave. -/
theorem skip_conditions_honoured (E : ParallelWorkflowEngine H) (hIds : E.graph.nodes.Nodup)
    (executionId : Uuid) (initialResults : Table Json) (s s' t : State) (action : Action)
    (n : NodeIndex) (hRun : E.Runs executionId initialResults ChecksSkips s)
    (hChecks : ChecksSkips (E.reactor executionId initialResults) s action)
    (hStep : (E.reactor executionId initialResults).step s action = some s')
    (hLeaves : n ∈ (E.reactor executionId initialResults).leaving s action)
    (hSkip : (E.checkSkipCondition n s.results).isSome = true)
    (hLater : Run (E.reactor executionId initialResults).step
      (ChecksSkips (E.reactor executionId initialResults)) s' t) :
    .executed n ∉ t.history ∧ (E.reactor executionId initialResults).CarriesSkip t n := by
  let R := E.reactor executionId initialResults
  have hTo : E.Runs executionId initialResults ChecksSkips t :=
    ⟨hRun.1, (hRun.2.tail ⟨action, hChecks, hStep⟩).trans hLater⟩
  have hFirst : R.skipsFirst s n := by
    by_contra hNot
    have hNone := hChecks n hLeaves
    rw [if_neg hNot] at hNone
    have hSame : E.checkSkipCondition n s.results = none := hNone.1
    rw [hSame] at hSkip
    cases hSkip
  have hRecorded : .skipped n ∈ s'.history := by
    cases action with
    | pop answer => exact step_skipsFirst hFirst hSkip hStep
    | visit | store | finish => cases hLeaves
  have hKept : .skipped n ∈ t.history := by
    have hMid : E.Runs executionId initialResults ChecksSkips s' :=
      ⟨hRun.1, hRun.2.tail ⟨action, hChecks, hStep⟩⟩
    clear hTo
    induction hLater with
    | refl => exact hRecorded
    | tail hFirst hLast ih =>
        obtain ⟨next, hAllowed, hNext⟩ := hLast
        have hUntil : E.Runs executionId initialResults ChecksSkips _ :=
          ⟨hRun.1, hMid.2.trans hFirst⟩
        exact (history_suffix (Orderly.of_runs hUntil (Reactor.step_cases hNext).1) hNext).subset ih
  obtain ⟨-, hNever, hCarries⟩ := (SkipsRecorded.of_runs hIds hTo).skipped n hKept
  exact ⟨fun hExecuted => hNever ((SkipsRecorded.of_runs hIds hTo).executed n hExecuted), hCarries⟩

end Runs

section Samples

/-- Two modules, the first of which has a skip condition that always holds. -/
def skippedModuleEngine (edges : List (Edge EdgeLogic))
    (bound : ∀ e ∈ edges, e.source < [(1 : Uuid), 2].length ∧ e.target < [(1 : Uuid), 2].length) :
    ParallelWorkflowEngine (bareHost true) :=
  { ParallelWorkflowEngine.new with
    graph := ⟨[1, 2], edges, bound⟩
    nodeMeta := nodeTable [(1, moduleNode), (2, moduleNode)]
    nodeConfigs := nodeTable [(1, .object [("__skip_condition", .string "true")])]
    expressionEvaluator := some ⟨fun _ _ => true⟩ }

/-- Without an edge the first module is dispatched by itself, and its condition is checked. -/
theorem skip_conditions_honoured_single_module :
    ∃ s : State, .executed 0 ∉ s.history ∧
      ((skippedModuleEngine [] (List.forall_mem_nil _)).reactor 9 ∅).CarriesSkip s 0 := by
  let E := skippedModuleEngine [] (List.forall_mem_nil _)
  let R := E.reactor 9 ∅
  have hStep : (R.step (R.initialState ∅) (.pop .accepted)).isSome = true := by decide
  obtain ⟨s, hs⟩ := Option.isSome_iff_exists.1 hStep
  have hAcyclic : E.graph.Acyclic := acyclic_of_rank id (by simp [E, skippedModuleEngine])
  exact ⟨s, skip_conditions_honoured E (by decide) 9 ∅ (R.initialState ∅) s s (.pop .accepted) 0
    ⟨hAcyclic, .refl⟩ (by decide) hs (by decide) (by decide) .refl⟩

/-- The head of a chain is executed although its condition holds. -/
theorem skipped_chain_head_executed :
    ¬ ∀ (H : Host) (E : ParallelWorkflowEngine H), E.graph.nodes.Nodup →
      ∀ (executionId : Uuid) (initialResults : Table Json) (s s' t : State) (action : Action)
        (n : NodeIndex), E.Runs executionId initialResults (fun _ _ _ => True) s →
          (E.reactor executionId initialResults).step s action = some s' →
          n ∈ (E.reactor executionId initialResults).leaving s action →
          (E.checkSkipCondition n s.results).isSome = true →
          Run (E.reactor executionId initialResults).step (fun _ _ => True) s' t →
            .executed n ∉ t.history := by
  intro hAll
  let E := skippedModuleEngine [⟨0, 1, {}⟩] (by decide)
  let R := E.reactor 9 ∅
  have hReplay : ((R.step (R.initialState ∅) (.pop .accepted)).bind fun s' =>
      (replay R.step (fun _ _ => True) [.finish 0 (.ok .null) 2] s').map fun t =>
        decide (.executed 0 ∈ t.history)) = some true := by
    decide
  obtain ⟨first, hFirst, hRest⟩ := Option.bind_eq_some_iff.1 hReplay
  obtain ⟨last, hLast, hExecuted⟩ := Option.map_eq_some_iff.1 hRest
  have hAcyclic : E.graph.Acyclic := acyclic_of_rank id (by simp [E, skippedModuleEngine])
  have hNever := hAll _ E (by decide) 9 ∅ (R.initialState ∅) first last (.pop .accepted) 0
    ⟨hAcyclic, .refl⟩ hFirst (by decide) (by decide) (replay_run hLast)
  exact hNever (of_decide_eq_true hExecuted)

end Samples

end TalosWorkflow
