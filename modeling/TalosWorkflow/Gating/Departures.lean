import TalosWorkflow.Coverage.Runs

/-!
# Departures

The nodes that a step takes out of the ready queue, and what is known about
the nodes that have been started.
-/

namespace TalosWorkflow

open Multigraph

variable {H : Host}

section Definitions

/-- A chain starts all of its members. -/
def startedNodes (history : List Event) : List NodeIndex :=
  history.flatMap fun
    | .dispatched idx => [idx]
    | .chainDispatched members => members
    | _ => []

def Flight.nodes : Flight → List NodeIndex
  | .single idx _ => [idx]
  | .chain members _ => members

/-- The nodes that leave the ready queue, together with those that run in their wake. -/
def Reactor.leaving (R : Reactor H) (s : State) : Action → List NodeIndex
  | .pop _ =>
      match s.ready with
      | [] => []
      | idx :: rest =>
          match R.chainOf idx with
          | some members => if R.isChainHead idx then members else [idx]
          | none =>
              if R.skips s idx = none ∧ R.isSubWorkflowNode idx = true then
                idx :: rest.filter R.isSubWorkflowNode
              else [idx]
  | _ => []

def Reactor.skipsFirst (R : Reactor H) (s : State) (n : NodeIndex) : Prop :=
  R.chainOf n = none ∧ s.ready.head? = some n ∧ (R.skips s n).isSome = true

instance (R : Reactor H) (s : State) (n : NodeIndex) : Decidable (R.skipsFirst s n) := by
  unfold Reactor.skipsFirst
  infer_instance

structure Tracked (s : State) : Prop where
  executed : ∀ n, .executed n ∈ s.history → n ∈ startedNodes s.history
  flights : ∀ flight ∈ s.executing, ∀ n ∈ flight.nodes, n ∈ startedNodes s.history
  batched : ∀ entry ∈ s.batch, entry.1 ∈ startedNodes s.history

end Definitions

section Started

variable {events history : List Event} {n : NodeIndex}

theorem startedNodes_cons (event : Event) :
    startedNodes (event :: history) = startedNodes [event] ++ startedNodes history := by
  simp [startedNodes]

@[simp]
theorem startedNodes_append :
    startedNodes (events ++ history) = startedNodes events ++ startedNodes history :=
  List.flatMap_append

theorem mem_startedNodes : n ∈ startedNodes history ↔
    .dispatched n ∈ history ∨ ∃ members, .chainDispatched members ∈ history ∧ n ∈ members := by
  simp only [startedNodes, List.mem_flatMap]
  constructor
  · rintro ⟨event, hEvent, hn⟩
    cases event with
    | dispatched idx =>
        obtain rfl := List.mem_singleton.1 hn
        exact .inl hEvent
    | chainDispatched members => exact .inr ⟨members, hEvent, hn⟩
    | enqueued | executed | aggregated | released | skipped | underflow => cases hn
  · rintro (h | ⟨members, h, hn⟩)
    · exact ⟨_, h, List.mem_singleton_self n⟩
    · exact ⟨_, h, hn⟩

theorem startedNodes_dispatched (nodes : List NodeIndex) :
    startedNodes (nodes.map .dispatched) = nodes := by
  induction nodes with
  | nil => rfl
  | cons idx nodes ih =>
      rw [List.map_cons, startedNodes_cons, ih]
      rfl

theorem startedNodes_executed (nodes : List NodeIndex) :
    startedNodes (nodes.map .executed) = [] := by
  induction nodes with
  | nil => rfl
  | cons idx nodes ih =>
      rw [List.map_cons, startedNodes_cons, ih]
      rfl

end Started

section Moves

variable {R : Reactor H} {s t base : State} {idx : NodeIndex} {rest : List NodeIndex}
  {answer : Answer}

theorem leaving_chain (hReady : s.ready = idx :: rest) {members : List NodeIndex}
    (hChain : R.chainOf idx = some members) (hHead : members.head? = some idx) :
    R.leaving s (.pop answer) = members := by
  have hIs : R.isChainHead idx = true := by
    rw [Reactor.isChainHead, List.any_eq_true]
    exact ⟨members, (chainOf_eq_some hChain).1, by simpa using hHead⟩
  simp [Reactor.leaving, hReady, hChain, hIs]

theorem leaving_drained (hReady : s.ready = idx :: rest) (hPlain : R.chainOf idx = none)
    (hSkips : R.skips s idx = none) (hKind : R.isSubWorkflowNode idx = true) :
    R.leaving s (.pop answer) = idx :: rest.filter R.isSubWorkflowNode := by
  simp [Reactor.leaving, hReady, hPlain, hSkips, hKind]

theorem mem_leaving (hReady : s.ready = idx :: rest) (hPlain : R.chainOf idx = none) :
    idx ∈ R.leaving s (.pop answer) := by
  simp only [Reactor.leaving, hReady, hPlain]
  split
  · exact List.mem_cons_self
  · exact List.mem_singleton_self idx

theorem skipsFirst_iff (hReady : s.ready = idx :: rest) (hPlain : R.chainOf idx = none) :
    R.skipsFirst s idx ↔ (R.skips s idx).isSome = true := by
  simp [Reactor.skipsFirst, hReady, hPlain]

theorem visited_results {visit : Visit} (h : Reactor.Visited R s visit t) :
    t.results = s.results ∨ t.results = s.results.insert (R.nodeId visit.target) skippedMark := by
  cases h with
  | marked => exact .inr rfl
  | counted => exact .inl rfl
  | enqueued => exact .inl rfl
  | cascaded =>
      rw [Reactor.cascadeSkip_eq]
      exact .inr rfl
  | wrapped => exact .inl rfl

/-- The events of a visit enqueue its target or report its counter. -/
theorem visited_history {visit : Visit} (h : Reactor.Visited R s visit t) :
    ∃ events, t.history = events ++ s.history ∧
      ∀ event ∈ events, event = .enqueued visit.target ∨ event = .underflow visit.target := by
  have hFilled : ∀ {events}, Reactor.Fills R s visit.target events →
      ∀ event ∈ events, event = .enqueued visit.target ∨ event = .underflow visit.target := by
    intro events hFills event hEvent
    cases hFills with
    | filled => cases hEvent
    | wrapped => exact .inr (List.mem_singleton.1 hEvent)
  cases h with
  | marked => exact ⟨[], rfl, fun _ h => absurd h List.not_mem_nil⟩
  | counted => exact ⟨[], rfl, fun _ h => absurd h List.not_mem_nil⟩
  | enqueued events _ hFills =>
      refine ⟨.enqueued visit.target :: events, rfl, fun event hEvent => ?_⟩
      obtain rfl | hEvent := List.mem_cons.1 hEvent
      · exact .inl rfl
      · exact hFilled hFills event hEvent
  | cascaded events _ _ hFills =>
      rw [Reactor.cascadeSkip_eq]
      exact ⟨events, rfl, hFilled hFills⟩
  | wrapped =>
      exact ⟨[.underflow visit.target], rfl, fun _ h => .inr (List.mem_singleton.1 h)⟩

theorem visited_queues {visit : Visit} (h : Reactor.Visited R s visit t) :
    t.executing = s.executing ∧ t.batch = s.batch ∧ t.status = s.status := by
  cases h with
  | cascaded =>
      rw [Reactor.cascadeSkip_eq]
      exact ⟨rfl, rfl, rfl⟩
  | marked => exact ⟨rfl, rfl, rfl⟩
  | counted => exact ⟨rfl, rfl, rfl⟩
  | enqueued => exact ⟨rfl, rfl, rfl⟩
  | wrapped => exact ⟨rfl, rfl, rfl⟩

theorem startedNodes_visited {events : List Event} {target : NodeIndex}
    (h : ∀ event ∈ events, event = .enqueued target ∨ event = .underflow target) :
    startedNodes events = [] := by
  induction events with
  | nil => rfl
  | cons event events ih =>
      rw [startedNodes_cons, ih fun other hOther => h other (List.mem_cons_of_mem event hOther)]
      obtain rfl | rfl := h event List.mem_cons_self
      · rfl
      · rfl

/-- The nodes that a flight completes or has executed belong to it. -/
theorem Lands.nodes_subset {result : Except String Json} {ran : Nat} {flight : Flight}
    {nodes : List NodeIndex} (h : Lands result ran flight idx nodes) :
    idx ∈ flight.nodes ∧ nodes ⊆ flight.nodes := by
  cases h with
  | single parents => exact ⟨List.mem_singleton_self idx, List.Subset.refl _⟩
  | chain members parents _ hTail =>
      refine ⟨List.mem_of_mem_getLast? hTail, fun n hn => ?_⟩
      exact List.mem_of_mem_take (List.mem_reverse.1 hn)

theorem visited_work {visit : Visit} (h : Reactor.Visited R s visit t) {n : NodeIndex}
    (hn : n ∈ t.work) : n ∈ s.work ∨ n = visit.target := by
  cases h with
  | cascaded =>
      rw [Reactor.cascadeSkip_eq] at hn
      exact .inl hn
  | marked => exact .inl hn
  | counted => exact .inl hn
  | enqueued => exact (State.mem_enqueue_work.1 hn).symm
  | wrapped => exact .inl hn

end Moves

section Tracking

variable {R : Reactor H} {s t base : State} {action : Action}

theorem Tracked.append (h : Tracked s) {events : List Event} (hHistory : t.history = events ++ s.history)
    (hExecuted : ∀ n, .executed n ∈ events → n ∈ startedNodes t.history)
    (hFlights : ∀ flight ∈ t.executing, flight ∈ s.executing ∨
      ∀ n ∈ flight.nodes, n ∈ startedNodes events)
    (hBatch : ∀ entry ∈ t.batch, entry ∈ s.batch ∨ entry.1 ∈ startedNodes events) : Tracked t := by
  have hOld : ∀ n, n ∈ startedNodes s.history → n ∈ startedNodes t.history := by
    intro n hn
    rw [hHistory, startedNodes_append]
    exact List.mem_append_right _ hn
  have hNew : ∀ n, n ∈ startedNodes events → n ∈ startedNodes t.history := by
    intro n hn
    rw [hHistory, startedNodes_append]
    exact List.mem_append_left _ hn
  constructor
  · intro n hn
    rw [hHistory, List.mem_append] at hn
    obtain hn | hn := hn
    · exact hExecuted n hn
    · exact hOld n (h.executed n hn)
  · intro flight hFlight n hn
    obtain hFlight | hFlight := hFlights flight hFlight
    · exact hOld n (h.flights flight hFlight n hn)
    · exact hNew n (hFlight n hn)
  · intro entry hEntry
    obtain hEntry | hEntry := hBatch entry hEntry
    · exact hOld _ (h.batched entry hEntry)
    · exact hNew _ hEntry

theorem Concluding.executed_started {start idx n : NodeIndex} {events : List Event}
    {mode : Completion} {value : Json} (hTracked : Tracked s)
    (h : Concluding R s action start idx base events mode value) (hn : .executed n ∈ events) :
    n ∈ startedNodes (events ++ s.history) := by
  rw [startedNodes_append]
  cases h with
  | stored _ _ rest _ hBatch =>
      refine List.mem_append_right _ ?_
      obtain rfl : n = start := by simpa using hn
      exact hTracked.batched (n, value) (hBatch ▸ List.mem_cons_self)
  | popped _ rest answer _ _ _ _ _ _ _ hSettles =>
      refine List.mem_append_left _ ?_
      cases hSettles with
      | skipped => simp at hn
      | refused => simp at hn
      | handled =>
          rw [Reactor.handledEvents] at hn ⊢
          split at hn <;> rename_i hIs
          · rw [if_pos hIs]
            simpa [mem_startedNodes] using hn
          · rw [if_neg hIs]
            simpa [mem_startedNodes] using hn
  | returned position result ran flight _ nodes _ _ _ _ _ hFlight hLands =>
      refine List.mem_append_right _ ?_
      have hNode : n ∈ nodes := by simpa using hn
      exact hTracked.flights flight (List.mem_of_getElem? hFlight) n (hLands.nodes_subset.2 hNode)

theorem Tracked.step (hOrderly : Orderly R s) (h : Tracked s) (hStep : R.step s action = some t) :
    Tracked t := by
  obtain ⟨-, hStepped | ⟨e, -, rfl⟩⟩ := Reactor.step_cases hStep
  · cases hOrderly.moved hStepped with
    | visited visit rest _ hVisits hVisit =>
        obtain ⟨events, hHistory, hEvents⟩ := visited_history hVisit
        obtain ⟨hExecuting, hBatch, -⟩ := visited_queues hVisit
        refine h.append hHistory (fun n hn => ?_) ?_ ?_
        · obtain hEvent | hEvent := hEvents _ hn
          · cases hEvent
          · cases hEvent
        · exact fun flight hFlight => .inl (hExecuting ▸ hFlight)
        · exact fun entry hEntry => .inl (hBatch ▸ hEntry)
    | concluded _ start idx base events mode value hConcluding =>
        have hHistory : (R.conclude base idx mode value).history =
            (.released idx :: events) ++ s.history := by
          rw [Reactor.conclude_history, hConcluding.shifted.history]
          rfl
        refine h.append hHistory (fun n hn => ?_) ?_ ?_
        · have hEvent : .executed n ∈ events := by simpa using hn
          rw [hHistory, List.cons_append, startedNodes_cons]
          exact List.mem_append_right _ (hConcluding.executed_started h hEvent)
        · rw [Reactor.conclude_executing]
          exact fun flight hFlight => .inl (hConcluding.queues.1 hFlight)
        · rw [Reactor.conclude_batch]
          exact fun entry hEntry => .inl (hConcluding.queues.2 hEntry)
    | relocated _ _ events hRelocating =>
        refine h.append hRelocating.shifted.history (fun n hn => ?_) ?_ ?_
        · cases hRelocating with
          | launchedSingle => simp at hn
          | launchedChain => simp at hn
          | drained => simp at hn
        · intro flight hFlight
          cases hRelocating with
          | launchedSingle =>
              refine (List.mem_append.1 hFlight).imp_right fun hNew => ?_
              rw [List.mem_singleton.1 hNew]
              exact fun n hn => hn
          | launchedChain =>
              refine (List.mem_append.1 hFlight).imp_right fun hNew => ?_
              rw [List.mem_singleton.1 hNew]
              intro n hn
              exact mem_startedNodes.2 (.inr ⟨_, List.mem_singleton_self _, hn⟩)
          | drained => exact .inl hFlight
        · intro entry hEntry
          cases hRelocating with
          | launchedSingle => exact .inl hEntry
          | launchedChain => exact .inl hEntry
          | drained =>
              refine .inr ?_
              rw [startedNodes_dispatched, List.mem_reverse]
              exact (List.of_mem_zip hEntry).1
    | paused idx rest answer waiting =>
        have hHistory : (R.pauseAt { s with ready := rest } idx waiting).history =
            [.executed idx, .dispatched idx] ++ s.history := rfl
        refine h.append hHistory (fun n hn => ?_) (fun flight hFlight => .inl hFlight)
          fun entry hEntry => .inl hEntry
        obtain rfl : n = idx := by simpa using hn
        simp [Reactor.handled, mem_startedNodes]
  · cases e with
    | failed message => exact ⟨h.executed, h.flights, h.batched⟩
    | counterUnderflow idx =>
        have hHistory : (s.halt (.counterUnderflow idx)).history =
            [.underflow idx] ++ s.history := rfl
        refine h.append hHistory (fun n hn => ?_) (fun flight hFlight => .inl hFlight)
          fun entry hEntry => .inl hEntry
        simp at hn
    | charBoundary => exact ⟨h.executed, h.flights, h.batched⟩

theorem history_suffix (hOrderly : Orderly R s) (hStep : R.step s action = some t) :
    s.history <:+ t.history := by
  obtain ⟨-, hStepped | ⟨e, -, rfl⟩⟩ := Reactor.step_cases hStep
  · cases hOrderly.moved hStepped with
    | visited visit rest _ hVisits hVisit =>
        obtain ⟨events, hHistory, -⟩ := visited_history hVisit
        exact ⟨events, hHistory.symm⟩
    | concluded _ start idx base events mode value hConcluding =>
        rw [Reactor.conclude_history, hConcluding.shifted.history]
        exact ⟨.released idx :: events, rfl⟩
    | relocated _ _ events hRelocating => exact ⟨events, hRelocating.shifted.history.symm⟩
    | paused idx rest answer waiting => exact ⟨[.executed idx, .dispatched idx], rfl⟩
  · cases e with
    | failed message => exact List.suffix_refl _
    | counterUnderflow idx => exact List.suffix_cons _ _
    | charBoundary => exact List.suffix_refl _

end Tracking

section Runs

variable {E : ParallelWorkflowEngine H} {executionId : Uuid} {initialResults : Table Json}
  {allowed : Reactor H → State → Action → Prop} {s : State}

theorem reactor_fresh_or_seeded (E : ParallelWorkflowEngine H) (executionId : Uuid)
    (initialResults : Table Json) :
    (E.reactor executionId initialResults).chains = [] ∨ initialResults = ∅ := by
  simp only [ParallelWorkflowEngine.reactor]
  split
  · rename_i hEmpty
    refine .inr (AList.ext ?_)
    rw [List.isEmpty_iff.1 hEmpty]
    rfl
  · exact .inl rfl

theorem step_running {R : Reactor H} {s t : State} {action : Action}
    (hStep : R.step s action = some t) (hRunning : t.status = .running) :
    ∃ _ : s.status = .running, Reactor.Stepped R s action t := by
  obtain ⟨hBefore, hStepped | ⟨e, -, rfl⟩⟩ := Reactor.step_cases hStep
  · exact ⟨hBefore, hStepped⟩
  · cases e with
    | failed message => cases hRunning
    | counterUnderflow idx => cases hRunning
    | charBoundary => cases hRunning

theorem Orderly.of_runs (hRun : E.Runs executionId initialResults allowed s) :
    s.status = .running → Orderly (E.reactor executionId initialResults) s := by
  have hChains := reactor_chainsDetected E executionId initialResults
  refine Run.invariant
    (fun s => s.status = .running → Orderly (E.reactor executionId initialResults) s) ?_ hRun.2
    fun _ => Orderly.initial hChains (reactor_fresh_or_seeded E executionId initialResults)
  intro s action t _ hInv hStep hRunning
  obtain ⟨hBefore, hStepped⟩ := step_running hStep hRunning
  exact (hInv hBefore).step hRun.1 hChains ((hInv hBefore).moved hStepped) hRunning

/-- An invariant of a run may assume that the state before a step is orderly. -/
theorem runs_invariant (I : State → Prop) (hRun : E.Runs executionId initialResults allowed s)
    (hStart : I ((E.reactor executionId initialResults).initialState initialResults))
    (hStep : ∀ s action t, Orderly (E.reactor executionId initialResults) s →
      allowed (E.reactor executionId initialResults) s action → I s →
        (E.reactor executionId initialResults).step s action = some t → I t) : I s := by
  obtain ⟨hAcyclic, hRun⟩ := hRun
  induction hRun with
  | refl => exact hStart
  | tail hFirst hLast ih =>
      obtain ⟨action, hAllowed, hEq⟩ := hLast
      exact hStep _ action _ (Orderly.of_runs ⟨hAcyclic, hFirst⟩ (Reactor.step_cases hEq).1) hAllowed
        ih hEq

theorem Tracked.initial {R : Reactor H} : Tracked (R.initialState initialResults) := by
  constructor
  · intro n hn
    simp [Reactor.initialState] at hn
  · exact fun flight hFlight => absurd hFlight List.not_mem_nil
  · exact fun entry hEntry => absurd hEntry List.not_mem_nil

theorem Tracked.of_runs (hRun : E.Runs executionId initialResults allowed s) : Tracked s :=
  runs_invariant Tracked hRun .initial fun _ _ _ hOrderly _ h hStep => h.step hOrderly hStep

end Runs

end TalosWorkflow
