import TalosWorkflow.Exits.Context
import TalosWorkflow.Ledger.Retirement
import TalosWorkflow.Timelines.Events

/-!
# Causes before effects

A node is written as started behind the ends of its predecessors, however the
spawned writes are scheduled.
-/

namespace TalosWorkflow

open Multigraph

variable {H : Host} {R : Reactor H} {s t : State}

section Steps

variable {p n : NodeIndex} {concluded cascaded : List NodeIndex} {action : Action}

theorem handlerVerdict_kind {idx : NodeIndex} {answer : Answer} {verdict : Completion × Json}
    (h : R.handlerVerdict idx (R.kindOf (R.nodeId idx)) answer = some verdict) :
    R.runsModule idx = false ∧ R.isSubWorkflowNode idx = false := by
  unfold Reactor.runsModule Reactor.isSubWorkflowNode
  cases hKind : R.kindOf (R.nodeId idx) with
  | none =>
      rw [hKind] at h
      cases answer <;> cases h
  | some kind =>
      rw [hKind] at h
      cases kind <;> cases answer <;> first | exact ⟨rfl, rfl⟩ | cases h

/-- Whoever pauses the run is a node that waits or a gate for approvals. -/
theorem paused_envelope {idx : NodeIndex} {rest : List NodeIndex} {answer : Answer}
    (hStep : R.step s (.pop answer) = some t) (hPaused : t.status = .paused)
    (hReady : s.ready = idx :: rest) :
    ∃ waiting, R.pauseEnvelope idx (R.kindOf (R.nodeId idx)) answer = some waiting := by
  obtain ⟨-, hNot⟩ | ⟨n, waiting, hPausing, -, -⟩ := Reactor.step_pausing hStep
  · exact absurd hPaused hNot
  · obtain ⟨m, hHead, hPausing⟩ := Option.bind_eq_some_iff.1 hPausing
    obtain ⟨envelope, hEnvelope, -⟩ := Option.map_eq_some_iff.1 hPausing
    rw [Reactor.handledHead_eq hReady] at hHead
    split at hHead
    · cases hHead
      exact ⟨envelope, hEnvelope⟩
    · cases hHead

theorem paused_kind {idx : NodeIndex} {rest : List NodeIndex} {answer : Answer}
    (hStep : R.step s (.pop answer) = some t) (hPaused : t.status = .paused)
    (hReady : s.ready = idx :: rest) :
    R.runsModule idx = false ∧ R.isSubWorkflowNode idx = false := by
  obtain ⟨waiting, hEnvelope⟩ := paused_envelope hStep hPaused hReady
  unfold Reactor.runsModule Reactor.isSubWorkflowNode
  unfold Reactor.pauseEnvelope at hEnvelope
  split at hEnvelope
  · rename_i hKind
    rw [hKind]
    exact ⟨rfl, rfl⟩
  · rename_i hKind
    rw [hKind]
    exact ⟨rfl, rfl⟩
  · cases hEnvelope

/-- The node has run, and its end is awaited when it is written. -/
def Reported (R : Reactor H) (p : NodeIndex) (s : State) : Prop :=
  R.runsModule p = true ∧ .executed p ∈ s.history ∨
    R.isSubWorkflowNode p = true ∧ .dispatched p ∈ s.history

/-- A node that is reported by now was so before, or one of the new events reports it. -/
theorem Reported.of_append {events : List Event} {P : Prop}
    (hHistory : t.history = events ++ s.history) (h : Reported R p t)
    (hExecuted : R.runsModule p = true → .executed p ∈ events → P)
    (hDispatched : R.isSubWorkflowNode p = true → .dispatched p ∈ events → P) :
    Reported R p s ∨ P := by
  unfold Reported at h ⊢
  rw [hHistory, List.mem_append, List.mem_append] at h
  obtain ⟨hKind, hNew | hOld⟩ | ⟨hKind, hNew | hOld⟩ := h
  · exact .inr (hExecuted hKind hNew)
  · exact .inl (.inl ⟨hKind, hOld⟩)
  · exact .inr (hDispatched hKind hNew)
  · exact .inl (.inr ⟨hKind, hOld⟩)

theorem not_isSubWorkflowNode {idx : NodeIndex} (h : R.runsModule idx = true) :
    R.isSubWorkflowNode idx = false := by
  unfold Reactor.runsModule at h
  unfold Reactor.isSubWorkflowNode
  split at h
  · rename_i hKind
    rw [hKind]
  · rename_i hKind
    rw [hKind]
  · cases h

variable {timed : TimedAction}

/-- A future that returns has its end written for the node that it completes. -/
theorem awaitedWrites_finish {position : Nat} {result : Except String Json} {ran : Nat}
    {flight : Flight} {idx : NodeIndex} {nodes : List NodeIndex}
    (hAction : timed.action = .finish position result ran)
    (hFlight : s.executing[position]? = some flight) (hLands : Lands result ran flight idx nodes) :
    R.awaitedWrites s timed = [R.futureEvent idx result] := by
  have hCompletes : flight.completes = some idx := by
    cases hLands with
    | single parents => rfl
    | chain members parents _ hTail => exact hTail
  simp only [Reactor.awaitedWrites, hAction, hFlight, Option.bind_some, hCompletes]

theorem awaitedWrites_drained {idx : NodeIndex} {rest : List NodeIndex} {values : List Json}
    (hAction : timed.action = .pop (.outputs values)) (hReady : s.ready = idx :: rest)
    (hPlain : R.chainOf idx = none) (hSkips : R.skips s idx = none)
    (hKind : R.isSubWorkflowNode idx = true) :
    R.awaitedWrites s timed = ((R.subWorkflowBatch idx rest).zip values).map fun entry =>
      R.subWorkflowEvent entry.1 entry.2 (timed.elapsedMs entry.1) := by
  have hCheck : R.checkSkipCondition idx s.results = none := by
    unfold Reactor.skips at hSkips
    split at hSkips
    · cases hSkips
    · assumption
  unfold Reactor.isSubWorkflowNode at hKind
  split at hKind
  · rename_i hIs
    simp only [Reactor.awaitedWrites, hAction, hReady, hPlain, hCheck, hIs, Reactor.awaitedByKind]
    rfl
  · cases hKind

/-- What a popped node settles by itself is no module and no sub-workflow. -/
theorem Settles.kind {idx : NodeIndex} {answer : Answer} {events : List Event} {mode : Completion}
    {value : Json} (h : Settles R s idx answer events mode value)
    (hIn : .executed p ∈ events ∨ .dispatched p ∈ events) :
    R.runsModule p = false ∧ R.isSubWorkflowNode p = false := by
  cases h with
  | skipped => simp at hIn
  | refused => simp at hIn
  | handled _ _ _ hVerdict =>
      have hIs : p = idx := by
        unfold Reactor.handledEvents at hIn
        split at hIn <;> simpa using hIn
      rw [hIs]
      exact handlerVerdict_kind hVerdict

/-- An executed node that is not inside its chain is the one that the flight completes. -/
theorem Lands.eq_of_mem {result : Except String Json} {ran : Nat} {flight : Flight}
    {idx : NodeIndex} {nodes : List NodeIndex} (h : Lands result ran flight idx nodes)
    (hChains : R.ChainsDetected) (hFlight : flight.WellFormed R) (hInner : ¬ R.IsInner p)
    (hIn : p ∈ nodes) : p = idx := by
  cases h with
  | single parents => exact List.mem_singleton.1 hIn
  | chain members parents _ hTail =>
      have hMember := List.mem_of_mem_take (List.mem_reverse.1 hIn)
      obtain ⟨hMembers, head, hHead⟩ := hFlight
      have hIsTail := isTail_of_getLast? hChains hMembers hHead hTail
      refine (hIsTail.eq_or_isInner ?_).resolve_right hInner
      rw [Reactor.members, chainOf_of_mem hChains hMembers (List.mem_of_mem_head? hHead)]
      exact hMember

theorem Reported.of_concluding {start idx : NodeIndex} {base : State} {events : List Event}
    {mode : Completion} {value : Json} (hChains : R.ChainsDetected) (hOrderly : Orderly R s)
    (hBatch : ∀ entry ∈ s.batch, R.isSubWorkflowNode entry.1 = true) (hInner : ¬ R.IsInner p)
    (hConcluding : Concluding R s timed.action start idx base events mode value)
    (h : Reported R p (R.conclude base idx mode value)) :
    Reported R p s ∨ ∃ e ∈ R.awaitedWrites s timed, e.Ends (R.nodeId p) := by
  have hHistory : (R.conclude base idx mode value).history =
      (.released idx :: events) ++ s.history := by
    rw [Reactor.conclude_history, hConcluding.shifted.history]
    rfl
  generalize hAction : timed.action = action at hConcluding
  cases hConcluding with
  | stored _ _ rest _ hCons =>
      have hSub := hBatch (start, value) (hCons ▸ List.mem_cons_self)
      refine h.of_append hHistory (fun hKind hNew => ?_) fun _ hNew => ?_
      · have hIs : p = start := by simpa using hNew
        rw [hIs] at hKind
        rw [not_isSubWorkflowNode hKind] at hSub
        cases hSub
      · simp at hNew
  | popped _ rest answer _ _ _ _ _ hReady hPlain hSettles =>
      refine h.of_append hHistory (fun hKind hNew => ?_) fun hKind hNew => ?_
      · rw [(hSettles.kind (.inl (by simpa using hNew))).1] at hKind
        cases hKind
      · rw [(hSettles.kind (.inr (by simpa using hNew))).2] at hKind
        cases hKind
  | returned position result ran flight _ nodes _ _ _ _ _ hFlight hLands =>
      refine h.of_append hHistory (fun _ hNew => ?_) fun _ hNew => ?_
      · have hIs : p = idx := hLands.eq_of_mem hChains
          (hOrderly.flights _ (List.mem_of_getElem? hFlight)) hInner (by simpa using hNew)
        refine ⟨R.futureEvent idx result, ?_, ?_⟩
        · rw [awaitedWrites_finish hAction hFlight hLands]
          exact List.mem_singleton_self _
        · rw [hIs]
          exact ((endOf_futureEvent result).ends _).2 rfl
      · simp at hNew

theorem Reported.of_relocating {events : List Event}
    (hRelocating : Relocating R s timed.action t events) (h : Reported R p t) :
    Reported R p s ∨ ∃ e ∈ R.awaitedWrites s timed, e.Ends (R.nodeId p) := by
  have hHistory := hRelocating.shifted.history
  generalize hAction : timed.action = action at hRelocating
  cases hRelocating with
  | launchedSingle idx rest _ _ _ _ _ hKind =>
      refine h.of_append hHistory (fun _ hNew => ?_) fun hSub hNew => ?_
      · simp at hNew
      · have hIs : p = idx := by simpa using hNew
        rw [hIs, not_isSubWorkflowNode hKind] at hSub
        cases hSub
  | launchedChain =>
      refine h.of_append hHistory (fun _ hNew => ?_) fun _ hNew => ?_
      · simp at hNew
      · simp at hNew
  | drained idx rest values hVisits hNone hReady hPlain hSkips hKind hLength =>
      refine h.of_append hHistory (fun _ hNew => ?_) fun _ hNew => ?_
      · simp at hNew
      · have hIn : p ∈ idx :: rest.filter R.isSubWorkflowNode := by
          simpa [or_comm] using hNew
        rw [← List.map_fst_zip hLength.ge, List.mem_map] at hIn
        obtain ⟨entry, hEntry, rfl⟩ := hIn
        refine ⟨_, ?_, ((endOf_subWorkflowEvent entry.2
          (timed.elapsedMs entry.1)).ends _).2 rfl⟩
        rw [awaitedWrites_drained hAction hReady hPlain hSkips hKind]
        exact List.mem_map.2 ⟨entry, hEntry, rfl⟩

/-- The step after which a node has run is the one whose write of its end is awaited. -/
theorem Reported.step (hChains : R.ChainsDetected) (hOrderly : Orderly R s)
    (hBatch : ∀ entry ∈ s.batch, R.isSubWorkflowNode entry.1 = true) (hInner : ¬ R.IsInner p)
    (hStep : R.step s timed.action = some t) (h : Reported R p t) :
    Reported R p s ∨ ∃ e ∈ R.awaitedWrites s timed, e.Ends (R.nodeId p) := by
  obtain ⟨-, hStepped | ⟨e, -, rfl⟩⟩ := Reactor.step_cases hStep
  · have hMoved := hOrderly.moved hStepped
    generalize hAction : timed.action = action at hMoved hStep
    cases hMoved with
    | visited visit rest _ hVisits hVisit =>
        obtain ⟨events, hHistory, hEvents⟩ := visited_history hVisit
        refine h.of_append hHistory (fun _ hNew => ?_) fun _ hNew => ?_
        · obtain hNot | hNot := hEvents _ hNew <;> cases hNot
        · obtain hNot | hNot := hEvents _ hNew <;> cases hNot
    | concluded _ start idx base events mode value hConcluding =>
        exact h.of_concluding hChains hOrderly hBatch hInner (hAction ▸ hConcluding)
    | relocated _ _ events hRelocating => exact h.of_relocating (hAction ▸ hRelocating)
    | paused idx rest answer waiting hVisits hNone hReady hPlain hSkips =>
        obtain ⟨hModule, hSub⟩ := paused_kind hStep rfl hReady
        refine h.of_append (show _ = [.executed idx, .dispatched idx] ++ s.history from rfl)
          (fun hKind hNew => ?_) fun hKind hNew => ?_
        · have hIs : p = idx := by simpa using hNew
          rw [hIs, hModule] at hKind
          cases hKind
        · have hIs : p = idx := by simpa using hNew
          rw [hIs, hSub] at hKind
          cases hKind
  · cases e with
    | failed message => exact .inl h
    | counterUnderflow idx =>
        refine h.of_append (show _ = [.underflow idx] ++ s.history from rfl)
          (fun _ hNew => ?_) fun _ hNew => ?_
        · simp at hNew
        · simp at hNew
    | charBoundary => exact .inl h

end Steps

section Journals

variable {E : ParallelWorkflowEngine H} {executionId : Uuid} {p c : NodeIndex}
  {j : Journal State NodeEventWrite}

theorem run_of_scribe {u : State} (hRun : Run R.scribe.step (fun _ _ => True) s u) :
    Run R.step (fun _ _ => True) s u := by
  induction hRun with
  | refl => exact .refl
  | tail _ hLast ih =>
      obtain ⟨timed, -, hStep⟩ := hLast
      exact ih.tail ⟨timed.action, trivial, hStep⟩

theorem batch_isSubWorkflowNode {initialResults : Table Json}
    {allowed : Reactor H → State → Action → Prop}
    (hRun : E.Runs executionId initialResults allowed s) :
    ∀ entry ∈ s.batch,
      (E.reactor executionId initialResults).isSubWorkflowNode entry.1 = true := by
  refine runs_invariant (fun s => ∀ entry ∈ s.batch,
    (E.reactor executionId initialResults).isSubWorkflowNode entry.1 = true) hRun
    (fun entry hEntry => absurd hEntry List.not_mem_nil) ?_
  intro s action t hOrderly _ hInv hStep
  obtain ⟨-, hStepped | ⟨e, -, rfl⟩⟩ := Reactor.step_cases hStep
  · cases hOrderly.moved hStepped with
    | visited visit rest _ hVisits hVisit =>
        rw [(visited_queues hVisit).2.1]
        exact hInv
    | concluded _ start idx base events mode value hConcluding =>
        rw [Reactor.conclude_batch]
        exact fun entry hEntry => hInv entry (hConcluding.queues.2 hEntry)
    | relocated _ _ events hRelocating =>
        cases hRelocating with
        | launchedSingle => exact hInv
        | launchedChain => exact hInv
        | drained idx rest values _ _ _ _ _ hKind =>
            intro entry hEntry
            obtain hIs | hIs := List.mem_cons.1 (List.of_mem_zip hEntry).1
            · exact hIs ▸ hKind
            · exact (List.mem_filter.1 hIs).2
    | paused => exact hInv
  · cases e <;> exact hInv

theorem ready_of_mem_batch {idx n : NodeIndex} {rest : List NodeIndex}
    (hReady : s.ready = idx :: rest) (hn : n ∈ R.subWorkflowBatch idx rest) : n ∈ s.ready := by
  rw [hReady]
  obtain rfl | hRest := List.mem_cons.1 hn
  · exact List.mem_cons_self
  · exact List.mem_cons_of_mem _ (List.mem_filter.1 hRest).1

variable {timed : TimedAction} {e : NodeEventWrite}

theorem detached_not_ends
    (hKind : ∀ kind, R.kindOf (R.nodeId p) = some kind → kind.endsDetached = false)
    (he : e ∈ (R.detachedWrites s timed).flatten) : ¬ e.Ends (R.nodeId p) := by
  obtain ⟨idx, rest, -, ⟨n, -, rfl⟩ | rfl | ⟨kind, hIs, hDetached, hEnd⟩⟩ := mem_detachedWrites he
  · exact not_ends_nodeStarted
  · exact not_ends_nodeSkipped
  · intro hEnds
    rw [(hEnd.ends _).1 hEnds] at hIs
    rw [hKind kind hIs] at hDetached
    cases hDetached

/-- A node is written as started when it leaves the ready queue. -/
theorem ready_of_starts {id : Uuid}
    (he : e ∈ R.awaitedWrites s timed ∨ e ∈ (R.detachedWrites s timed).flatten)
    (hStarts : e.Starts id) : ∃ n ∈ s.ready, R.nodeId n = id := by
  obtain he | he := he
  · obtain ⟨_, _, _, -, -, -, -, n, -, hEnd⟩ | ⟨_, _, _, _, _, -, -, -, hEnd⟩ :=
      mem_awaitedWrites he
    · exact absurd hStarts (hEnd.starts id)
    · exact absurd hStarts (hEnd.starts id)
  · obtain ⟨idx, rest, hReady, ⟨n, hn, rfl⟩ | rfl | ⟨_, -, -, hEnd⟩⟩ := mem_detachedWrites he
    · exact ⟨n, ready_of_mem_batch hReady hn, starts_nodeStarted.1 hStarts⟩
    · exact absurd hStarts not_starts_nodeSkipped
    · exact absurd hStarts (hEnd.starts id)

theorem Ledger.retired_of_ready {concluded cascaded : List NodeIndex} (hChains : R.ChainsDetected)
    (h : Ledger R s concluded cascaded) (hJoins : R.joinsEarly c = false) (hc : c ∈ s.ready)
    (hArc : R.graph.Arc p c) : ¬ R.IsInner p ∧ Retired R s p := by
  have hEnqueued := h.ready_enqueued hc
  refine ⟨fun hInner => h.leaders c (.inl hEnqueued) (isFollower_of_arc hChains hInner hArc), ?_⟩
  exact h.retired (h.predecessors_resolved (h.settled c (.inl hEnqueued)) hJoins hArc)

theorem flight_start_mem_work {flight : Flight} (h : flight ∈ s.executing) :
    flight.start ∈ s.work :=
  List.mem_append_right _ (List.mem_append_right _ (List.mem_map_of_mem h))

theorem completes_mem_members (hChains : R.ChainsDetected) (hOrderly : Orderly R s)
    {flight : Flight} (hFlight : flight ∈ s.executing) {n : NodeIndex}
    (h : flight.completes = some n) : n ∈ R.members flight.start := by
  have hFlies := hOrderly.flights flight hFlight
  cases flight with
  | single idx parents =>
      cases h
      exact mem_members_self
  | chain members parents =>
      obtain ⟨hMembers, head, hHead⟩ := hFlies
      rw [Flight.start, List.headD_eq_head?_getD, hHead, Option.getD_some, Reactor.members,
        chainOf_of_mem hChains hMembers (List.mem_of_mem_head? hHead)]
      exact List.mem_of_getLast? h

theorem Retired.silent (hChains : R.ChainsDetected) (hIds : R.graph.nodes.Nodup)
    (hOrderly : Orderly R s) (h : Retired R s p) (hp : p < R.graph.nodes.length)
    (he : e ∈ R.awaitedWrites s timed) : ¬ e.Ends (R.nodeId p) := by
  intro hEnds
  obtain ⟨_, idx, rest, -, hReady, -, -, n, hn, hEnd⟩ |
    ⟨_, _, _, flight, n, -, hFlight, hCompletes, hEnd⟩ := mem_awaitedWrites he
  · have hWork := work_of_ready (ready_of_mem_batch hReady hn)
    obtain ⟨hLeader, hLt⟩ := hOrderly.leaders n hWork
    obtain rfl := nodeId_injective hIds hLt hp ((hEnd.ends _).1 hEnds)
    exact h.not_mem_work hChains hLeader mem_members_self hWork
  · have hIn := List.mem_of_getElem? hFlight
    have hWork := flight_start_mem_work hIn
    have hMember := completes_mem_members hChains hOrderly hIn hCompletes
    have hLt := hOrderly.members_lt hChains hWork hMember
    obtain rfl := nodeId_injective hIds hLt hp ((hEnd.ends _).1 hEnds)
    exact h.not_mem_work hChains (hOrderly.leaders _ hWork).1 hMember hWork

/-- No predecessor of `c` has its end written behind a start of `c`. -/
theorem sequences_of_arc (hFanIn : FanInFree E) (hIds : E.graph.nodes.Nodup)
    (hAcyclic : E.graph.Acyclic) (hSink : E.eventSink.isSome = true) (hArc : E.graph.Arc p c)
    (hKind : ∀ kind, E.kindOf (E.nodeId p) = some kind → kind.endsDetached = false) :
    (E.reactor executionId ∅).scribe.Sequences (fun _ _ => True)
      ((E.reactor executionId ∅).initialState ∅)
      (fun s => ¬ (E.reactor executionId ∅).IsInner p ∧
        (s.status = .running → Retired (E.reactor executionId ∅) s p))
      (fun s => ¬ (E.reactor executionId ∅).IsInner p ∧ Reported (E.reactor executionId ∅) p s)
      (·.Ends (E.nodeId p)) (·.Starts (E.nodeId c)) := by
  have hChains := reactor_chainsDetected E executionId ∅
  have hFresh : ∀ s, Run (E.reactor executionId ∅).scribe.step (fun _ _ => True)
      ((E.reactor executionId ∅).initialState ∅) s → E.FreshRun executionId (fun _ _ _ => True) s :=
    fun s hRun => ⟨hAcyclic, run_of_scribe hRun⟩
  have hAwaited : (E.reactor executionId ∅).scribe.awaited =
      (E.reactor executionId ∅).awaitedWrites := by
    funext s timed
    exact if_pos hSink
  have hDetached : (E.reactor executionId ∅).scribe.detached =
      (E.reactor executionId ∅).detachedWrites := by
    funext s timed
    exact if_pos hSink
  constructor
  · intro s timed e he
    rw [hDetached] at he
    exact detached_not_ends hKind he
  · intro s hRun timed t hStep _ e he hStarts
    have hRunning := (Reactor.step_cases hStep).1
    obtain ⟨-, concluded, cascaded, hLedger⟩ :=
      (fan_in_free_ledger hFanIn (hFresh s hRun)).1 hRunning
    rw [Scribe.writes, hAwaited, hDetached, List.mem_append] at he
    obtain ⟨n, hn, hSame⟩ := ready_of_starts he hStarts
    have hOrderly := Orderly.of_runs (hFresh s hRun) hRunning
    obtain rfl := nodeId_injective hIds (hOrderly.leaders n (work_of_ready hn)).2 hArc.target_lt hSame
    have hRetired := hLedger.retired_of_ready hChains
      (hFanIn.joinsEarly_eq_false executionId hArc.target_lt) hn hArc
    exact ⟨hRetired.1, fun _ => hRetired.2⟩
  · intro s hRun timed t hStep _ hClosed
    refine ⟨hClosed.1, fun hAfter => ?_⟩
    have hRunning := (Reactor.step_cases hStep).1
    obtain ⟨hOrderly, concluded, cascaded, hLedger⟩ :=
      (fan_in_free_ledger hFanIn (hFresh s hRun)).1 hRunning
    exact (hClosed.2 hRunning).step hOrderly hLedger
      (hFanIn.countsLiveFanIns hOrderly timed.action) hStep hAfter
  · intro s hRun timed t hStep _ hClosed e he
    have hRunning := (Reactor.step_cases hStep).1
    rw [hAwaited] at he
    exact (hClosed.2 hRunning).silent hChains hIds (Orderly.of_runs (hFresh s hRun) hRunning)
      hArc.source_lt he
  · intro s hRun timed t hStep _ hCaused
    have hRunning := (Reactor.step_cases hStep).1
    rw [hAwaited]
    exact (Reported.step hChains (Orderly.of_runs (hFresh s hRun) hRunning)
      (batch_isSubWorkflowNode (hFresh s hRun)) hCaused.1 hStep hCaused.2).imp_left
      fun hOld => ⟨hCaused.1, hOld⟩
  · rintro ⟨-, ⟨-, hIn⟩ | ⟨-, hIn⟩⟩
    · simp [Reactor.initialState] at hIn
    · simp [Reactor.initialState] at hIn

theorem sink_of_entries (hRun : E.FreshJournal executionId j) (he : e ∈ j.entries) :
    E.eventSink.isSome = true := by
  by_contra hNone
  have hWrites : ∀ s timed, ((E.reactor executionId ∅).scribe.writes s timed) = [] := by
    intro s timed
    rw [Scribe.writes, List.append_eq_nil_iff]
    exact ⟨if_neg hNone, congrArg List.flatten (if_neg hNone)⟩
  have hCount : j.issued.countP (fun _ => true) = 0 :=
    Scribe.countP_issued (w := fun _ => 0) rfl
      (fun s _ timed t _ _ => by rw [hWrites, List.countP_nil]) hRun.2
  exact List.countP_eq_zero.1 hCount e (List.mem_append_left _ (List.mem_append_left _ he)) rfl

/-- In every interleaving a node is written as started behind the ends of its predecessors: what
has run has its end in the journal by then, and no end of a predecessor follows. -/
theorem started_behind_predecessors (E : ParallelWorkflowEngine H) (hFanIn : FanInFree E)
    (hIds : E.graph.nodes.Nodup) (executionId : Uuid) (j : Journal State NodeEventWrite)
    (hRun : E.FreshJournal executionId j) (p c : NodeIndex) (hArc : E.graph.Arc p c)
    (hKind : ∀ kind, E.kindOf (E.nodeId p) = some kind → kind.endsDetached = false)
    (before after : List NodeEventWrite) (e : NodeEventWrite)
    (hEntries : j.entries = before ++ e :: after) (hStarts : e.Starts (E.nodeId c)) :
    (∀ e' ∈ after ++ j.awaiting ++ j.tasks.flatten, ¬ e'.Ends (E.nodeId p)) ∧
      (Reported (E.reactor executionId ∅) p j.state → ∃ e' ∈ before, e'.Ends (E.nodeId p)) := by
  have hEntry : e ∈ j.entries := by
    rw [hEntries]
    exact List.mem_append_right _ List.mem_cons_self
  have hIssued : e ∈ j.issued := List.mem_append_left _ (List.mem_append_left _ hEntry)
  have hOrder := (sequences_of_arc hFanIn hIds hRun.1 (sink_of_entries hRun hEntry) hArc
    hKind).inOrder hRun.2
  have hClosed := hOrder.closed e hIssued hStarts
  refine ⟨fun e' he' => ?_, fun hReported => ?_⟩
  · obtain hBehind | hTask := List.mem_append.1 he'
    · obtain hAfter | hAwaiting := List.mem_append.1 hBehind
      · exact hOrder.ordered before e after hEntries hStarts e' hAfter
      · exact hOrder.settled e hIssued hStarts e' hAwaiting
    · exact hOrder.attached e' hTask
  · exact hOrder.preceded before e after hEntries hStarts ⟨hClosed.1, hReported⟩

end Journals

section Samples

def watchedHost : Host := { bareHost true with EventSink := Unit }

/-- A module in front of two others, and a sink for the events. -/
def watchedForkEngine : ParallelWorkflowEngine watchedHost :=
  { ParallelWorkflowEngine.new with
    graph := ⟨[21, 22, 23], [⟨0, 1, {}⟩, ⟨0, 2, {}⟩], by decide⟩
    nodeMeta := nodeTable [(21, moduleNode), (22, moduleNode), (23, moduleNode)]
    eventSink := some () }

/-- The task that writes the start of the first module is scheduled last. -/
def lateStartMoves : List (Scribe.Move TimedAction) :=
  [.act ⟨.pop .accepted, fun _ => 0⟩, .act ⟨.finish 0 (.ok .null) 1, fun _ => 0⟩, .settle 0,
    .act ⟨.visit, fun _ => 0⟩, .act ⟨.visit, fun _ => 0⟩, .act ⟨.pop .accepted, fun _ => 0⟩,
    .resume 1, .resume 0]

theorem started_behind_predecessors_late_start :
    ∃ j, watchedForkEngine.FreshJournal 9 j ∧
      j.entries.map (fun e => (e.eventType, e.nodeId)) =
        [("node_completed", some 21), ("node_started", some 23), ("node_started", some 21)] ∧
      ∀ before e after, j.entries = before ++ e :: after → e.Starts (watchedForkEngine.nodeId 2) →
        (∀ e' ∈ after ++ j.awaiting ++ j.tasks.flatten, ¬ e'.Ends (watchedForkEngine.nodeId 0)) ∧
          (Reported (watchedForkEngine.reactor 9 ∅) 0 j.state →
            ∃ e' ∈ before, e'.Ends (watchedForkEngine.nodeId 0)) := by
  let R := watchedForkEngine.reactor 9 ∅
  have hReplay : (replay R.scribe.write (Scribe.Admits fun _ _ => True) lateStartMoves
      (.start (R.initialState ∅))).map
        (fun j => j.entries.map fun e => (e.eventType, e.nodeId)) =
      some [("node_completed", some 21), ("node_started", some 23), ("node_started", some 21)] := by
    decide
  obtain ⟨j, hj, hEntries⟩ := Option.map_eq_some_iff.1 hReplay
  have hFanIn : FanInFree watchedForkEngine := by
    have hKinds : ∀ idx < 3, (watchedForkEngine.reactor 9 ∅).isFanIn idx = false := by decide
    intro idx hIdx mode expr hKind
    have hIs : (watchedForkEngine.reactor 9 ∅).isFanIn idx = true :=
      Reactor.isFanIn_iff.2 ⟨mode, expr, hKind⟩
    rw [hKinds idx hIdx] at hIs
    cases hIs
  have hRun : watchedForkEngine.FreshJournal 9 j :=
    ⟨acyclic_of_rank id (by decide), replay_run hj⟩
  have hModule : watchedForkEngine.kindOf (watchedForkEngine.nodeId 0) = none := by decide
  have hArc : watchedForkEngine.graph.Arc 0 2 := ⟨⟨0, 2, {}⟩, by decide, rfl, rfl⟩
  refine ⟨j, hRun, hEntries, fun before e after hSplit hStarts => ?_⟩
  exact started_behind_predecessors watchedForkEngine hFanIn (by decide) 9 j hRun 0 2 hArc
    (fun kind hKind => by
      rw [hModule] at hKind
      cases hKind) before after e hSplit hStarts

end Samples

end TalosWorkflow
