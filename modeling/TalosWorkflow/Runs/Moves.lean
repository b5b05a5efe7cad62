import TalosWorkflow.Runs.Chains
import TalosWorkflow.Runs.Histories

/-!
# Moves

A step visits a successor, completes a node, moves nodes from one queue to
another, or pauses the run.
-/

namespace TalosWorkflow

open Multigraph

variable {H : Host} {R : Reactor H} {s t base : State}

def Flight.WellFormed (R : Reactor H) : Flight → Prop
  | .single idx _ => R.chainOf idx = none
  | .chain members _ => members ∈ R.chains ∧ ∃ head, members.head? = some head

/-- No follower of a chain is queued or visited, and chains fly as they were detected. -/
structure Orderly (R : Reactor H) (s : State) : Prop where
  leaders : ∀ n ∈ s.work, ¬ R.IsFollower n ∧ n < R.graph.nodes.length
  targets : ∀ visit ∈ s.visits,
    ¬ R.IsFollower visit.target ∧ R.graph.Arc visit.source visit.target
  flights : ∀ flight ∈ s.executing, flight.WellFormed R
  plainBatch : ∀ entry ∈ s.batch, R.chainOf entry.1 = none

section Kinds

inductive Settles (R : Reactor H) (s : State) (idx : NodeIndex) (answer : Answer) :
    List Event → Completion → Json → Prop
  | skipped (output : Json) (hSkips : R.skips s idx = some output) :
      Settles R s idx answer [.skipped idx] .unblocks output
  | refused (limit : Int) (hSkips : R.skips s idx = none) (hKind : R.runsModule idx = true)
      (hAnswer : answer = .refused)
      (hLimit : R.rateLimits.lookup (R.resolveModuleId (R.nodeId idx)) = some limit) :
      Settles R s idx answer [] .unblocks (Reactor.rateLimitExceeded limit)
  | handled (mode : Completion) (value : Json) (hSkips : R.skips s idx = none)
      (hVerdict : R.handlerVerdict idx (R.kindOf (R.nodeId idx)) answer = some (mode, value)) :
      Settles R s idx answer (R.handledEvents idx) mode value

/-- The node that a flight completes, and the nodes it executed. -/
inductive Lands (result : Except String Json) (ran : Nat) :
    Flight → NodeIndex → List NodeIndex → Prop
  | single (idx : NodeIndex) (parents : List (Uuid × Json)) :
      Lands result ran (.single idx parents) idx [idx]
  | chain (members : List NodeIndex) (parents : List (Uuid × Json)) (tail : NodeIndex)
      (hTail : members.getLast? = some tail) (hRan : ran ≤ members.length)
      (hOk : result.isOk → ran = members.length) :
      Lands result ran (.chain members parents) tail (members.take ran).reverse

/-- How the dispatch of a node ends, and the state it ends in before its result is stored. -/
inductive Concluding (R : Reactor H) (s : State) :
    Action → NodeIndex → NodeIndex → State → List Event → Completion → Json → Prop
  | stored (idx : NodeIndex) (value : Json) (rest : List (NodeIndex × Json))
      (hVisits : s.visits = []) (hBatch : s.batch = (idx, value) :: rest) :
      Concluding R s .store idx idx
        { s with batch := rest, history := [.executed idx] ++ s.history }
        [.executed idx] .unblocks value
  | popped (idx : NodeIndex) (rest : List NodeIndex) (answer : Answer) (events : List Event)
      (mode : Completion) (value : Json) (hVisits : s.visits = []) (hBatch : s.batch = [])
      (hReady : s.ready = idx :: rest) (hPlain : R.chainOf idx = none)
      (hSettles : Settles R s idx answer events mode value) :
      Concluding R s (.pop answer) idx idx
        { s with ready := rest, history := events ++ s.history } events mode value
  | returned (position : Nat) (result : Except String Json) (ran : Nat) (flight : Flight)
      (idx : NodeIndex) (nodes : List NodeIndex) (mode : Completion) (value : Json)
      (hVisits : s.visits = []) (hBatch : s.batch = []) (hReady : s.ready = [])
      (hFlight : s.executing[position]? = some flight) (hLands : Lands result ran flight idx nodes)
      (hVerdict : R.resultVerdict idx result = some (mode, value)) :
      Concluding R s (.finish position result ran) flight.start idx
        { s with
          executing := s.executing.eraseIdx position
          history := nodes.map .executed ++ s.history }
        (nodes.map .executed) mode value

inductive Relocating (R : Reactor H) (s : State) : Action → State → List Event → Prop
  | launchedSingle (idx : NodeIndex) (rest : List NodeIndex) (hVisits : s.visits = [])
      (hBatch : s.batch = []) (hReady : s.ready = idx :: rest) (hPlain : R.chainOf idx = none)
      (hSkips : R.skips s idx = none) (hKind : R.runsModule idx = true) :
      Relocating R s (.pop .accepted)
        { s with
          ready := rest
          executing := s.executing ++ [.single idx (R.parentOutputs idx s.results)]
          history := [.dispatched idx] ++ s.history }
        [.dispatched idx]
  | launchedChain (idx : NodeIndex) (rest : List NodeIndex) (answer : Answer)
      (members : List NodeIndex) (hVisits : s.visits = []) (hBatch : s.batch = [])
      (hReady : s.ready = idx :: rest) (hChain : R.chainOf idx = some members)
      (hHead : members.head? = some idx) :
      Relocating R s (.pop answer)
        { s with
          ready := rest
          executing := s.executing ++ [.chain members (R.parentOutputs idx s.results)]
          history := [.chainDispatched members] ++ s.history }
        [.chainDispatched members]
  | drained (idx : NodeIndex) (rest : List NodeIndex) (values : List Json)
      (hVisits : s.visits = []) (hBatch : s.batch = []) (hReady : s.ready = idx :: rest)
      (hPlain : R.chainOf idx = none) (hSkips : R.skips s idx = none)
      (hKind : R.isSubWorkflowNode idx = true)
      (hLength : values.length = (idx :: rest.filter R.isSubWorkflowNode).length) :
      Relocating R s (.pop (.outputs values))
        { s with
          ready := rest.filter fun other => !R.isSubWorkflowNode other
          batch := (idx :: rest.filter R.isSubWorkflowNode).zip values
          history :=
            (idx :: rest.filter R.isSubWorkflowNode).reverse.map .dispatched ++ s.history }
        ((idx :: rest.filter R.isSubWorkflowNode).reverse.map .dispatched)

inductive Moved (R : Reactor H) (s : State) : Action → State → Prop
  | visited (visit : Visit) (rest : List Visit) (t : State) (hVisits : s.visits = visit :: rest)
      (hVisit : Reactor.Visited R { s with visits := rest } visit t) : Moved R s .visit t
  | concluded (action : Action) (start idx : NodeIndex) (base : State) (events : List Event)
      (mode : Completion) (value : Json)
      (hConcluding : Concluding R s action start idx base events mode value) :
      Moved R s action (R.conclude base idx mode value)
  | relocated (action : Action) (t : State) (events : List Event)
      (hRelocating : Relocating R s action t events) : Moved R s action t
  | paused (idx : NodeIndex) (rest : List NodeIndex) (answer : Answer) (waiting : Json)
      (hVisits : s.visits = []) (hBatch : s.batch = []) (hReady : s.ready = idx :: rest)
      (hPlain : R.chainOf idx = none) (hSkips : R.skips s idx = none) :
      Moved R s (.pop answer) (R.pauseAt { s with ready := rest } idx waiting)

end Kinds

section Starts

variable {initialResults : Table Json} {n : NodeIndex}

theorem mem_initialReady : n ∈ R.initialReady initialResults ↔
    n < R.graph.nodes.length ∧ R.initialPending initialResults n = 0 ∧
      R.nodeId n ∉ initialResults := by
  simp [Reactor.initialReady]

theorem enqueued_initialState :
    .enqueued n ∈ (R.initialState initialResults).history ↔ n ∈ R.initialReady initialResults := by
  simp [Reactor.initialState]

end Starts

namespace Orderly

variable {initialResults : Table Json}

theorem ready_leader (h : Orderly R s) {idx : NodeIndex} {rest : List NodeIndex}
    (hReady : s.ready = idx :: rest) : ¬ R.IsFollower idx := by
  refine (h.leaders idx ?_).1
  rw [State.work, hReady]
  exact List.mem_append_right _ (List.mem_append_left _ List.mem_cons_self)

theorem members_lt (hChains : R.ChainsDetected) (h : Orderly R s) {start n : NodeIndex}
    (hStart : start ∈ s.work) (hn : n ∈ R.members start) : n < R.graph.nodes.length := by
  obtain ⟨hLeader, hLength⟩ := h.leaders start hStart
  obtain rfl | ⟨a, hConsecutive⟩ := eq_or_isFollower_of_mem_members hLeader hn
  · exact hLength
  · exact (hConsecutive.linked hChains).1.target_lt

/-- A step that does not halt the run is one of the moves. -/
theorem moved (h : Orderly R s) {action : Action} (hStep : Reactor.Stepped R s action t) :
    Moved R s action t := by
  cases hStep with
  | visited visit rest _ hVisits hVisit => exact .visited visit rest t hVisits hVisit
  | stored idx value rest hVisits hBatch =>
      exact .concluded _ idx idx _ _ _ _ (.stored idx value rest hVisits hBatch)
  | finished position result ran flight _ hVisits hBatch hReady hFlight hReturn =>
      cases hReturn with
      | single idx parents mode value hVerdict =>
          exact .concluded _ _ idx _ _ _ _ (.returned position result ran _ idx [idx] mode value
            hVisits hBatch hReady hFlight (.single idx parents) hVerdict)
      | chain members parents tail mode value hTail hRan hOk hVerdict =>
          exact .concluded _ _ tail _ _ _ _ (.returned position result ran _ tail _ mode value
            hVisits hBatch hReady hFlight (.chain members parents tail hTail hRan hOk) hVerdict)
  | popped idx rest answer _ hVisits hBatch hReady hPop =>
      have hLeader := h.ready_leader hReady
      have hSettled : ∀ {events : List Event} {mode : Completion} {value : Json},
          R.chainOf idx = none → Settles R s idx answer events mode value →
          Moved R s (.pop answer)
            (R.conclude { s with ready := rest, history := events ++ s.history } idx mode value) :=
        fun hPlain hSettles => .concluded _ idx idx _ _ _ _
          (.popped idx rest answer _ _ _ hVisits hBatch hReady hPlain hSettles)
      cases hPop with
      | ignored members hChain hHead =>
          rw [(isChainHead_of_not_isFollower hChain hLeader).2] at hHead
          cases hHead
      | launchedChain members hChain =>
          exact .relocated _ _ _ (.launchedChain idx rest answer members hVisits hBatch hReady
            hChain (isChainHead_of_not_isFollower hChain hLeader).1)
      | skipped output hPlain hSkips => exact hSettled hPlain (.skipped output hSkips)
      | refused limit hPlain hSkips hKind hAnswer hLimit =>
          exact hSettled hPlain (.refused limit hSkips hKind hAnswer hLimit)
      | handled mode value hPlain hSkips hVerdict =>
          exact hSettled hPlain (.handled mode value hSkips hVerdict)
      | launched hPlain hSkips hKind hAnswer =>
          subst hAnswer
          exact .relocated _ _ _
            (.launchedSingle idx rest hVisits hBatch hReady hPlain hSkips hKind)
      | paused waiting hPlain hSkips =>
          exact .paused idx rest answer waiting hVisits hBatch hReady hPlain hSkips
      | drained values _ hPlain hSkips hKind hAnswer hDrain =>
          subst hAnswer
          simp only [Reactor.drainSubWorkflows] at hDrain
          split at hDrain
          · rename_i hLength
            cases hDrain
            exact .relocated _ _ _
              (.drained idx rest values hVisits hBatch hReady hPlain hSkips hKind hLength)
          · cases hDrain

end Orderly

section Shifts

variable {action : Action} {start idx : NodeIndex} {events : List Event} {mode : Completion}
  {value : Json}

theorem Settles.quiet {answer : Answer} (h : Settles R s idx answer events mode value) :
    Quiet events ∧ (aggregatedNodes events).Sublist (dispatchedNodes events) ∧
      (dispatchedNodes events = [] ∨ dispatchedNodes events = [idx]) := by
  cases h with
  | skipped output => exact ⟨⟨rfl, rfl, by simp⟩, .refl _, .inl rfl⟩
  | refused limit => exact ⟨⟨rfl, rfl, by simp⟩, .refl _, .inl rfl⟩
  | handled =>
      unfold Reactor.handledEvents
      split
      · exact ⟨⟨rfl, rfl, by simp⟩, .refl _, .inr rfl⟩
      · exact ⟨⟨rfl, rfl, by simp⟩, List.nil_sublist _, .inr rfl⟩

theorem Concluding.shifted (h : Concluding R s action start idx base events mode value) :
    Shifted s base [start] events := by
  cases h with
  | stored _ _ rest hVisits hBatch =>
      exact
        { idle := hVisits
          visits := hVisits
          pending := rfl
          results := rfl
          work := by
            simp only [State.work, hBatch]
            exact .refl _
          ready := List.Subperm.refl _
          history := rfl
          quiet := Quiet.executed [start]
          aggregated := .refl _ }
  | popped _ rest answer _ _ _ hVisits hBatch hReady hPlain hSettles =>
      obtain ⟨hQuiet, hAggregated, hDispatched⟩ := hSettles.quiet
      exact
        { idle := hVisits
          visits := hVisits
          pending := rfl
          results := rfl
          work := by
            simp only [State.work, hReady, List.cons_append]
            exact List.perm_middle
          ready := by
            rw [hReady]
            rcases hDispatched with hNone | hOne
            · rw [hNone]
              exact (List.sublist_cons_self _ _).subperm
            · rw [hOne]
              exact List.Subperm.refl _
          history := rfl
          quiet := hQuiet
          aggregated := hAggregated }
  | returned position result ran flight _ nodes _ _ hVisits hBatch hReady hFlight =>
      exact
        { idle := hVisits
          visits := hVisits
          pending := rfl
          results := rfl
          work := by
            simp only [State.work]
            have hPerm := (perm_cons_eraseIdx hFlight).map Flight.start
            rw [List.map_cons] at hPerm
            refine (List.Perm.append_left _ (List.Perm.append_left _ hPerm)).trans ?_
            rw [← List.append_assoc, List.singleton_append, ← List.append_assoc]
            exact List.perm_middle
          ready := by
            rw [dispatchedNodes_executed]
            exact List.Subperm.refl _
          history := rfl
          quiet := Quiet.executed nodes
          aggregated := by
            rw [aggregatedNodes_executed]
            exact List.nil_sublist _ }

theorem Concluding.queues (h : Concluding R s action start idx base events mode value) :
    base.executing ⊆ s.executing ∧ base.batch ⊆ s.batch := by
  cases h with
  | stored _ _ rest _ hBatch =>
      refine ⟨List.Subset.refl _, ?_⟩
      rw [hBatch]
      exact List.subset_cons_self _ _
  | popped => exact ⟨List.Subset.refl _, List.Subset.refl _⟩
  | returned => exact ⟨List.eraseIdx_subset, List.Subset.refl _⟩

theorem Concluding.isTail (hOrderly : Orderly R s) (hChains : R.ChainsDetected)
    (h : Concluding R s action start idx base events mode value) : R.IsTail start idx := by
  cases h with
  | stored _ _ rest _ hBatch =>
      exact isTail_self (hOrderly.plainBatch (start, value) (hBatch ▸ List.mem_cons_self))
  | popped _ _ _ _ _ _ _ _ _ hPlain => exact isTail_self hPlain
  | returned position result ran flight _ nodes _ _ _ _ _ hFlight hLands =>
      have hFlies := hOrderly.flights flight (List.mem_of_getElem? hFlight)
      cases hLands with
      | single parents => exact isTail_self hFlies
      | chain members parents _ hTail =>
          obtain ⟨hMembers, head, hHead⟩ := hFlies
          rw [Flight.start, List.headD_eq_head?_getD, hHead, Option.getD_some]
          exact isTail_of_getLast? hChains hMembers hHead hTail

theorem Relocating.shifted (h : Relocating R s action t events) : Shifted s t [] events := by
  cases h with
  | launchedSingle idx rest hVisits hBatch hReady =>
      exact
        { idle := hVisits
          visits := hVisits
          pending := rfl
          results := rfl
          work := by
            simp only [State.work, hReady, List.map_append, List.nil_append]
            refine List.Perm.append_left _ ?_
            rw [← List.append_assoc, List.cons_append]
            exact (List.perm_append_singleton _ _).symm
          ready := by
            rw [hReady]
            exact List.Subperm.refl _
          history := rfl
          quiet := ⟨rfl, rfl, by simp⟩
          aggregated := List.nil_sublist _ }
  | launchedChain idx rest answer members hVisits hBatch hReady hChain hHead =>
      have hStart : Flight.start (.chain members (R.parentOutputs idx s.results)) = idx := by
        rw [Flight.start, List.headD_eq_head?_getD, hHead, Option.getD_some]
      have hDispatched : dispatchedNodes [.chainDispatched members] = [idx] := by
        simp [dispatchedNodes, hHead]
      exact
        { idle := hVisits
          visits := hVisits
          pending := rfl
          results := rfl
          work := by
            simp only [State.work, hReady, List.map_append, List.map_cons, List.map_nil, hStart,
              List.nil_append]
            refine List.Perm.append_left _ ?_
            rw [← List.append_assoc, List.cons_append]
            exact (List.perm_append_singleton _ _).symm
          ready := by
            rw [hReady, hDispatched]
            exact List.Subperm.refl _
          history := rfl
          quiet := ⟨rfl, rfl, by simp⟩
          aggregated := List.nil_sublist _ }
  | drained idx rest values hVisits hBatch hReady hPlain hSkips hKind hLength =>
      have hNodes : ((idx :: rest.filter R.isSubWorkflowNode).zip values).map (·.1) =
          idx :: rest.filter R.isSubWorkflowNode :=
        List.map_fst_zip hLength.ge
      have hDispatched : dispatchedNodes
          ((idx :: rest.filter R.isSubWorkflowNode).reverse.map .dispatched) =
            (idx :: rest.filter R.isSubWorkflowNode).reverse := by
        simp only [dispatchedNodes, List.filterMap_map, Function.comp_def, List.filterMap_some]
      have hSplit : ((idx :: rest.filter R.isSubWorkflowNode) ++
          rest.filter fun other => !R.isSubWorkflowNode other).Perm (idx :: rest) :=
        (List.filter_append_perm _ rest).cons idx
      exact
        { idle := hVisits
          visits := hVisits
          pending := rfl
          results := rfl
          work := by
            simp only [State.work, hNodes, hBatch, hReady, List.map_nil, List.nil_append]
            rw [← List.append_assoc]
            exact hSplit.symm.append_right _
          ready := by
            rw [hReady, hDispatched]
            exact (((List.reverse_perm _).append_right _).trans hSplit).subperm
          history := rfl
          quiet := by
            constructor
            · simp [enqueuedNodes, List.filterMap_map]
            · simp [releasedNodes, List.filterMap_map]
            · simp
          aggregated := by simp [aggregatedNodes, List.filterMap_map] }

end Shifts

namespace Orderly

theorem shifted (h : Orderly R s) {done : List NodeIndex} {events : List Event}
    (hShifted : Shifted s base done events)
    (hFlights : ∀ flight ∈ base.executing, flight.WellFormed R)
    (hBatch : ∀ entry ∈ base.batch, R.chainOf entry.1 = none) : Orderly R base where
  leaders n hn := h.leaders n (hShifted.work.mem_iff.2 (List.mem_append_right _ hn))
  targets visit hVisit := by
    rw [hShifted.visits] at hVisit
    exact absurd hVisit List.not_mem_nil
  flights := hFlights
  plainBatch := hBatch

theorem relocated (hChains : R.ChainsDetected) (h : Orderly R s) {action : Action}
    {events : List Event} (hRelocating : Relocating R s action t events) : Orderly R t := by
  refine h.shifted hRelocating.shifted ?_ ?_
  · intro flight hFlight
    cases hRelocating with
    | launchedSingle idx rest _ _ _ hPlain =>
        rcases List.mem_append.1 hFlight with hOld | hNew
        · exact h.flights flight hOld
        · rw [List.mem_singleton.1 hNew]
          exact hPlain
    | launchedChain idx rest answer members _ _ _ hChain hHead =>
        rcases List.mem_append.1 hFlight with hOld | hNew
        · exact h.flights flight hOld
        · rw [List.mem_singleton.1 hNew]
          exact ⟨(chainOf_eq_some hChain).1, idx, hHead⟩
    | drained => exact h.flights flight hFlight
  · intro entry hEntry
    cases hRelocating with
    | launchedSingle => exact h.plainBatch entry hEntry
    | launchedChain => exact h.plainBatch entry hEntry
    | drained idx rest values _ _ _ hPlain =>
        have hNode := (List.of_mem_zip hEntry).1
        rcases List.mem_cons.1 hNode with hNode | hNode
        · exact hNode ▸ hPlain
        · exact chainOf_eq_none_of_isSubWorkflowNode hChains (List.mem_filter.1 hNode).2

theorem concluded (hAcyclic : R.graph.Acyclic) (hChains : R.ChainsDetected) (h : Orderly R s)
    {action : Action} {start idx : NodeIndex} {events : List Event} {mode : Completion}
    {value : Json} (hConcluding : Concluding R s action start idx base events mode value) :
    Orderly R (R.conclude base idx mode value) := by
  have hShifted := hConcluding.shifted
  have hTail := hConcluding.isTail h hChains
  have hBase : Orderly R base :=
    h.shifted hShifted (fun flight hFlight => h.flights flight (hConcluding.queues.1 hFlight))
      fun entry hEntry => h.plainBatch entry (hConcluding.queues.2 hEntry)
  exact
    { leaders := by
        simp only [State.work, Reactor.conclude_batch, Reactor.conclude_ready,
          Reactor.conclude_executing]
        exact hBase.leaders
      targets := fun visit hVisit => by
        rw [Reactor.conclude_visits, List.mem_map] at hVisit
        obtain ⟨child, hChild, rfl⟩ := hVisit
        have hArc := (mem_successors _).1 hChild
        exact ⟨fun hFollower => hTail.not_isInner hAcyclic hChains
          (isInner_of_arc hChains hFollower hArc), hArc⟩
      flights := by
        rw [Reactor.conclude_executing]
        exact hBase.flights
      plainBatch := by
        rw [Reactor.conclude_batch]
        exact hBase.plainBatch }

theorem visited (h : Orderly R s) {visit : Visit} {rest : List Visit}
    (hVisits : s.visits = visit :: rest)
    (hVisit : Reactor.Visited R { s with visits := rest } visit t) : Orderly R t := by
  have hTarget := h.targets visit (hVisits ▸ List.mem_cons_self)
  have hRest : ∀ v ∈ rest, ¬ R.IsFollower v.target ∧ R.graph.Arc v.source v.target :=
    fun v hv => h.targets v (hVisits ▸ List.mem_cons_of_mem visit hv)
  cases hVisit with
  | marked => exact { h with targets := hRest }
  | counted => exact { h with targets := hRest }
  | enqueued =>
      refine { h with targets := hRest, leaders := fun n hn => ?_ }
      obtain rfl | hn := State.mem_enqueue_work.1 hn
      · exact ⟨hTarget.1, hTarget.2.target_lt⟩
      · exact h.leaders n hn
  | cascaded =>
      rw [Reactor.cascadeSkip_eq]
      exact { h with targets := hRest }
  | wrapped => exact { h with targets := hRest }

theorem step (hAcyclic : R.graph.Acyclic) (hChains : R.ChainsDetected) (h : Orderly R s)
    {action : Action} (hMoved : Moved R s action t) : t.status = .running → Orderly R t := by
  intro hRunning
  cases hMoved with
  | visited visit rest _ hVisits hVisit => exact h.visited hVisits hVisit
  | concluded action start idx base events mode value hConcluding =>
      exact h.concluded hAcyclic hChains hConcluding
  | relocated action _ events hRelocating => exact h.relocated hChains hRelocating
  | paused => cases hRunning

theorem initial {initialResults : Table Json} (hChains : R.ChainsDetected)
    (hFresh : R.chains = [] ∨ initialResults = ∅) :
    Orderly R (R.initialState initialResults) := by
  have hLeaders : ∀ n ∈ R.initialReady initialResults,
      ¬ R.IsFollower n ∧ n < R.graph.nodes.length := by
    intro n hn
    refine ⟨?_, (mem_initialReady.1 hn).1⟩
    rintro ⟨a, hConsecutive⟩
    rcases hFresh with hNone | rfl
    · obtain ⟨chain, hChain, -⟩ := hConsecutive
      rw [hNone] at hChain
      cases hChain
    · have hOne := (hConsecutive.linked hChains).2.2
      have hZero : R.graph.inDegree n = 0 := (mem_initialReady.1 hn).2.1
      rw [hZero] at hOne
      cases hOne
  exact
    { leaders := by simpa [State.work, Reactor.initialState] using hLeaders
      targets := fun _ h => absurd h List.not_mem_nil
      flights := fun _ h => absurd h List.not_mem_nil
      plainBatch := fun _ h => absurd h List.not_mem_nil }

end Orderly

end TalosWorkflow
