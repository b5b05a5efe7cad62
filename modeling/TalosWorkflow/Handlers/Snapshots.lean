import TalosWorkflow.Handlers.Locals
import TalosWorkflow.Schedules.Outcomes
import TalosWorkflow.Timelines.Causality

/-!
# What a handler has read stays true

Without early joins the result of a node is final as soon as a successor is
ready, so the answer that a node got from the engine is the one that it would
get at any later time.
-/

namespace TalosWorkflow

open Multigraph

variable {H : Host}

section Definitions

variable (R : Reactor H) (G : GateDoubles) (evaluate : String → Json → Except String Json)

/-- A node that the engine answers itself gets the answer of its handler. -/
def AnswersLocally (s : State) : Action → Prop
  | .pop answer => ∀ idx ∈ s.ready.head?, R.chainOf idx = none → R.skips s idx = none →
      ∀ expected ∈ R.localAnswer G evaluate idx s.results, answer = expected
  | _ => True

instance (s : State) : ∀ action, Decidable (AnswersLocally R G evaluate s action)
  | .pop answer => inferInstanceAs (Decidable (∀ idx ∈ s.ready.head?, R.chainOf idx = none →
      R.skips s idx = none → ∀ expected ∈ R.localAnswer G evaluate idx s.results,
        answer = expected))
  | .visit => .isTrue trivial
  | .store => .isTrue trivial
  | .finish .. => .isTrue trivial

/-- The node is stored as its handler answers on the present results. -/
def Answered (s : State) (n : NodeIndex) : Prop :=
  ∀ answer ∈ R.localAnswer G evaluate n s.results, ∃ mode output,
    R.handlerVerdict n (R.kindOf (R.nodeId n)) answer = some (mode, output) ∧
      s.results.lookup (R.nodeId n) = some output

/-- What a node that joins its branches makes of one value for each edge. -/
def SystemNodeKind.join : SystemNodeKind → Option (List Json → Json)
  | .collect => some fun values => collected (values.map stripBranch)
  | .synthesize none => some fun values => collected ((values.map stripBranch).take 500)
  | .fanIn .all none => some .array
  | _ => none

/-- Nothing that the node has read, nor the node itself, is written again. -/
structure Final (s : State) (n : NodeIndex) : Prop where
  inside : n < R.graph.nodes.length
  recorded : ∀ p, R.graph.Arc p n → (s.results.lookup (R.nodeId p)).isSome = true
  retired : s.status = .running → ∀ p, p = n ∨ R.graph.Arc p n → Retired R s p

end Definitions

section Steps

variable {R : Reactor H} {s t : State} {action : Action} {p n : NodeIndex}
  {concluded cascaded : List NodeIndex} {G : GateDoubles}
  {evaluate : String → Json → Except String Json}

theorem Answered.of_lookup (h : Answered R G evaluate s n)
    (hNode : t.results.lookup (R.nodeId n) = s.results.lookup (R.nodeId n))
    (hParents : ∀ p, R.graph.Arc p n →
      t.results.lookup (R.nodeId p) = s.results.lookup (R.nodeId p)) :
    Answered R G evaluate t n := by
  intro answer hAnswer
  rw [localAnswer_congr (parentOutputs_congr hParents)] at hAnswer
  rw [hNode]
  exact h answer hAnswer

theorem Final.lookup_step (hChains : R.ChainsDetected) (hIds : R.graph.nodes.Nodup)
    (hOrderly : Orderly R s) (hLedger : Ledger R s concluded cascaded)
    (hWaits : ∀ n < R.graph.nodes.length, R.joinsEarly n = false) (h : Final R s n)
    (hStep : R.step s action = some t) (hp : p = n ∨ R.graph.Arc p n) :
    t.results.lookup (R.nodeId p) = s.results.lookup (R.nodeId p) := by
  have hInside : p < R.graph.nodes.length := by
    obtain rfl | hArc := hp
    · exact h.inside
    · exact hArc.source_lt
  have hRetired := h.retired (Reactor.step_cases hStep).1 p hp
  exact hRetired.lookup_step hChains hIds hOrderly hLedger hWaits hInside hStep

theorem Final.step (hOrderly : Orderly R s) (hLedger : Ledger R s concluded cascaded)
    (hLive : CountsLiveFanIns R s action) (h : Final R s n) (hStep : R.step s action = some t)
    (hLookup : ∀ p, p = n ∨ R.graph.Arc p n →
      t.results.lookup (R.nodeId p) = s.results.lookup (R.nodeId p)) : Final R t n where
  inside := h.inside
  recorded p hArc := by
    rw [hLookup p (.inr hArc)]
    exact h.recorded p hArc
  retired hRunning p hp :=
    (h.retired (Reactor.step_cases hStep).1 p hp).step hOrderly hLedger hLive hStep hRunning

theorem runsModule_of_mem_chain (hChains : R.ChainsDetected) {members : List NodeIndex}
    (hMembers : members ∈ R.chains) (hn : n ∈ members) : R.runsModule n = true := by
  have hChain := chainOf_of_mem hChains hMembers hn
  unfold Reactor.runsModule
  cases hKind : R.kindOf (R.nodeId n) with
  | none => rfl
  | some kind =>
      rw [chainOf_eq_none_of_kind hChains hKind] at hChain
      cases hChain

theorem localAnswer_of_paused {answer : Answer} {waiting : Json} {results : Table Json}
    (h : R.pauseEnvelope n (R.kindOf (R.nodeId n)) answer = some waiting) :
    R.localAnswer G evaluate n results = none := by
  unfold Reactor.pauseEnvelope at h
  unfold ParallelWorkflowEngine.localAnswer
  split at h
  · rename_i hKind
    rw [hKind]
  · rename_i hKind
    rw [hKind]
  · cases h

variable (G evaluate) in
/-- A node that is executed in a step is handled, unless somebody else answers it. -/
theorem executed_step (hChains : R.ChainsDetected) (hOrderly : Orderly R s)
    (hBatch : ∀ entry ∈ s.batch, R.isSubWorkflowNode entry.1 = true)
    (hFlights : ∀ idx parents, .single idx parents ∈ s.executing → R.runsModule idx = true)
    (hStep : R.step s action = some t) (hExecuted : .executed n ∈ t.history) :
    .executed n ∈ s.history ∨ (∀ results, R.localAnswer G evaluate n results = none) ∨
      ∃ rest answer mode value, action = .pop answer ∧ s.ready = n :: rest ∧
        R.chainOf n = none ∧ R.skips s n = none ∧
          R.handlerVerdict n (R.kindOf (R.nodeId n)) answer = some (mode, value) ∧
            t = R.conclude { s with ready := rest, history := R.handledEvents n ++ s.history } n
              mode value := by
  obtain ⟨-, hStepped | ⟨e, -, rfl⟩⟩ := Reactor.step_cases hStep
  · cases hOrderly.moved hStepped with
    | visited visit rest _ hVisits hVisit =>
        obtain ⟨events, hHistory, hEvents⟩ := visited_history hVisit
        rw [hHistory] at hExecuted
        obtain hNew | hOld := List.mem_append.1 hExecuted
        · obtain hNot | hNot := hEvents _ hNew <;> cases hNot
        · exact .inl hOld
    | concluded _ start idx base events mode value hConcluding =>
        rw [Reactor.conclude_history, hConcluding.shifted.history] at hExecuted
        obtain hNew | hOld : .executed n ∈ events ∨ .executed n ∈ s.history := by
          simpa using hExecuted
        · cases hConcluding with
          | stored _ _ rest _ hCons =>
              have hIs : n = start := by simpa using hNew
              have hSub := hBatch (start, value) (hCons ▸ List.mem_cons_self)
              exact .inr (.inl fun results => localAnswer_of_dispatched (.inr (hIs ▸ hSub)))
          | popped _ rest answer _ _ _ _ _ hReady hPlain hSettles =>
              cases hSettles with
              | skipped => simp at hNew
              | refused => simp at hNew
              | handled _ _ hSkips hVerdict =>
                  have hIs : n = start := by
                    unfold Reactor.handledEvents at hNew
                    split at hNew <;> simpa using hNew
                  subst hIs
                  exact .inr (.inr ⟨rest, answer, mode, value, rfl, hReady, hPlain, hSkips,
                    hVerdict, rfl⟩)
          | returned position result ran flight _ nodes _ _ _ _ _ hFlight hLands =>
              have hIn : n ∈ nodes := by simpa using hNew
              have hFlies := List.mem_of_getElem? hFlight
              refine .inr (.inl fun results => localAnswer_of_dispatched (.inl ?_))
              cases hLands with
              | single parents =>
                  obtain rfl := List.mem_singleton.1 hIn
                  exact hFlights n _ hFlies
              | chain members parents =>
                  have hMember := List.mem_of_mem_take (List.mem_reverse.1 hIn)
                  exact runsModule_of_mem_chain hChains (hOrderly.flights _ hFlies).1 hMember
        · exact .inl hOld
    | relocated _ _ events hRelocating =>
        rw [hRelocating.shifted.history] at hExecuted
        obtain hNew | hOld := List.mem_append.1 hExecuted
        · cases hRelocating <;> simp at hNew
        · exact .inl hOld
    | paused idx rest answer waiting _ _ hReady =>
        obtain ⟨envelope, hEnvelope⟩ := paused_envelope hStep rfl hReady
        obtain hIs | hOld : n = idx ∨ .executed n ∈ s.history := by
          simpa [Reactor.pauseAt, Reactor.handled] using hExecuted
        · exact .inr (.inl fun results => localAnswer_of_paused (hIs ▸ hEnvelope))
        · exact .inl hOld
  · cases e with
    | failed message => exact .inl hExecuted
    | counterUnderflow idx => exact .inl (by simpa [State.halt] using hExecuted)
    | charBoundary => exact .inl hExecuted

end Steps

section Runs

variable {E : ParallelWorkflowEngine H} {executionId : Uuid} {s t : State} {n p : NodeIndex}
  {allowed : Reactor H → State → Action → Prop} {G : GateDoubles}
  {evaluate : String → Json → Except String Json}

theorem flights_runModules {initialResults : Table Json}
    (hRun : E.Runs executionId initialResults allowed s) :
    ∀ idx parents, .single idx parents ∈ s.executing →
      (E.reactor executionId initialResults).runsModule idx = true := by
  refine runs_invariant (fun s => ∀ idx parents, .single idx parents ∈ s.executing →
    (E.reactor executionId initialResults).runsModule idx = true) hRun
    (fun idx parents hFlies => absurd hFlies List.not_mem_nil) ?_
  intro s action t hOrderly _ hInv hStep
  obtain ⟨-, hStepped | ⟨e, -, rfl⟩⟩ := Reactor.step_cases hStep
  · cases hOrderly.moved hStepped with
    | visited visit rest _ hVisits hVisit =>
        rw [(visited_queues hVisit).1]
        exact hInv
    | concluded _ start idx base events mode value hConcluding =>
        rw [Reactor.conclude_executing]
        exact fun idx parents hFlies => hInv idx parents (hConcluding.queues.1 hFlies)
    | relocated _ _ events hRelocating =>
        cases hRelocating with
        | launchedSingle idx rest _ _ _ _ _ hKind =>
            intro other parents hFlies
            obtain hOld | hNew := List.mem_append.1 hFlies
            · exact hInv other parents hOld
            · cases List.mem_singleton.1 hNew
              exact hKind
        | launchedChain idx rest answer members =>
            intro other parents hFlies
            obtain hOld | hNew := List.mem_append.1 hFlies
            · exact hInv other parents hOld
            · cases List.mem_singleton.1 hNew
        | drained => exact hInv
    | paused => exact hInv
  · cases e <;> exact hInv

/-- The node that a step has handled reads parents that are final. -/
theorem final_of_handled (hIds : E.graph.nodes.Nodup) (hWaits : WaitsForAll E)
    (hRun : E.FreshRun executionId allowed s) {action : Action}
    (hStep : (E.reactor executionId ∅).step s action = some t) (hReady : n ∈ s.ready)
    (hReleased : .released n ∈ t.history) (hNext : E.FreshRun executionId allowed t) :
    Final (E.reactor executionId ∅) t n ∧ ∀ p, (E.reactor executionId ∅).graph.Arc p n →
      t.results.lookup ((E.reactor executionId ∅).nodeId p) =
        s.results.lookup ((E.reactor executionId ∅).nodeId p) := by
  have hChains := reactor_chainsDetected E executionId ∅
  have hRunning := (Reactor.step_cases hStep).1
  have hOrderly := Orderly.of_runs hRun hRunning
  have hEarly := hWaits.joinsEarly_eq_false executionId ∅
  obtain ⟨concluded, cascaded, hLedger⟩ := hWaits.ledger .empty hRun hRunning
  obtain ⟨hLeader, hInside⟩ := hOrderly.leaders n (work_of_ready hReady)
  have hEnqueued := hLedger.ready_enqueued hReady
  have hRetired := fun p (hArc : (E.reactor executionId ∅).graph.Arc p n) =>
    (hLedger.retired_of_ready hChains (hEarly n hInside) hReady hArc).2
  have hSame := fun p (hArc : (E.reactor executionId ∅).graph.Arc p n) =>
    (hRetired p hArc).lookup_step hChains hIds hOrderly hLedger hEarly hArc.source_lt hStep
  refine ⟨⟨hInside, fun p hArc => ?_, fun hAfter p hp => ?_⟩, hSame⟩
  · have hResolved := hLedger.predecessors_resolved (hLedger.settled n (.inl hEnqueued))
      (hEarly n hInside) hArc
    rw [hSame p hArc]
    exact (hLedger.recorded_or_isInner hResolved).resolve_right fun hInner =>
      hLeader (isFollower_of_arc hChains hInner hArc)
  · obtain rfl | hArc := hp
    · obtain ⟨concluded', cascaded', hAfterLedger⟩ := hWaits.ledger .empty hNext hAfter
      exact hAfterLedger.retired (hAfterLedger.releasedResolved
        (List.mem_filterMap.2 ⟨.released p, hReleased, rfl⟩))
    · exact (hRetired p hArc).step hOrderly hLedger
        (hWaits.countsLiveFanIns hOrderly action) hStep hAfter

/-- Whoever is executed is answered for good, or by somebody else than the engine. -/
theorem executed_answered (hIds : E.graph.nodes.Nodup) (hWaits : WaitsForAll E)
    (hRun : E.FreshRun executionId (AnswersLocally · G evaluate) s)
    (hExecuted : .executed n ∈ s.history) :
    (∀ results, E.localAnswer G evaluate n results = none) ∨
      Answered (E.reactor executionId ∅) G evaluate s n ∧ Final (E.reactor executionId ∅) s n := by
  obtain ⟨hAcyclic, hRun⟩ := hRun
  have hChains := reactor_chainsDetected E executionId ∅
  have hEarly := hWaits.joinsEarly_eq_false executionId ∅
  induction hRun with
  | refl => simp [Reactor.initialState] at hExecuted
  | @tail s t hFirst hLast ih =>
      have hFresh : E.FreshRun executionId (AnswersLocally · G evaluate) s := ⟨hAcyclic, hFirst⟩
      obtain ⟨action, hAnswers, hStep⟩ := hLast
      have hNext : E.FreshRun executionId (AnswersLocally · G evaluate) t :=
        ⟨hAcyclic, hFirst.tail ⟨action, hAnswers, hStep⟩⟩
      have hRunning := (Reactor.step_cases hStep).1
      have hOrderly := Orderly.of_runs hFresh hRunning
      obtain ⟨concluded, cascaded, hLedger⟩ := hWaits.ledger .empty hFresh hRunning
      obtain hOld | hNone | ⟨rest, answer, mode, value, rfl, hReady, hPlain, hSkips, hVerdict, rfl⟩ :=
        executed_step G evaluate hChains hOrderly (batch_isSubWorkflowNode hFresh)
          (flights_runModules hFresh) hStep hExecuted
      · refine (ih hOld).imp_right ?_
        rintro ⟨hAnswered, hFinal⟩
        have hLookup := fun p hp =>
          hFinal.lookup_step (p := p) hChains hIds hOrderly hLedger hEarly hStep hp
        exact ⟨hAnswered.of_lookup (hLookup n (.inl rfl)) fun p hArc => hLookup p (.inr hArc),
          hFinal.step hOrderly hLedger (hWaits.countsLiveFanIns hOrderly action) hStep hLookup⟩
      · exact .inl hNone
      · have hIn : n ∈ s.ready := hReady ▸ List.mem_cons_self
        obtain ⟨hFinal, hSame⟩ := final_of_handled hIds hWaits hFresh hStep hIn
          (by rw [Reactor.conclude_history]; exact List.mem_cons_self) hNext
        refine .inr ⟨fun expected hExpected => ?_, hFinal⟩
        rw [localAnswer_congr (parentOutputs_congr hSame)] at hExpected
        obtain rfl := hAnswers n (by rw [hReady]; rfl) hPlain hSkips expected hExpected
        refine ⟨mode, value, hVerdict, ?_⟩
        rw [Reactor.conclude_results]
        exact AList.lookup_insert _

/-- A node of a kind that the engine answers itself is stored as it is answered. -/
theorem stored_of_local (hIds : E.graph.nodes.Nodup) (hWaits : WaitsForAll E)
    (hRun : E.FreshRun executionId (AnswersLocally · G evaluate) s)
    (hExecuted : .executed n ∈ s.history) {answer : Table Json → Answer}
    (hAnswer : ∀ results, E.localAnswer G evaluate n results = some (answer results)) :
    (∃ mode output, (E.reactor executionId ∅).handlerVerdict n (E.kindOf (E.nodeId n))
      (answer s.results) = some (mode, output) ∧ s.results.lookup (E.nodeId n) = some output) ∧
        Final (E.reactor executionId ∅) s n := by
  obtain hNone | ⟨hAnswered, hFinal⟩ := executed_answered hIds hWaits hRun hExecuted
  · have hBoth := (hAnswer ∅).symm.trans (hNone ∅)
    cases hBoth
  · exact ⟨hAnswered _ (hAnswer s.results), hFinal⟩

/-- What is final in a state of the run has not changed in a later one. -/
theorem Final.lookup_run (hIds : E.graph.nodes.Nodup) (hWaits : WaitsForAll E)
    (hRun : E.FreshRun executionId allowed s)
    (hLater : Run (E.reactor executionId ∅).step (allowed (E.reactor executionId ∅)) s t)
    (h : Final (E.reactor executionId ∅) s n)
    (hp : p = n ∨ (E.reactor executionId ∅).graph.Arc p n) :
    t.results.lookup ((E.reactor executionId ∅).nodeId p) =
      s.results.lookup ((E.reactor executionId ∅).nodeId p) := by
  have hChains := reactor_chainsDetected E executionId ∅
  have hEarly := hWaits.joinsEarly_eq_false executionId ∅
  suffices hBoth : Final (E.reactor executionId ∅) t n ∧ ∀ p,
      p = n ∨ (E.reactor executionId ∅).graph.Arc p n →
        t.results.lookup ((E.reactor executionId ∅).nodeId p) =
          s.results.lookup ((E.reactor executionId ∅).nodeId p) from hBoth.2 p hp
  induction hLater with
  | refl => exact ⟨h, fun p _ => rfl⟩
  | @tail u v hFirst hLast ih =>
      obtain ⟨action, -, hStep⟩ := hLast
      have hFresh : E.FreshRun executionId allowed u := ⟨hRun.1, hRun.2.trans hFirst⟩
      have hRunning := (Reactor.step_cases hStep).1
      have hOrderly := Orderly.of_runs hFresh hRunning
      obtain ⟨concluded, cascaded, hLedger⟩ := hWaits.ledger .empty hFresh hRunning
      have hLookup := fun p hp =>
        ih.1.lookup_step (p := p) hChains hIds hOrderly hLedger hEarly hStep hp
      exact ⟨ih.1.step hOrderly hLedger (hWaits.countsLiveFanIns hOrderly action) hStep hLookup,
        fun p hp => (hLookup p hp).trans (ih.2 p hp)⟩

/-- A node that the engine answers itself stays what its handler makes of the results, for its
parents have all reported by then and do not report again. -/
theorem local_answers_final (E : ParallelWorkflowEngine H) (hIds : E.graph.nodes.Nodup)
    (hWaits : WaitsForAll E) (executionId : Uuid) (G : GateDoubles)
    (evaluate : String → Json → Except String Json) (s t : State)
    (hRun : E.FreshRun executionId (AnswersLocally · G evaluate) s)
    (hLater : Run (E.reactor executionId ∅).step
      (AnswersLocally (E.reactor executionId ∅) G evaluate) s t)
    (n : NodeIndex) (hExecuted : .executed n ∈ s.history)
    (hLocal : (E.localAnswer G evaluate n s.results).isSome = true) :
    (∃ answer mode output, E.localAnswer G evaluate n t.results = some answer ∧
      (E.reactor executionId ∅).handlerVerdict n (E.kindOf (E.nodeId n)) answer =
        some (mode, output) ∧ t.results.lookup (E.nodeId n) = some output) ∧
      t.results.lookup (E.nodeId n) = s.results.lookup (E.nodeId n) ∧
        ∀ p, E.graph.Arc p n → (t.results.lookup (E.nodeId p)).isSome = true ∧
          t.results.lookup (E.nodeId p) = s.results.lookup (E.nodeId p) := by
  obtain hNone | ⟨hAnswered, hFinal⟩ := executed_answered hIds hWaits hRun hExecuted
  · rw [hNone] at hLocal
    cases hLocal
  · have hLookup := fun p hp => hFinal.lookup_run (p := p) hIds hWaits hRun hLater hp
    obtain ⟨answer, hAnswer⟩ := Option.isSome_iff_exists.1 hLocal
    obtain ⟨mode, output, hVerdict, hStored⟩ := hAnswered answer hAnswer
    have hNode := hLookup n (.inl rfl)
    refine ⟨⟨answer, mode, output, ?_, hVerdict, hNode.trans hStored⟩, hNode, fun p hArc => ?_⟩
    · exact (localAnswer_congr (parentOutputs_congr fun p hArc => hLookup p (.inr hArc))).trans
        hAnswer
    · have hSame := hLookup p (.inr hArc)
      exact ⟨(congrArg Option.isSome hSame).trans (hFinal.recorded p hArc), hSame⟩

theorem parentOutputs_of_recorded {results : Table Json} {n : NodeIndex}
    (h : ∀ p, E.graph.Arc p n → (results.lookup (E.nodeId p)).isSome = true) :
    ∃ values, (E.graph.predecessors n).Forall₂
      (fun p value => results.lookup (E.nodeId p) = some value) values ∧
        (E.parentOutputs n results).map (·.2) = values := by
  have hAll : ∀ p ∈ E.graph.predecessors n, (results.lookup (E.nodeId p)).isSome = true :=
    fun p hp => h p ((mem_predecessors _).1 hp)
  unfold ParallelWorkflowEngine.parentOutputs
  generalize E.graph.predecessors n = parents at hAll
  induction parents with
  | nil => exact ⟨[], .nil, rfl⟩
  | cons p parents ih =>
      obtain ⟨value, hValue⟩ := Option.isSome_iff_exists.1 (hAll p List.mem_cons_self)
      obtain ⟨values, hValues, hMap⟩ := ih fun q hq => hAll q (List.mem_cons_of_mem p hq)
      refine ⟨value :: values, .cons hValue hValues, ?_⟩
      rw [List.filterMap_cons_some (by rw [hValue]; rfl), List.map_cons, hMap]

/-- A node that joins is answered with the join of its branches. -/
theorem localAnswer_join {kind : SystemNodeKind} {join : List Json → Json} {results : Table Json}
    (hKind : E.kindOf (E.nodeId n) = some kind) (hJoin : kind.join = some join) :
    E.localAnswer G evaluate n results =
      some (.output (join ((E.parentOutputs n results).map (·.2)))) := by
  unfold ParallelWorkflowEngine.localAnswer
  rw [hKind]
  unfold SystemNodeKind.join at hJoin
  have hBranches : E.branchOutputs n results =
      ((E.parentOutputs n results).map (·.2)).map stripBranch := by
    rw [List.map_map]
    rfl
  split at hJoin
  · cases hJoin
    exact congrArg (fun items => some (Answer.output (collected items))) hBranches
  · cases hJoin
    exact congrArg (fun items => some (Answer.output (collected (items.take 500)))) hBranches
  · cases hJoin
    rfl
  · cases hJoin

theorem handlerVerdict_join {R : Reactor H} {kind : SystemNodeKind} {join : List Json → Json}
    (hJoin : kind.join = some join) (value : Json) :
    R.handlerVerdict n (some kind) (.output value) = some (.unblocks, value) := by
  unfold SystemNodeKind.join at hJoin
  split at hJoin
  · rfl
  · rfl
  · rfl
  · cases hJoin

/-- A join is a barrier: it is stored with one item for each incoming edge, the result that the
parent still has. -/
theorem joins_are_barriers (E : ParallelWorkflowEngine H) (hIds : E.graph.nodes.Nodup)
    (hWaits : WaitsForAll E) (executionId : Uuid) (G : GateDoubles)
    (evaluate : String → Json → Except String Json) (s : State)
    (hRun : E.FreshRun executionId (AnswersLocally · G evaluate) s) (n : NodeIndex)
    (kind : SystemNodeKind) (join : List Json → Json)
    (hKind : E.kindOf (E.nodeId n) = some kind) (hJoin : kind.join = some join)
    (hExecuted : .executed n ∈ s.history) :
    ∃ values, (E.graph.predecessors n).Forall₂
      (fun p value => s.results.lookup (E.nodeId p) = some value) values ∧
        s.results.lookup (E.nodeId n) = some (join values) := by
  have hAnswer : ∀ results, E.localAnswer G evaluate n results =
      some (.output (join ((E.parentOutputs n results).map (·.2)))) :=
    fun results => localAnswer_join hKind hJoin
  obtain ⟨⟨mode, output, hVerdict, hStored⟩, hFinal⟩ :=
    stored_of_local hIds hWaits hRun hExecuted hAnswer
  obtain ⟨values, hValues, hMap⟩ := parentOutputs_of_recorded hFinal.recorded
  rw [hKind, handlerVerdict_join hJoin] at hVerdict
  cases hVerdict
  refine ⟨values, hValues, hStored.trans ?_⟩
  rw [← hMap]
  rfl

/-- A while loop is stored with the first output of its iterations that fails the condition, or
with the last one that its limit allows. -/
theorem while_loop_exact (E : ParallelWorkflowEngine H) (hIds : E.graph.nodes.Nodup)
    (hWaits : WaitsForAll E) (executionId : Uuid) (G : GateDoubles)
    (evaluate : String → Json → Except String Json) (s : State)
    (hRun : E.FreshRun executionId (AnswersLocally · G evaluate) s) (n : NodeIndex)
    (condition : String) (maxIterations : UInt32)
    (hKind : E.kindOf (E.nodeId n) = some (.whileLoop condition maxIterations))
    (hExecuted : .executed n ∈ s.history) :
    ∃ k ≤ maxIterations.toNat,
      s.results.lookup (E.nodeId n) = some (.object [("iterations", .ofCount k),
        ("output", loopTurns 0 k (E.gatherInputs n s.results))]) ∧
      (∀ j < k, E.evalBool condition (loopTurns 0 j (E.gatherInputs n s.results)) = true) ∧
        (k < maxIterations.toNat →
          E.evalBool condition (loopTurns 0 k (E.gatherInputs n s.results)) = false) := by
  have hAnswer : ∀ results, E.localAnswer G evaluate n results =
      some (.output (E.tryDispatchWhileLoop n results condition maxIterations)) := by
    intro results
    rw [ParallelWorkflowEngine.localAnswer, hKind]
  obtain ⟨⟨mode, output, hVerdict, hStored⟩, -⟩ :=
    stored_of_local hIds hWaits hRun hExecuted hAnswer
  rw [hKind] at hVerdict
  cases hVerdict
  obtain ⟨k, hk, hTurns, hLoop⟩ := whileTurns_eq (E := E) condition maxIterations.toNat 0
    (E.gatherInputs n s.results)
  refine ⟨k, hk, hStored.trans ?_, hLoop⟩
  rw [ParallelWorkflowEngine.tryDispatchWhileLoop, hTurns, Nat.zero_add]

/-- Behind a check that fails nothing goes on as if it had passed, unless the node lets its input
through. -/
theorem failed_check_is_error (E : ParallelWorkflowEngine H) (hIds : E.graph.nodes.Nodup)
    (hWaits : WaitsForAll E) (executionId : Uuid) (G : GateDoubles)
    (evaluate : String → Json → Except String Json) (s : State)
    (hRun : E.FreshRun executionId (AnswersLocally · G evaluate) s) (n : NodeIndex)
    (condition onFailure : String) (checkLabel : Option String)
    (hKind : E.kindOf (E.nodeId n) = some (.verify condition checkLabel onFailure))
    (hExecuted : .executed n ∈ s.history)
    (hFails : E.evalBool condition (E.gatherInputs n s.results) = false)
    (hMode : onFailure ≠ "passthrough") :
    ((E.reactor executionId ∅).errorChildren n ≠ [] ∨ E.continueOnError (E.nodeId n) = true) ∧
      ∃ output, s.results.lookup (E.nodeId n) = some output ∧ isErrorOutput output = true := by
  have hAnswer : ∀ results, E.localAnswer G evaluate n results =
      some (E.tryDispatchVerify n results condition checkLabel onFailure) := by
    intro results
    rw [ParallelWorkflowEngine.localAnswer, hKind]
  obtain ⟨message, hMessage⟩ := tryDispatchVerify_error checkLabel hFails hMode
  obtain ⟨⟨mode, output, hVerdict, hStored⟩, -⟩ :=
    stored_of_local hIds hWaits hRun hExecuted hAnswer
  rw [hKind, hMessage] at hVerdict
  obtain ⟨hIsError, hAllowed, -⟩ := Reactor.failureVerdict_error hVerdict
  refine ⟨?_, output, hStored, hIsError⟩
  by_contra hNeither
  rw [not_or, not_not, Bool.not_eq_true] at hNeither
  have hHalts : (E.reactor executionId ∅).continueOnError
      ((E.reactor executionId ∅).nodeId n) = false := hNeither.2
  rw [hNeither.1, hHalts] at hAllowed
  cases hAllowed

end Runs

section Samples

def gatheringEngine : ParallelWorkflowEngine (bareHost true) :=
  { ParallelWorkflowEngine.new with
    graph := ⟨[31, 32, 33, 34], [⟨0, 2, {}⟩, ⟨1, 2, {}⟩, ⟨2, 3, {}⟩], by decide⟩
    nodeMeta := nodeTable [(31, moduleNode), (32, moduleNode), (33, systemNode .collect),
      (34, moduleNode)] }

def gatheredItems : List Json := [.bool false, .bool true]

def gatheringActions : List Action :=
  [.pop .accepted, .pop .accepted, .finish 1 (.ok (.bool false)) 1, .visit,
    .finish 0 (.ok (.bool true)) 1, .visit, .pop (.output (collected gatheredItems))]

theorem gatheringEngine_waitsForAll : WaitsForAll gatheringEngine := by
  intro idx hIdx mode expr hKind
  have hNone : ∀ idx < 4, (gatheringEngine.reactor 9 ∅).isFanIn idx = false := by decide
  have hIs : (gatheringEngine.reactor 9 ∅).isFanIn idx = true :=
    Reactor.isFanIn_iff.2 ⟨mode, expr, hKind⟩
  rw [hNone idx hIdx] at hIs
  cases hIs

theorem gatheringEngine_acyclic : gatheringEngine.graph.Acyclic :=
  acyclic_of_rank id (show ∀ e ∈ gatheringEngine.graph.edges, id e.source < id e.target by decide)

/-- The third module is launched behind the collected outputs. -/
theorem local_answers_final_gathering :
    ∃ s t : State, s.executing.length = 0 ∧ t.executing.length = 1 ∧
      (∃ answer mode output, gatheringEngine.localAnswer unitDoubles approving 2 t.results =
        some answer ∧ (gatheringEngine.reactor 9 ∅).handlerVerdict 2
          (gatheringEngine.kindOf (gatheringEngine.nodeId 2)) answer = some (mode, output) ∧
            t.results.lookup (gatheringEngine.nodeId 2) = some output) ∧
        t.results.lookup (gatheringEngine.nodeId 2) = s.results.lookup (gatheringEngine.nodeId 2) ∧
          ∀ p, gatheringEngine.graph.Arc p 2 →
            (t.results.lookup (gatheringEngine.nodeId p)).isSome = true ∧
              t.results.lookup (gatheringEngine.nodeId p) =
                s.results.lookup (gatheringEngine.nodeId p) := by
  let R := gatheringEngine.reactor 9 ∅
  have hReplays : (replay R.step (AnswersLocally R unitDoubles approving) gatheringActions
      (R.initialState ∅)).bind (fun s => (replay R.step (AnswersLocally R unitDoubles approving)
        [.visit, .pop .accepted] s).map fun t => decide (s.executing.length = 0 ∧
          t.executing.length = 1 ∧ .executed 2 ∈ s.history ∧
            (gatheringEngine.localAnswer unitDoubles approving 2 s.results).isSome)) =
              some true := by
    decide +kernel
  obtain ⟨s, hs, hReplay⟩ := Option.bind_eq_some_iff.1 hReplays
  obtain ⟨t, ht, hEnds⟩ := Option.map_eq_some_iff.1 hReplay
  obtain ⟨hNone, hOne, hExecuted, hLocal⟩ := of_decide_eq_true hEnds
  exact ⟨s, t, hNone, hOne, local_answers_final gatheringEngine (by decide)
    gatheringEngine_waitsForAll 9 unitDoubles approving s t
    ⟨gatheringEngine_acyclic, replay_run hs⟩ (replay_run ht) 2 hExecuted hLocal⟩

theorem joins_are_barriers_gathering :
    ∃ s : State, s.results.lookup 33 = some (collected gatheredItems) ∧
      ∃ values, (gatheringEngine.graph.predecessors 2).Forall₂
        (fun p value => s.results.lookup (gatheringEngine.nodeId p) = some value) values ∧
          s.results.lookup (gatheringEngine.nodeId 2) =
            some (collected (values.map stripBranch)) := by
  let R := gatheringEngine.reactor 9 ∅
  have hReplay : (replay R.step (AnswersLocally R unitDoubles approving) gatheringActions
      (R.initialState ∅)).map (fun s => decide (.executed 2 ∈ s.history ∧
        s.results.lookup 33 = some (collected gatheredItems))) = some true := by
    decide +kernel
  obtain ⟨s, hs, hEnds⟩ := Option.map_eq_some_iff.1 hReplay
  obtain ⟨hExecuted, hCollected⟩ := of_decide_eq_true hEnds
  exact ⟨s, hCollected, joins_are_barriers gatheringEngine (by decide) gatheringEngine_waitsForAll 9
    unitDoubles approving s ⟨gatheringEngine_acyclic, replay_run hs⟩ 2 .collect _ rfl rfl hExecuted⟩

/-- A loop that stops after its first iteration, and a check of its output that fails. -/
def checkedLoopEngine : ParallelWorkflowEngine (bareHost true) :=
  { ParallelWorkflowEngine.new with
    graph := ⟨[41, 42], [⟨0, 1, {}⟩], by decide⟩
    nodeMeta := nodeTable [(41, systemNode (.whileLoop "more" 3)),
      (42, systemNode (.verify "done" none "error"))]
    nodeConfigs := nodeTable [(42, .object [("__continue_on_error", .bool true)])]
    expressionEvaluator := some ⟨fun expression context =>
      expression = "more" && (context.get "__loop_iteration").isNone⟩ }

/-- What the handlers of the loop and of the check answer. -/
def checkedLoopActions : List Action :=
  [.pop (.output (.object [("iterations", .ofCount 1), ("output", loopTurn 1 (.object []))])),
    .visit, .pop (.error (verificationMessage "output quality" "done"))]

theorem checkedLoopEngine_waitsForAll : WaitsForAll checkedLoopEngine := by
  intro idx hIdx mode expr hKind
  match idx, hIdx with
  | 0, _ => cases hKind
  | 1, _ => cases hKind

theorem checkedLoopEngine_acyclic : checkedLoopEngine.graph.Acyclic :=
  acyclic_of_rank id (show ∀ e ∈ checkedLoopEngine.graph.edges, id e.source < id e.target by decide)

theorem checked_loop_replays : ∃ s : State, checkedLoopEngine.FreshRun 9
    (AnswersLocally · unitDoubles approving) s ∧ .executed 0 ∈ s.history ∧
      .executed 1 ∈ s.history ∧ checkedLoopEngine.evalBool "done"
        (checkedLoopEngine.gatherInputs 1 s.results) = false := by
  let R := checkedLoopEngine.reactor 9 ∅
  have hReplay : (replay R.step (AnswersLocally R unitDoubles approving) checkedLoopActions
      (R.initialState ∅)).map (fun s => decide (.executed 0 ∈ s.history ∧ .executed 1 ∈ s.history ∧
        checkedLoopEngine.evalBool "done" (checkedLoopEngine.gatherInputs 1 s.results) = false)) =
          some true := by
    decide +kernel
  obtain ⟨s, hs, hEnds⟩ := Option.map_eq_some_iff.1 hReplay
  exact ⟨s, ⟨checkedLoopEngine_acyclic, replay_run hs⟩, of_decide_eq_true hEnds⟩

theorem while_loop_exact_checked :
    ∃ s : State, ∃ k ≤ 3,
      s.results.lookup (checkedLoopEngine.nodeId 0) = some (.object [("iterations", .ofCount k),
        ("output", loopTurns 0 k (checkedLoopEngine.gatherInputs 0 s.results))]) ∧
      (∀ j < k, checkedLoopEngine.evalBool "more"
        (loopTurns 0 j (checkedLoopEngine.gatherInputs 0 s.results)) = true) ∧
          (k < 3 → checkedLoopEngine.evalBool "more"
            (loopTurns 0 k (checkedLoopEngine.gatherInputs 0 s.results)) = false) := by
  obtain ⟨s, hRun, hExecuted, -⟩ := checked_loop_replays
  exact ⟨s, while_loop_exact checkedLoopEngine (by decide) checkedLoopEngine_waitsForAll 9
    unitDoubles approving s hRun 0 "more" 3 rfl hExecuted⟩

theorem failed_check_is_error_checked :
    ∃ s : State, ((checkedLoopEngine.reactor 9 ∅).errorChildren 1 ≠ [] ∨
      checkedLoopEngine.continueOnError (checkedLoopEngine.nodeId 1) = true) ∧
        ∃ output, s.results.lookup (checkedLoopEngine.nodeId 1) = some output ∧
          isErrorOutput output = true := by
  obtain ⟨s, hRun, -, hExecuted, hFails⟩ := checked_loop_replays
  exact ⟨s, failed_check_is_error checkedLoopEngine (by decide) checkedLoopEngine_waitsForAll 9
    unitDoubles approving s hRun 1 "done" "error" none rfl hExecuted hFails (by decide)⟩

end Samples

end TalosWorkflow
