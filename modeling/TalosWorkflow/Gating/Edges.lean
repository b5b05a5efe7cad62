import TalosWorkflow.Gating.Results

/-!
# Edge gating

Error edges and edge conditions hold back a child in every run whose steps
look at them.
-/

namespace TalosWorkflow

open Multigraph

variable {H : Host}

section Definitions

variable (R : Reactor H)

/-- An error edge behind a success, or a condition that is false on the recorded output. -/
def Reactor.blocks (logic : EdgeLogic) (output : Json) : Bool :=
  (logic.isError && !isErrorOutput output) ||
    match logic.condition with
    | some condition => !R.evalBool condition (unwrapOutput output)
    | none => false

/-- The edge is blocked by what its source has recorded. The inner members of a chain record
nothing; they have succeeded once the next member is executed. -/
def Reactor.Blocked (s : State) (e : Edge EdgeLogic) : Prop :=
  (∃ output, s.results.lookup (R.nodeId e.source) = some output ∧
    R.blocks e.weight output = true) ∨
    e.weight.isError = true ∧ ∃ b, R.Consecutive e.source b ∧ .executed b ∈ s.history

/-- All edges that lead to the child are blocked. -/
def Reactor.Gated (s : State) (child : NodeIndex) : Prop :=
  R.graph.inDegree child ≠ 0 ∧ ∀ e ∈ R.graph.incoming child, R.Blocked s e

def Reactor.admits (results : Table Json) (child : NodeIndex) : Bool :=
  (R.graph.incoming child).any fun e =>
    (results.lookup (R.nodeId e.source)).any fun output => !R.blocks e.weight output

/-- The edges inside of a chain are no error edges, and no recorded output blocks them. -/
def Reactor.opens (results : Table Json) (members : List NodeIndex) : Bool :=
  members.tail.all fun n => (R.graph.incoming n).all fun e =>
    !e.weight.isError && (results.lookup (R.nodeId e.source)).all fun output =>
      !R.blocks e.weight output

/-- A completion that does not evaluate edges makes no child ready whose edges are all blocked. -/
def Visit.heedsEdges (s : State) (visit : Visit) : Prop :=
  match visit.mode with
  | .succeeds _ => True
  | _ => R.marks visit = false → R.isFanIn visit.target = false → R.fillsNow s visit.target →
      R.admits s.results visit.target = true

theorem Visit.heedsEdges_iff (s : State) (visit : Visit) :
    (visit.mode.output.isSome = false → R.marks visit = false → R.isFanIn visit.target = false →
      R.fillsNow s visit.target → R.admits s.results visit.target = true) ↔
      visit.heedsEdges R s := by
  rw [Visit.heedsEdges]
  cases visit.mode with
  | succeeds output => simp [Completion.output]
  | _ => simp [Completion.output]

instance (s : State) (visit : Visit) : Decidable (visit.heedsEdges R s) :=
  decidable_of_iff _ (Visit.heedsEdges_iff R s visit)

def Action.isPop : Action → Bool
  | .pop _ => true
  | _ => false

/-- The edges are looked at wherever a child becomes ready or a chain is launched. -/
def HeedsEdges (s : State) (action : Action) : Prop :=
  RecordsOnce R s action ∧
    (action matches .visit → ∀ visit ∈ s.visits.head?, visit.heedsEdges R s) ∧
    (action.isPop = true → ∀ idx ∈ s.ready.head?, ∀ members ∈ R.chainOf idx,
      R.opens s.results members = true)

instance : ∀ s action, Decidable (HeedsEdges R s action) := by
  intro s action
  unfold HeedsEdges
  infer_instance

/-- What has been made ready was let through by an edge, and so were the followers of chains. -/
structure EdgesHeeded (s : State) : Prop extends Tracked s where
  outputs : ∀ visit ∈ s.visits, ∀ output, visit.mode = .succeeds output →
    s.results.lookup (R.nodeId visit.source) = some output
  ready : ∀ n ∈ s.ready, .enqueued n ∈ s.history
  leaders : ∀ n, .enqueued n ∈ s.history → ¬ R.IsFollower n
  admitted : ∀ n, .enqueued n ∈ s.history → R.isFanIn n = false → R.graph.inDegree n ≠ 0 →
    R.admits s.results n = true
  started : ∀ n ∈ startedNodes s.history, .enqueued n ∈ s.history ∨
    ∀ e ∈ R.graph.incoming n, e.weight.isError = false ∧ e.source ∈ startedNodes s.history ∧
      R.IsInner e.source ∧ ∀ output ∈ s.results.lookup (R.nodeId e.source),
        R.blocks e.weight output = false

end Definitions

section Edges

variable {R : Reactor H} {s t base : State} {action : Action}

theorem admits_iff {results : Table Json} {child : NodeIndex} :
    R.admits results child = true ↔ ∃ e ∈ R.graph.incoming child, ∃ output,
      results.lookup (R.nodeId e.source) = some output ∧ R.blocks e.weight output = false := by
  simp [Reactor.admits, Option.any_eq_true]

theorem admits_mono {results results' : Table Json} {child : NodeIndex}
    (hKept : ∀ id value, results.lookup id = some value → results'.lookup id = some value)
    (h : R.admits results child = true) : R.admits results' child = true := by
  obtain ⟨e, hIn, output, hOutput, hPasses⟩ := admits_iff.1 h
  exact admits_iff.2 ⟨e, hIn, output, hKept _ _ hOutput, hPasses⟩

theorem not_gated_of_admits (hChains : R.ChainsDetected) {child : NodeIndex}
    (hLeader : ¬ R.IsFollower child) (h : R.admits s.results child = true) :
    ¬ R.Gated s child := by
  rintro ⟨-, hBlocked⟩
  obtain ⟨e, hIn, output, hOutput, hPasses⟩ := admits_iff.1 h
  obtain ⟨other, hOther, hBlocks⟩ | ⟨-, b, hConsecutive, -⟩ := hBlocked e hIn
  · rw [hOutput, Option.some.injEq] at hOther
    rw [← hOther, hPasses] at hBlocks
    cases hBlocks
  · obtain ⟨hEdge, hTarget⟩ := (mem_incoming _).1 hIn
    exact hLeader (isFollower_of_arc hChains ⟨b, hConsecutive⟩ ⟨e, hEdge, rfl, hTarget⟩)

/-- The success path enqueues a child only along an edge that lets it through. -/
theorem admits_of_succeeds {visit : Visit} {output : Json} (hMode : visit.mode = .succeeds output)
    (hMarks : R.marks visit = false) (hArc : R.graph.Arc visit.source visit.target)
    (hPasses : R.edgeConditionFailed visit.source visit.target output = false)
    (hOutput : s.results.lookup (R.nodeId visit.source) = some output) :
    R.admits s.results visit.target = true := by
  obtain ⟨e, hEdge, hSource, hTarget⟩ := hArc
  have hConnects : e ∈ R.graph.edgesConnecting visit.source visit.target :=
    (mem_edgesConnecting _).2 ⟨hEdge, hSource, hTarget⟩
  refine admits_iff.2 ⟨e, (mem_incoming _).2 ⟨hEdge, hTarget⟩, output, hSource ▸ hOutput, ?_⟩
  rw [Reactor.marks, hMode] at hMarks
  have hDefault : e.weight.isError = false := by
    have hNone := List.any_eq_false.1 hMarks e hConnects
    simpa using hNone
  have hCondition := List.any_eq_false.1 hPasses e hConnects
  rw [Reactor.blocks, hDefault, Bool.false_and, Bool.false_or]
  cases hLogic : e.weight.condition with
  | none => rfl
  | some condition =>
      rw [hLogic] at hCondition
      exact Bool.eq_false_iff.2 hCondition

theorem visited_admits {visit : Visit} {rest : List Visit} (hVisits : s.visits = visit :: rest)
    (hArc : R.graph.Arc visit.source visit.target) (h : EdgesHeeded R s)
    (hHeeds : visit.heedsEdges R s) (hFanIn : R.isFanIn visit.target = false)
    (hVisit : Reactor.Visited R { s with visits := rest } visit t)
    (hEnqueued : .enqueued visit.target ∈ t.history) :
    .enqueued visit.target ∈ s.history ∨ R.admits s.results visit.target = true := by
  have hOld : ∀ {events : List Event}, Reactor.Fills R { s with visits := rest } visit.target events →
      .enqueued visit.target ∈ events ++ s.history → .enqueued visit.target ∈ s.history := by
    intro events hFills hIn
    exact (mem_append_of_not_enqueued hFills.not_enqueued).1 hIn
  cases hVisit with
  | marked => exact .inl hEnqueued
  | counted => exact .inl hEnqueued
  | wrapped => exact .inl (by simpa using hEnqueued)
  | cascaded events _ _ hFills =>
      rw [Reactor.cascadeSkip_eq] at hEnqueued
      exact .inl (hOld hFills hEnqueued)
  | enqueued events hMarks hFills hPasses =>
      refine .inr ?_
      have hNow : R.fillsNow s visit.target := hFills.fillsNow
      cases hMode : visit.mode with
      | succeeds output =>
          exact admits_of_succeeds hMode hMarks hArc (hPasses output hMode)
            (h.outputs visit (hVisits ▸ List.mem_cons_self) output hMode)
      | unblocks | routes =>
          rw [Visit.heedsEdges, hMode] at hHeeds
          exact hHeeds hMarks hFanIn hNow

theorem handlerVerdict_ne_succeeds {idx : NodeIndex} {kind : Option SystemNodeKind}
    {answer : Answer} {output value : Json} :
    R.handlerVerdict idx kind answer ≠ some (.succeeds output, value) := by
  have hFailure : ∀ message, R.failureVerdict idx message ≠ some (.succeeds output, value) := by
    intro message h
    unfold Reactor.failureVerdict at h
    split at h
    · cases h
    · split at h
      · cases h
      · cases h
  intro h
  unfold Reactor.handlerVerdict at h
  split at h
  all_goals first
    | cases h
    | exact hFailure _ h
    | split at h
      · exact hFailure _ h
      · cases h
    | split at h
      · cases h
      · cases h

/-- A node that succeeds records the output that its edges are evaluated on. -/
theorem Concluding.succeeds {start idx : NodeIndex} {events : List Event} {output value : Json}
    (h : Concluding R s action start idx base events (.succeeds output) value) : value = output := by
  cases h with
  | popped _ rest answer _ _ _ _ _ _ _ hSettles =>
      cases hSettles with
      | handled _ _ _ hVerdict => exact absurd hVerdict handlerVerdict_ne_succeeds
  | returned position result ran flight _ nodes _ _ _ _ _ _ _ hVerdict =>
      unfold Reactor.resultVerdict at hVerdict
      split at hVerdict
      · split at hVerdict
        · cases hVerdict
          rfl
        · cases hVerdict
      · unfold Reactor.failureVerdict at hVerdict
        split at hVerdict
        · cases hVerdict
        · split at hVerdict
          · cases hVerdict
          · cases hVerdict

end Edges

section Steps

variable {R : Reactor H} {s t base : State} {action : Action}

theorem Reactor.IsInner.lt (hChains : R.ChainsDetected) {n : NodeIndex} (h : R.IsInner n) :
    n < R.graph.nodes.length := by
  obtain ⟨b, hConsecutive⟩ := h
  exact (hConsecutive.linked hChains).1.source_lt

theorem exists_consecutive {members : List NodeIndex} (hChain : members ∈ R.chains) {n : NodeIndex}
    (hn : n ∈ members.tail) : ∃ p ∈ members, R.Consecutive p n := by
  obtain ⟨i, hi, rfl⟩ := List.getElem_of_mem hn
  rw [List.length_tail] at hi
  exact ⟨members[i], List.getElem_mem _, Reactor.consecutive_iff.2
    ⟨members, hChain, i, by omega, by omega, rfl, (List.getElem_tail ..).symm⟩⟩

theorem visited_rest {visit : Visit} {rest : List Visit}
    (h : Reactor.Visited R { s with visits := rest } visit t) :
    t.visits = rest ∧ ∀ n ∈ t.ready, n ∈ s.ready ∨ .enqueued n ∈ t.history := by
  cases h with
  | cascaded =>
      rw [Reactor.cascadeSkip_eq]
      exact ⟨rfl, fun n hn => .inl hn⟩
  | enqueued =>
      refine ⟨rfl, fun n hn => (List.mem_append.1 hn).imp_right fun hNew => ?_⟩
      rw [List.mem_singleton.1 hNew]
      exact List.mem_cons_self
  | marked => exact ⟨rfl, fun n hn => .inl hn⟩
  | counted => exact ⟨rfl, fun n hn => .inl hn⟩
  | wrapped => exact ⟨rfl, fun n hn => .inl hn⟩

theorem Concluding.started_ready {start idx n : NodeIndex} {events : List Event}
    {mode : Completion} {value : Json} (h : Concluding R s action start idx base events mode value)
    (hn : n ∈ startedNodes events) : n ∈ s.ready := by
  cases h with
  | stored => cases hn
  | returned =>
      rw [startedNodes_executed] at hn
      cases hn
  | popped _ rest answer _ _ _ _ _ hReady _ hSettles =>
      rw [hReady]
      cases hSettles with
      | skipped => cases hn
      | refused => cases hn
      | handled =>
          rw [Reactor.handledEvents] at hn
          split at hn
          · rw [List.mem_singleton.1 hn]
            exact List.mem_cons_self
          · rw [List.mem_singleton.1 hn]
            exact List.mem_cons_self

/-- What a step starts was ready, unless it follows the head of a chain. -/
theorem Relocating.started_ready {n : NodeIndex} {events : List Event}
    (h : Relocating R s action t events) (hn : n ∈ startedNodes events) :
    n ∈ s.ready ∨ ∃ members, (∃ idx ∈ s.ready.head?, R.chainOf idx = some members ∧
      action.isPop = true) ∧ events = [.chainDispatched members] ∧ n ∈ members.tail := by
  cases h with
  | launchedSingle idx rest _ _ hReady =>
      rw [hReady, List.mem_singleton.1 hn]
      exact .inl List.mem_cons_self
  | launchedChain idx rest answer members _ _ hReady hChain hHead =>
      have hMember : n ∈ members := by simpa [startedNodes] using hn
      obtain ⟨first, others, rfl⟩ := List.exists_cons_of_ne_nil (List.ne_nil_of_mem hMember)
      rw [List.head?_cons, Option.some.injEq] at hHead
      subst hHead
      rw [hReady]
      obtain rfl | hFollows := List.mem_cons.1 hMember
      · exact .inl List.mem_cons_self
      · exact .inr ⟨_, ⟨first, rfl, hChain, rfl⟩, rfl, hFollows⟩
  | drained idx rest values _ _ hReady =>
      rw [startedNodes_dispatched, List.mem_reverse] at hn
      rw [hReady]
      obtain rfl | hn := List.mem_cons.1 hn
      · exact .inl List.mem_cons_self
      · exact .inl (List.mem_cons_of_mem _ (List.mem_of_mem_filter hn))

namespace EdgesHeeded

/-- The queues and the visits after a step are given; what was let through before stays so. -/
theorem append (h : EdgesHeeded R s) (hTracked : Tracked t) {events : List Event}
    (hHistory : t.history = events ++ s.history)
    (hKept : ∀ id value, s.results.lookup id = some value → t.results.lookup id = some value)
    (hInner : ∀ n ∈ startedNodes s.history, R.IsInner n →
      t.results.lookup (R.nodeId n) = s.results.lookup (R.nodeId n))
    (hOutputs : ∀ visit ∈ t.visits, ∀ output, visit.mode = .succeeds output →
      t.results.lookup (R.nodeId visit.source) = some output)
    (hReady : ∀ n ∈ t.ready, .enqueued n ∈ t.history)
    (hNew : ∀ n, .enqueued n ∈ events → ¬ R.IsFollower n ∧
      (R.isFanIn n = false → R.graph.inDegree n ≠ 0 → R.admits s.results n = true))
    (hStarted : ∀ n ∈ startedNodes events, .enqueued n ∈ s.history ∨
      ∀ e ∈ R.graph.incoming n, e.weight.isError = false ∧ e.source ∈ startedNodes t.history ∧
        R.IsInner e.source ∧ ∀ output ∈ t.results.lookup (R.nodeId e.source),
          R.blocks e.weight output = false) : EdgesHeeded R t := by
  have hMem : ∀ n, .enqueued n ∈ t.history → .enqueued n ∈ events ∨ .enqueued n ∈ s.history :=
    fun n hn => List.mem_append.1 (hHistory ▸ hn)
  have hOld : ∀ n, .enqueued n ∈ s.history → .enqueued n ∈ t.history := by
    intro n hn
    rw [hHistory]
    exact List.mem_append_right _ hn
  refine
    { hTracked with
      outputs := hOutputs
      ready := hReady
      leaders := fun n hn => ?_
      admitted := fun n hn hFanIn hDegree => ?_
      started := fun n hn => ?_ }
  · obtain hn | hn := hMem n hn
    · exact (hNew n hn).1
    · exact h.leaders n hn
  · obtain hn | hn := hMem n hn
    · exact admits_mono hKept ((hNew n hn).2 hFanIn hDegree)
    · exact admits_mono hKept (h.admitted n hn hFanIn hDegree)
  · rw [hHistory, startedNodes_append] at hn
    obtain hn | hn := List.mem_append.1 hn
    · exact (hStarted n hn).imp_left (hOld n)
    · obtain hEnqueued | hFollows := h.started n hn
      · exact .inl (hOld n hEnqueued)
      · refine .inr fun e he => ?_
        obtain ⟨hError, hSource, hIsInner, hPasses⟩ := hFollows e he
        refine ⟨hError, ?_, hIsInner, ?_⟩
        · rw [hHistory, startedNodes_append]
          exact List.mem_append_right _ hSource
        · rw [hInner e.source hSource hIsInner]
          exact hPasses

theorem visited (hChains : R.ChainsDetected) (hIds : R.graph.nodes.Nodup) (hOrderly : Orderly R s)
    (h : EdgesHeeded R s) (hHeeds : HeedsEdges R s .visit) {visit : Visit} {rest : List Visit}
    (hVisits : s.visits = visit :: rest) (hStep : R.step s .visit = some t)
    (hVisit : Reactor.Visited R { s with visits := rest } visit t) : EdgesHeeded R t := by
  have hHead : visit ∈ s.visits.head? := by
    rw [hVisits]
    rfl
  obtain ⟨hLeader, hArc⟩ := hOrderly.targets visit (hVisits ▸ List.mem_cons_self)
  obtain ⟨events, hHistory, hEvents⟩ := visited_history hVisit
  obtain ⟨hRest, hReady⟩ := visited_rest hVisit
  have hKept : ∀ id value, s.results.lookup id = some value → t.results.lookup id = some value :=
    fun id value => hHeeds.1.lookup hOrderly hStep
  refine h.append (h.toTracked.step hOrderly hStep) hHistory hKept (fun n hStarted hInner => ?_)
    (fun v hv output hMode => ?_) (fun n hn => ?_) (fun n hn => ?_) fun n hn => ?_
  · obtain hSame | ⟨hSkips, hResults⟩ := visited_results_or_skips hVisit
    · rw [hSame]
    · have hne : R.nodeId n ≠ R.nodeId visit.target := fun hId =>
        (hHeeds.1.2 rfl visit hHead hSkips).1
          (nodeId_injective hIds (hInner.lt hChains) hArc.target_lt hId ▸ hStarted)
      rw [hResults, AList.lookup_insert_ne hne]
  · refine hKept _ _ (h.outputs v ?_ output hMode)
    rw [hVisits]
    exact List.mem_cons_of_mem visit (hRest ▸ hv)
  · obtain hOld | hNew := hReady n hn
    · rw [hHistory]
      exact List.mem_append_right _ (h.ready n hOld)
    · exact hNew
  · obtain rfl : n = visit.target := by
      obtain hEvent | hEvent := hEvents _ hn
      · exact Event.enqueued.inj hEvent
      · cases hEvent
    refine ⟨hLeader, fun hFanIn hDegree => ?_⟩
    have hEnqueued : .enqueued visit.target ∈ t.history := by
      rw [hHistory]
      exact List.mem_append_left _ hn
    obtain hOld | hAdmits :=
      visited_admits hVisits hArc h (hHeeds.2.1 rfl visit hHead) hFanIn hVisit hEnqueued
    · exact h.admitted _ hOld hFanIn hDegree
    · exact hAdmits
  · rw [startedNodes_visited hEvents] at hn
    cases hn

theorem concluded (hAcyclic : R.graph.Acyclic) (hChains : R.ChainsDetected)
    (hIds : R.graph.nodes.Nodup) (hOrderly : Orderly R s) (h : EdgesHeeded R s)
    (hHeeds : HeedsEdges R s action) {start idx : NodeIndex} {events : List Event}
    {mode : Completion} {value : Json}
    (hConcluding : Concluding R s action start idx base events mode value)
    (hStep : R.step s action = some (R.conclude base idx mode value)) :
    EdgesHeeded R (R.conclude base idx mode value) := by
  have hShifted := hConcluding.shifted
  have hTail := hConcluding.isTail hOrderly hChains
  have hLength : idx < R.graph.nodes.length :=
    hOrderly.members_lt hChains (hShifted.work.mem_iff.2 List.mem_cons_self) hTail.mem_members
  have hHistory : (R.conclude base idx mode value).history =
      (.released idx :: events) ++ s.history := by
    rw [Reactor.conclude_history, hShifted.history]
    rfl
  have hResults : (R.conclude base idx mode value).results =
      s.results.insert (R.nodeId idx) value := by
    rw [Reactor.conclude_results, hShifted.results]
  refine h.append (h.toTracked.step hOrderly hStep) hHistory
    (fun id value => hHeeds.1.lookup hOrderly hStep) (fun n _ hInner => ?_)
    (fun v hv output hMode => ?_) (fun n hn => ?_) (fun n hn => ?_) fun n hn => .inl ?_
  · have hne : R.nodeId n ≠ R.nodeId idx := by
      intro hId
      obtain rfl := nodeId_injective hIds (hInner.lt hChains) hLength hId
      exact hTail.not_isInner hAcyclic hChains hInner
    rw [hResults, AList.lookup_insert_ne hne]
  · rw [Reactor.conclude_visits, List.mem_map] at hv
    obtain ⟨child, -, rfl⟩ := hv
    dsimp only at hMode ⊢
    subst hMode
    rw [hResults, AList.lookup_insert, hConcluding.succeeds]
  · rw [Reactor.conclude_ready] at hn
    rw [hHistory]
    refine List.mem_append_right _ (h.ready n ?_)
    exact hShifted.ready.subset (List.mem_append_right _ hn)
  · have hEvent : .enqueued n ∈ events := by simpa using hn
    rw [← mem_enqueuedNodes, hShifted.quiet.enqueued] at hEvent
    cases hEvent
  · rw [startedNodes_cons] at hn
    exact h.ready n (hConcluding.started_ready hn)

theorem relocated (hChains : R.ChainsDetected) (hOrderly : Orderly R s) (h : EdgesHeeded R s)
    (hHeeds : HeedsEdges R s action) {events : List Event}
    (hRelocating : Relocating R s action t events) (hStep : R.step s action = some t) :
    EdgesHeeded R t := by
  have hShifted := hRelocating.shifted
  refine h.append (h.toTracked.step hOrderly hStep) hShifted.history
    (fun id value hOld => hShifted.results ▸ hOld) (fun n _ _ => by rw [hShifted.results])
    (fun v hv => ?_) (fun n hn => ?_) (fun n hn => ?_) fun n hn => ?_
  · rw [hShifted.visits] at hv
    cases hv
  · rw [hShifted.history]
    refine List.mem_append_right _ (h.ready n ?_)
    exact hShifted.ready.subset (List.mem_append_right _ hn)
  · rw [← mem_enqueuedNodes, hShifted.quiet.enqueued] at hn
    cases hn
  · obtain hReady | ⟨members, hChain, rfl, hFollows⟩ := hRelocating.started_ready hn
    · exact .inl (h.ready n hReady)
    · refine .inr fun e he => ?_
      obtain ⟨idx, hIdx, hOf, hPop⟩ := hChain
      have hOpens := hHeeds.2.2 hPop idx hIdx members hOf
      have hEdges := List.all_eq_true.1 (List.all_eq_true.1 hOpens n hFollows) e he
      rw [Bool.and_eq_true, Bool.not_eq_true'] at hEdges
      obtain ⟨hEdge, hTarget⟩ := (mem_incoming _).1 he
      obtain ⟨p, hMember, hConsecutive⟩ := exists_consecutive (chainOf_eq_some hOf).1 hFollows
      have hLinked := hConsecutive.linked hChains
      obtain rfl : p = e.source :=
        R.graph.eq_of_inDegree_one hLinked.2.2 hLinked.1 ⟨e, hEdge, rfl, hTarget⟩
      refine ⟨hEdges.1, ?_, ⟨n, hConsecutive⟩, fun output hOutput => ?_⟩
      · rw [hShifted.history]
        exact mem_startedNodes.2 (.inr ⟨members, List.mem_append_left _ List.mem_cons_self, hMember⟩)
      · rw [hShifted.results] at hOutput
        have hPasses := (Option.all_eq_true _ _).1 hEdges.2 output hOutput
        simpa using hPasses

theorem paused (hAcyclic : R.graph.Acyclic) (hChains : R.ChainsDetected)
    (hIds : R.graph.nodes.Nodup) (hOrderly : Orderly R s) (h : EdgesHeeded R s)
    (hHeeds : HeedsEdges R s action) {idx : NodeIndex} {rest : List NodeIndex} (waiting : Json)
    (hVisits : s.visits = []) (hReady : s.ready = idx :: rest) (hPlain : R.chainOf idx = none)
    (hStep : R.step s action = some (R.pauseAt { s with ready := rest } idx waiting)) :
    EdgesHeeded R (R.pauseAt { s with ready := rest } idx waiting) := by
  have hIdx : idx ∈ s.ready := hReady ▸ List.mem_cons_self
  have hLength : idx < R.graph.nodes.length :=
    (hOrderly.leaders idx (List.mem_append_right _ (List.mem_append_left _ hIdx))).2
  have hHistory : (R.pauseAt { s with ready := rest } idx waiting).history =
      [.executed idx, .dispatched idx] ++ s.history := rfl
  refine h.append (h.toTracked.step hOrderly hStep) hHistory
    (fun id value => hHeeds.1.lookup hOrderly hStep) (fun n _ hInner => ?_) (fun v hv => ?_)
    (fun n hn => ?_) (by simp) fun n hn => .inl ?_
  · have hne : R.nodeId n ≠ R.nodeId idx := by
      intro hId
      obtain rfl := nodeId_injective hIds (hInner.lt hChains) hLength hId
      exact (isTail_self hPlain).not_isInner hAcyclic hChains hInner
    rw [Reactor.pauseAt_results, AList.lookup_insert_ne hne]
  · have hNone : v ∈ s.visits := hv
    rw [hVisits] at hNone
    cases hNone
  · rw [hHistory]
    refine List.mem_append_right _ (h.ready n ?_)
    rw [hReady]
    exact List.mem_cons_of_mem idx hn
  · rw [List.mem_singleton.1 hn]
    exact h.ready idx hIdx

theorem halted (h : EdgesHeeded R s) (e : Halt) (hTracked : Tracked (s.halt e)) :
    EdgesHeeded R (s.halt e) := by
  cases e with
  | failed message => exact { h with }
  | charBoundary => exact { h with }
  | counterUnderflow idx =>
      have hHistory : (s.halt (.counterUnderflow idx)).history =
          [.underflow idx] ++ s.history := rfl
      refine h.append hTracked hHistory (fun _ _ hOld => hOld) (fun _ _ _ => rfl) h.outputs
        (fun n hn => ?_) (by simp) (by simp [startedNodes])
      exact List.mem_cons_of_mem _ (h.ready n hn)

theorem step (hAcyclic : R.graph.Acyclic) (hChains : R.ChainsDetected) (hIds : R.graph.nodes.Nodup)
    (hOrderly : Orderly R s) (h : EdgesHeeded R s) (hHeeds : HeedsEdges R s action)
    (hStep : R.step s action = some t) : EdgesHeeded R t := by
  obtain ⟨-, hStepped | ⟨e, -, rfl⟩⟩ := Reactor.step_cases hStep
  · cases hOrderly.moved hStepped with
    | visited visit rest _ hVisits hVisit =>
        exact h.visited hChains hIds hOrderly hHeeds hVisits hStep hVisit
    | concluded _ start idx base events mode value hConcluding =>
        exact h.concluded hAcyclic hChains hIds hOrderly hHeeds hConcluding hStep
    | relocated _ _ events hRelocating => exact h.relocated hChains hOrderly hHeeds hRelocating hStep
    | paused idx rest answer waiting hVisits _ hReady hPlain =>
        exact h.paused hAcyclic hChains hIds hOrderly hHeeds waiting hVisits hReady hPlain hStep
  · exact h.halted e (h.toTracked.step hOrderly hStep)

theorem initial {initialResults : Table Json} (hOrderly : Orderly R (R.initialState initialResults))
    (hSeeds : ∀ n ∈ R.initialReady initialResults, R.isFanIn n = false → R.graph.inDegree n ≠ 0 →
      R.admits initialResults n = true) : EdgesHeeded R (R.initialState initialResults) := by
  refine
    { Tracked.initial with
      outputs := fun visit hVisit => absurd hVisit List.not_mem_nil
      ready := fun n hn => enqueued_initialState.2 hn
      leaders := fun n hn => (hOrderly.leaders n ?_).1
      admitted := fun n hn => hSeeds n (enqueued_initialState.1 hn)
      started := fun n hn => ?_ }
  · refine List.mem_append_right _ (List.mem_append_left _ ?_)
    exact enqueued_initialState.1 hn
  · rw [mem_startedNodes] at hn
    simp [Reactor.initialState] at hn

theorem not_started_of_gated (hChains : R.ChainsDetected) (h : EdgesHeeded R s) {child : NodeIndex}
    (hFanIn : R.isFanIn child = false) (hGated : R.Gated s child) :
    child ∉ startedNodes s.history := by
  intro hStarted
  obtain hEnqueued | hFollows := h.started child hStarted
  · exact not_gated_of_admits hChains (h.leaders child hEnqueued)
      (h.admitted child hEnqueued hFanIn hGated.1) hGated
  · obtain ⟨hDegree, hBlocked⟩ := hGated
    obtain ⟨p, e, hEdge, -, hTarget⟩ := R.graph.inDegree_pos.1 (Nat.pos_of_ne_zero hDegree)
    have hIn := (mem_incoming R.graph).2 ⟨hEdge, hTarget⟩
    obtain ⟨hDefault, -, -, hPasses⟩ := hFollows e hIn
    obtain ⟨output, hOutput, hBlocks⟩ | ⟨hError, -⟩ := hBlocked e hIn
    · rw [hPasses output hOutput] at hBlocks
      cases hBlocks
    · rw [hDefault] at hError
      cases hError

end EdgesHeeded

end Steps

section Runs

/-- A child all of whose edges are blocked is never dispatched, in every run whose steps heed the
edges and whose seeds let the nodes through that they make ready. -/
theorem gated_child_never_dispatched (E : ParallelWorkflowEngine H) (hIds : E.graph.nodes.Nodup)
    (executionId : Uuid) (initialResults : Table Json) (s : State)
    (hSeeds : ∀ n ∈ (E.reactor executionId initialResults).initialReady initialResults,
      (E.reactor executionId initialResults).isFanIn n = false → E.graph.inDegree n ≠ 0 →
        (E.reactor executionId initialResults).admits initialResults n = true)
    (hRun : E.Runs executionId initialResults HeedsEdges s) (child : NodeIndex)
    (hFanIn : (E.reactor executionId initialResults).isFanIn child = false)
    (hGated : (E.reactor executionId initialResults).Gated s child) :
    child ∉ startedNodes s.history := by
  have hChains := reactor_chainsDetected E executionId initialResults
  have hHeeded : EdgesHeeded (E.reactor executionId initialResults) s :=
    runs_invariant _ hRun
      (.initial (Orderly.initial hChains (reactor_fresh_or_seeded E executionId initialResults))
        hSeeds) fun s action t hOrderly hHeeds h hStep =>
        h.step hRun.1 hChains hIds hOrderly hHeeds hStep
  exact hHeeded.not_started_of_gated hChains hFanIn hGated

end Runs

section Samples

/-- A node whose first child hangs on a condition that is false. -/
def gatedChildEngine (parent : NodeMeta) : ParallelWorkflowEngine (bareHost true) :=
  { ParallelWorkflowEngine.new with
    graph := ⟨[1, 2, 3], [⟨0, 1, { condition := some "false" }⟩, ⟨0, 2, {}⟩], by decide⟩
    nodeMeta := nodeTable [(1, parent), (2, moduleNode), (3, moduleNode)]
    expressionEvaluator := some ⟨fun _ _ => false⟩ }

theorem gatedChildEngine_acyclic (parent : NodeMeta) : (gatedChildEngine parent).graph.Acyclic :=
  acyclic_of_rank id (by simp [gatedChildEngine])

theorem gatedChildEngine_gated {parent : NodeMeta} {s : State} {output : Json}
    (hOutput : s.results.lookup 1 = some output) :
    ((gatedChildEngine parent).reactor 9 ∅).Gated s 1 := by
  have hDegree : (gatedChildEngine moduleNode).graph.inDegree 1 ≠ 0 := by decide
  refine ⟨hDegree, fun e he => .inl ⟨output, ?_, ?_⟩⟩
  · obtain rfl : e = ⟨0, 1, { condition := some "false" }⟩ := List.mem_singleton.1 he
    exact hOutput
  · obtain rfl : e = ⟨0, 1, { condition := some "false" }⟩ := List.mem_singleton.1 he
    rfl

/-- The success of a module evaluates the condition, and the child is skipped. -/
theorem gated_child_never_dispatched_module :
    ∃ s : State, s.results.lookup 1 = some .null ∧ 1 ∉ startedNodes s.history := by
  let E := gatedChildEngine moduleNode
  let R := E.reactor 9 ∅
  have hReplay : (replay R.step (HeedsEdges R)
      [.pop .accepted, .finish 0 (.ok .null) 1, .visit, .visit] (R.initialState ∅)).map
        (fun s => s.results.lookup 1) = some (some .null) := by
    decide
  obtain ⟨s, hs, hOutput⟩ := Option.map_eq_some_iff.1 hReplay
  exact ⟨s, hOutput, gated_child_never_dispatched E (by decide) 9 ∅ s (by decide)
    ⟨gatedChildEngine_acyclic moduleNode, replay_run hs⟩ 1 (by decide)
    (gatedChildEngine_gated hOutput)⟩

/-- A collecting node releases its children without evaluating the condition. -/
theorem gated_child_of_collect_dispatched :
    ¬ ∀ (H : Host) (E : ParallelWorkflowEngine H), E.graph.nodes.Nodup →
      ∀ (executionId : Uuid) (s : State), E.FreshRun executionId (fun _ _ _ => True) s →
        ∀ child, (E.reactor executionId ∅).isFanIn child = false →
          (E.reactor executionId ∅).Gated s child → child ∉ startedNodes s.history := by
  intro hAll
  let E := gatedChildEngine (systemNode .collect)
  let R := E.reactor 9 ∅
  have hReplay : (replay R.step (fun _ _ => True)
      [.pop (.output .null), .visit, .visit, .pop .accepted, .pop .accepted]
        (R.initialState ∅)).map (fun s => (s.results.lookup 1, decide (1 ∈ startedNodes s.history))) =
          some (some .null, true) := by
    decide
  obtain ⟨s, hs, hEnd⟩ := Option.map_eq_some_iff.1 hReplay
  rw [Prod.mk.injEq, decide_eq_true_eq] at hEnd
  exact hAll _ E (by decide) 9 s ⟨gatedChildEngine_acyclic _, replay_run hs⟩ 1 (by decide)
    (gatedChildEngine_gated hEnd.1) hEnd.2

end Samples

end TalosWorkflow
