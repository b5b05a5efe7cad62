import TalosWorkflow.Gating.Results

/-!
# Awaited handlers

The invariant by which a failed module reaches its error handler, as long as
nothing on a way to the handler is skipped while it is still waited for.
-/

namespace TalosWorkflow

open Multigraph

variable {H : Host}

def ParallelWorkflowEngine.OnlyHandles (E : ParallelWorkflowEngine H) (handler : NodeIndex) :
    Prop :=
  ∀ e ∈ E.graph.edges, e.target = handler → e.weight.isError = true

def ParallelWorkflowEngine.Indexed (E : ParallelWorkflowEngine H) : Prop :=
  ∀ idx < E.graph.nodes.length, E.nodeMap.lookup (E.nodeId idx) = some idx

theorem ParallelWorkflowEngine.Indexed.addNode {E : ParallelWorkflowEngine H} (h : E.Indexed)
    {id : Uuid} (hFresh : id ∉ E.graph.nodes) (info : NodeMeta) : (E.addNode id info).Indexed := by
  unfold ParallelWorkflowEngine.addNode
  split
  · exact h
  · intro idx hIdx
    simp only [Multigraph.addNode, List.length_append, List.length_singleton] at hIdx
    simp only [ParallelWorkflowEngine.nodeId, Multigraph.addNode]
    obtain hOld | rfl := Nat.lt_succ_iff_lt_or_eq.1 hIdx
    · have hNode := h idx hOld
      rw [ParallelWorkflowEngine.nodeId, List.getElem?_eq_getElem hOld, Option.getD_some] at hNode
      have hne : E.graph.nodes[idx] ≠ id := by
        rintro rfl
        exact hFresh (List.getElem_mem hOld)
      rw [List.getElem?_append_left hOld, List.getElem?_eq_getElem hOld, Option.getD_some,
        AList.lookup_insert_ne hne]
      exact hNode
    · rw [List.getElem?_concat_length, Option.getD_some]
      exact AList.lookup_insert _

section Conditions

variable (handler : NodeIndex) (R : Reactor H)

def Reactor.LeadsTo (n : NodeIndex) : Prop := Relation.ReflTransGen R.graph.Arc n handler

/-- The visit skips nothing that leads to the handler and is still waited for. -/
def Visit.KeepsWaiting (s : State) (visit : Visit) : Prop :=
  if R.marks visit then R.LeadsTo handler visit.target → s.pending visit.target = 0
  else
    ∀ output, visit.mode = .succeeds output →
      R.edgeConditionFailed visit.source visit.target output = true →
        R.fillsNow s visit.target → ∀ g ∈ R.graph.successors visit.target, R.LeadsTo handler g →
          s.pending g = 0 ∨ (R.graph.successors visit.target).count g < s.pending g

/-- No step leaves the handler behind: what leads to it is not skipped while it is waited for, and
the handler itself is neither refused by the rate limiter nor kept back by its error pattern. -/
def KeepsHandler (s : State) : Action → Prop
  | .visit => ∀ visit ∈ s.visits.head?, visit.KeepsWaiting handler R s
  | .pop answer => s.ready.head? = some handler → answer ≠ .refused ∧
      ∀ pattern, R.kindOf (R.nodeId handler) = some (.errorHandler pattern) →
        R.tryDispatchErrorHandler handler pattern s.results = none
  | _ => True

/-- The handler has been enqueued, or it still waits, or an edge is about to be counted. -/
def Due (s : State) : Prop :=
  .enqueued handler ∈ s.history ∨ 0 < s.pending handler ∨
    ∃ visit ∈ s.visits, visit.target = handler ∧ R.marks visit = false

end Conditions

structure Awaited (handler : NodeIndex) (R : Reactor H) (s : State)
    (concluded cascaded : List NodeIndex) : Prop where
  located : ∀ n, .enqueued n ∈ s.history ↔ n ∈ s.work ∨ n ∈ concluded
  leaders : ∀ n, .enqueued n ∈ s.history ∨ n ∈ cascaded → ¬ R.IsFollower n
  followers : ∀ n, R.IsFollower n → s.pending n ≤ 1
  own : handler ∉ cascaded
  positive : ∀ n, Relation.TransGen R.graph.Arc n handler →
    Reached R s concluded cascaded n ∨ 0 < s.pending n
  waiting : ∀ n, R.LeadsTo handler n →
    Reached R s concluded cascaded n ∨ R.IsFollower n ∨
      s.pending n ≤ openEdges R (resolvedNodes R concluded cascaded) n +
        (s.visits.map (·.target)).count n
  closed : ∀ n ∈ cascaded, ∀ g, R.graph.Arc n g → R.LeadsTo handler g → R.IsFollower g →
    Reached R s concluded cascaded g
  started : handler ∈ concluded → handler ∈ startedNodes s.history

section Handlers

variable {handler : NodeIndex} {R : Reactor H} {s t : State} {concluded cascaded : List NodeIndex}

theorem Reactor.LeadsTo.eq_or_transGen {n : NodeIndex} (h : R.LeadsTo handler n) :
    n = handler ∨ Relation.TransGen R.graph.Arc n handler :=
  (Relation.reflTransGen_iff_eq_or_transGen.1 h).imp_left Eq.symm

theorem ParallelWorkflowEngine.OnlyHandles.hasErrorEdge
    (h : R.toParallelWorkflowEngine.OnlyHandles handler) {p : NodeIndex}
    (hArc : R.graph.Arc p handler) : R.hasErrorEdge p handler = true := by
  obtain ⟨e, he, rfl, hTarget⟩ := hArc
  rw [Reactor.hasErrorEdge, List.any_eq_true]
  exact ⟨e, (mem_edgesConnecting _).2 ⟨he, rfl, hTarget⟩, h e he hTarget⟩

theorem ParallelWorkflowEngine.OnlyHandles.ne_target
    (h : R.toParallelWorkflowEngine.OnlyHandles handler) {visit : Visit}
    (hArc : R.graph.Arc visit.source visit.target) {output : Json}
    (hMode : visit.mode = .succeeds output) (hMarks : R.marks visit = false) :
    visit.target ≠ handler := by
  rintro rfl
  rw [Reactor.marks, hMode] at hMarks
  rw [h.hasErrorEdge hArc] at hMarks
  cases hMarks

namespace Awaited

theorem started_of_quiescent (hAcyclic : R.graph.Acyclic) (hChains : R.ChainsDetected)
    (hLeader : ¬ R.IsFollower handler) (h : Awaited handler R s concluded cascaded)
    (hDue : Due handler R s) (hQuiescent : s.Quiescent) : handler ∈ startedNodes s.history := by
  have hReached : ∀ n, Reached R s concluded cascaded n → n ∈ resolvedNodes R concluded cascaded :=
    fun n hn => hn.resolved_of_quiescent hQuiescent (h.located n)
  have hWaiting : ∀ n, R.LeadsTo handler n → Reached R s concluded cascaded n ∨ R.IsFollower n ∨
      s.pending n ≤ openEdges R (resolvedNodes R concluded cascaded) n := by
    intro n hn
    have hCount := h.waiting n hn
    rw [hQuiescent.2.1, List.map_nil, List.count_nil, Nat.add_zero] at hCount
    exact hCount
  have hResolved : ∀ n, Relation.TransGen R.graph.Arc n handler →
      n ∈ resolvedNodes R concluded cascaded ∨ n ∈ [] := by
    apply resolved_of_waiting hAcyclic hChains hReached
    · exact fun p n hArc hn => .head hArc hn
    · exact fun n hn => ⟨h.positive n hn, (hWaiting n hn.to_reflTransGen).imp_right .inr⟩
    · exact fun p hp => absurd hp List.not_mem_nil
    · exact fun p hp g hArc hg => h.closed p hp g hArc hg.to_reflTransGen
  have hEnqueued : .enqueued handler ∈ s.history := by
    obtain hEnqueued | hPos | ⟨visit, hVisit, -⟩ := hDue
    · exact hEnqueued
    · obtain hIn | hFollower | hCount := hWaiting handler .refl
      · obtain hIn | hIn := List.mem_append.1 (hReached handler hIn)
        · exact absurd hIn h.own
        · obtain ⟨start, hStart, hMember⟩ := List.mem_flatMap.1 hIn
          have hStarted := (h.located start).2 (.inr hStart)
          obtain rfl | hFollower :=
            eq_or_isFollower_of_mem_members (h.leaders start (.inl hStarted)) hMember
          · exact hStarted
          · exact absurd hFollower hLeader
      · exact absurd hFollower hLeader
      · rw [openEdges_eq_zero.2 fun p hArc =>
          (hResolved p (.single hArc)).resolve_right List.not_mem_nil] at hCount
        omega
    · rw [hQuiescent.2.1] at hVisit
      cases hVisit
  obtain hWork | hConcluded := (h.located handler).1 hEnqueued
  · obtain ⟨-, -, hBatch, hReady, hExecuting⟩ := hQuiescent
    simp [State.work, hBatch, hReady, hExecuting] at hWork
  · exact h.started hConcluded

end Awaited

end Handlers

end TalosWorkflow
