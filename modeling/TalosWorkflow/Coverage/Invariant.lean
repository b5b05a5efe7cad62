import TalosWorkflow.Ledger.Invariant

/-!
# Coverage

The invariant by which every node of a run is executed or skipped, as long as
no skip holds up another node.
-/

namespace TalosWorkflow

open Multigraph

variable {H : Host}

section Conditions

variable (R : Reactor H)

/-- The result of a node says that it was skipped. -/
def Reactor.CarriesSkip (s : State) (n : NodeIndex) : Prop :=
  ∃ value, s.results.lookup (R.nodeId n) = some value ∧
    value.get "__skipped" = some (.bool true)

def Covered (s : State) (n : NodeIndex) : Prop := .executed n ∈ s.history ∨ R.CarriesSkip s n

def Reactor.fillsNow (s : State) (idx : NodeIndex) : Prop :=
  s.pending idx ≤ 1 ∨ R.quotaMet idx (s.pending idx - 1) = true

instance (s : State) (idx : NodeIndex) : Decidable (R.fillsNow s idx) := by
  unfold Reactor.fillsNow
  infer_instance

/-- A visit that skips its target holds up no other node, and none wraps a counter around. -/
def Visit.LosesNothing (s : State) (visit : Visit) : Prop :=
  if R.marks visit then
    s.pending visit.target = 0 ∨
      R.graph.inDegree visit.target ≤ 1 ∧ ∀ g ∈ R.graph.successors visit.target, s.pending g = 0
  else
    match visit.mode with
    | .succeeds output =>
        (0 < s.pending visit.target ∨ H.overflowChecks = true ∨
          R.quotaMet visit.target usizeMax = true) ∧
        (R.edgeConditionFailed visit.source visit.target output = true →
          R.fillsNow s visit.target → ∀ g ∈ R.graph.successors visit.target,
            s.pending g = 0 ∨ (R.graph.successors visit.target).count g < s.pending g)
    | _ => True

/-- No step takes a branch that leaves a node behind. -/
def LosesNothing (s : State) (action : Action) : Prop :=
  match action with
  | .visit => ∀ visit ∈ s.visits.head?, visit.LosesNothing R s
  | .store => True
  | .pop .refused => False
  | .pop _ => True
  | .finish position _ ran =>
      match s.executing[position]? with
      | some (.chain members _) => ran = members.length
      | _ => True

instance : ∀ s (visit : Visit), Decidable (visit.LosesNothing R s) := by
  intro s visit
  unfold Visit.LosesNothing
  split
  · infer_instance
  · split <;> infer_instance

instance : ∀ s action, Decidable (LosesNothing R s action) := by
  intro s action
  unfold LosesNothing
  split
  · infer_instance
  · infer_instance
  · infer_instance
  · infer_instance
  · split <;> infer_instance

/-- The node has been enqueued, or what it stands for is complete or skipped. -/
def Reached (s : State) (concluded cascaded : List NodeIndex) (n : NodeIndex) : Prop :=
  .enqueued n ∈ s.history ∨ n ∈ resolvedNodes R concluded cascaded

end Conditions

structure Coverage (R : Reactor H) (s : State) (concluded cascaded dropped : List NodeIndex) :
    Prop where
  bounded : ∀ n, s.pending n ≤ R.graph.inDegree n
  settled : ∀ n, .enqueued n ∈ s.history ∨ n ∈ cascaded → s.pending n = 0
  leaders : ∀ n, .enqueued n ∈ s.history ∨ n ∈ cascaded → ¬ R.IsFollower n
  located : ∀ n, .enqueued n ∈ s.history ↔ n ∈ s.work ∨ n ∈ concluded
  positive : ∀ n < R.graph.nodes.length, Reached R s concluded cascaded n ∨ 0 < s.pending n
  waiting : ∀ n < R.graph.nodes.length,
    Reached R s concluded cascaded n ∨ n ∈ dropped ∨ R.IsFollower n ∨
      s.pending n ≤ openEdges R (resolvedNodes R concluded cascaded) n +
        (s.visits.map (·.target)).count n
  idle : ∀ n ∈ dropped, R.graph.inDegree n ≤ 1 ∧
    ∀ g, R.graph.Arc n g → Reached R s concluded cascaded g
  closed : ∀ n ∈ cascaded, ∀ g, R.graph.Arc n g → R.IsFollower g →
    Reached R s concluded cascaded g
  covered : ∀ n < R.graph.nodes.length,
    n ∈ resolvedNodes R concluded cascaded ∨ n ∈ dropped → Covered R s n

variable {R : Reactor H} {s t : State} {concluded cascaded dropped : List NodeIndex}

section Covered

variable {n : NodeIndex}

theorem Covered.insert_skip (h : Covered R s n) {id : Uuid} {value : Json}
    (hSkip : value.get "__skipped" = some (.bool true)) : Covered R (s.insert id value) n := by
  refine h.imp_right ?_
  rintro ⟨old, hOld, hOldSkip⟩
  by_cases hId : R.nodeId n = id
  · refine ⟨value, ?_, hSkip⟩
    rw [State.insert_results, hId, AList.lookup_insert]
  · refine ⟨old, ?_, hOldSkip⟩
    rw [State.insert_results, AList.lookup_insert_ne hId]
    exact hOld

theorem nodeId_injective (hIds : R.graph.nodes.Nodup) {m n : NodeIndex}
    (hm : m < R.graph.nodes.length) (hn : n < R.graph.nodes.length)
    (h : R.nodeId m = R.nodeId n) : m = n := by
  rw [ParallelWorkflowEngine.nodeId, ParallelWorkflowEngine.nodeId,
    List.getElem?_eq_getElem hm, List.getElem?_eq_getElem hn, Option.getD_some,
    Option.getD_some] at h
  exact (hIds.getElem_inj_iff).1 h

end Covered

theorem Reached.mono {concluded' cascaded' : List NodeIndex} {n : NodeIndex}
    (h : Reached R s concluded cascaded n)
    (hHistory : .enqueued n ∈ s.history → .enqueued n ∈ t.history)
    (hResolved : resolvedNodes R concluded cascaded ⊆ resolvedNodes R concluded' cascaded') :
    Reached R t concluded' cascaded' n :=
  h.imp hHistory fun hn => hResolved hn

theorem Reached.resolved_of_quiescent {n : NodeIndex} (h : Reached R s concluded cascaded n)
    (hQuiescent : s.Quiescent)
    (hLocated : .enqueued n ∈ s.history ↔ n ∈ s.work ∨ n ∈ concluded) :
    n ∈ resolvedNodes R concluded cascaded := by
  obtain ⟨-, -, hBatch, hReady, hExecuting⟩ := hQuiescent
  have hWork : s.work = [] := by simp [State.work, hBatch, hReady, hExecuting]
  obtain hEnqueued | hResolved := h
  · rw [hLocated, hWork] at hEnqueued
    have hConcluded := hEnqueued.resolve_left List.not_mem_nil
    exact List.mem_append_right _ (List.mem_flatMap.2 ⟨n, hConcluded, mem_members_self⟩)
  · exact hResolved

/-- Where no edge is on its way any more, a node that still waits has a dropped predecessor. -/
theorem resolved_of_waiting (hAcyclic : R.graph.Acyclic) (hChains : R.ChainsDetected)
    {D : NodeIndex → Prop}
    (hReached : ∀ n, Reached R s concluded cascaded n → n ∈ resolvedNodes R concluded cascaded)
    (hClosed : ∀ p n, R.graph.Arc p n → D n → D p)
    (hWaiting : ∀ n, D n → (Reached R s concluded cascaded n ∨ 0 < s.pending n) ∧
      (Reached R s concluded cascaded n ∨ n ∈ dropped ∨ R.IsFollower n ∨
        s.pending n ≤ openEdges R (resolvedNodes R concluded cascaded) n))
    (hIdle : ∀ p ∈ dropped, ∀ g, R.graph.Arc p g → D g → Reached R s concluded cascaded g)
    (hCascaded : ∀ p ∈ cascaded, ∀ g, R.graph.Arc p g → D g → R.IsFollower g →
      Reached R s concluded cascaded g) :
    ∀ n, D n → n ∈ resolvedNodes R concluded cascaded ∨ n ∈ dropped := by
  intro n
  induction n using hAcyclic.wellFounded.induction with
  | _ n ih =>
      intro hn
      obtain ⟨hPositive, hCount⟩ := hWaiting n hn
      rcases hCount with hCount | hCount | hCount | hCount
      · exact .inl (hReached n hCount)
      · exact .inr hCount
      · -- A follower is completed with its chain, which its predecessor belongs to.
        obtain ⟨p, hConsecutive⟩ := hCount
        have hArc := (hConsecutive.linked hChains).1
        refine .inl ?_
        rcases ih p hArc (hClosed p n hArc hn) with hp | hp
        · rcases List.mem_append.1 hp with hp | hp
          · exact hReached n (hCascaded p hp n hArc hn ⟨p, hConsecutive⟩)
          · obtain ⟨start, hStart, hMember⟩ := List.mem_flatMap.1 hp
            refine List.mem_append_right _ (List.mem_flatMap.2 ⟨start, hStart, ?_⟩)
            have hSame := chainOf_members hChains hMember
            obtain ⟨chain, hChain, i, _, hi, rfl, rfl⟩ := Reactor.consecutive_iff.1 hConsecutive
            rw [chainOf_of_mem hChains hChain (List.getElem_mem _)] at hSame
            rw [Reactor.members, ← hSame, Option.getD_some]
            exact List.getElem_mem hi
        · exact hReached n (hIdle p hp n hArc hn)
      · -- A counter above zero waits for an edge whose source was dropped.
        refine .inl ?_
        rcases hPositive with hReach | hPos
        · exact hReached n hReach
        · have hOpen : openEdges R (resolvedNodes R concluded cascaded) n ≠ 0 := by omega
          rw [Ne, openEdges_eq_zero] at hOpen
          push Not at hOpen
          obtain ⟨p, hArc, hUnresolved⟩ := hOpen
          have hDropped := (ih p hArc (hClosed p n hArc hn)).resolve_left hUnresolved
          exact hReached n (hIdle p hDropped n hArc hn)

namespace Coverage

/-- A counter at zero belongs to a node that has been reached. -/
theorem reached_of_pending (h : Coverage R s concluded cascaded dropped) {n : NodeIndex}
    (hn : n < R.graph.nodes.length) (hZero : s.pending n = 0) :
    Reached R s concluded cascaded n := by
  rcases h.positive n hn with hReached | hPos
  · exact hReached
  · omega

/-- When the queues are empty, every node has been completed, skipped or dropped. -/
theorem resolved_of_quiescent (hAcyclic : R.graph.Acyclic) (hChains : R.ChainsDetected)
    (h : Coverage R s concluded cascaded dropped) (hQuiescent : s.Quiescent) :
    ∀ n < R.graph.nodes.length, n ∈ resolvedNodes R concluded cascaded ∨ n ∈ dropped := by
  apply resolved_of_waiting hAcyclic hChains
  · exact fun n hReached => hReached.resolved_of_quiescent hQuiescent (h.located n)
  · exact fun p n hArc _ => hArc.source_lt
  · intro n hn
    have hWaiting := h.waiting n hn
    rw [hQuiescent.2.1, List.map_nil, List.count_nil, Nat.add_zero] at hWaiting
    exact ⟨h.positive n hn, hWaiting⟩
  · exact fun p hp g hArc _ => (h.idle p hp).2 g hArc
  · exact fun p hp g hArc _ hFollower => h.closed p hp g hArc hFollower

end Coverage

end TalosWorkflow
