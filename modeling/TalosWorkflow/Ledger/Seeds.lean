import TalosWorkflow.Ledger.Runs

/-!
# Seeded runs

The seeded nodes count as resolved from the start, as long as no predecessor
of a seeded node is left to run.
-/

namespace TalosWorkflow

open Multigraph

variable {H : Host} {R : Reactor H} {initialResults : Table Json}

def Reactor.seededNodes (R : Reactor H) (ids : List Uuid) : List NodeIndex :=
  ids.filterMap R.nodeMap.lookup

/-- Seeds belong to their nodes, and the predecessors of a seeded node are seeded. -/
structure SeedsClosed (E : ParallelWorkflowEngine H) (initialResults : Table Json) : Prop where
  found : ∀ id ∈ initialResults, ∀ idx, E.nodeMap.lookup id = some idx → E.nodeId idx = id
  mapped : ∀ idx < E.graph.nodes.length, E.nodeId idx ∈ initialResults →
    E.nodeMap.lookup (E.nodeId idx) = some idx
  closed : ∀ a b, E.graph.Arc a b → E.nodeId b ∈ initialResults → E.nodeId a ∈ initialResults

section Pending

theorem foldl_count_down (l : List NodeIndex) (pending : NodeIndex → Nat) (n : NodeIndex) :
    (l.foldl (fun p child => Function.update p child (p child - 1)) pending) n =
      pending n - l.count n := by
  induction l generalizing pending with
  | nil => rfl
  | cons child rest ih =>
      rw [List.foldl_cons, ih, List.count_cons]
      obtain rfl | hOther := eq_or_ne n child
      · rw [Function.update_self, beq_self_eq_true, if_pos rfl]
        omega
      · rw [Function.update_of_ne hOther, beq_false_of_ne hOther.symm]
        rfl

theorem foldl_seedNode_le (ids : List Uuid) (seeded : List NodeIndex) (pending : NodeIndex → Nat)
    (h : ∀ n, pending n ≤ openEdges R seeded n) (n : NodeIndex) :
    ids.foldl R.seedNode pending n ≤ openEdges R (seeded ++ R.seededNodes ids) n := by
  induction ids generalizing seeded pending with
  | nil =>
      rw [Reactor.seededNodes, List.filterMap_nil, List.append_nil]
      exact h n
  | cons id ids ih =>
      rw [List.foldl_cons, Reactor.seedNode]
      cases hLookup : R.nodeMap.lookup id with
      | none =>
          have hNodes : R.seededNodes (id :: ids) = R.seededNodes ids :=
            List.filterMap_cons_none hLookup
          rw [hNodes]
          exact ih seeded pending h
      | some idx =>
          have hNodes : R.seededNodes (id :: ids) = [idx] ++ R.seededNodes ids :=
            List.filterMap_cons_some hLookup
          rw [hNodes, ← List.append_assoc]
          refine ih (seeded ++ [idx]) _ fun m => ?_
          have hOpen : openEdges R seeded m ≤
              openEdges R (seeded ++ [idx]) m + (R.graph.successors idx).count m := by
            refine openEdges_le_add_count fun p _ hp => ?_
            exact (List.mem_append.1 hp).imp_right List.mem_singleton.1
          have hBefore := h m
          dsimp only
          rw [foldl_count_down]
          obtain rfl | hOther := eq_or_ne m idx
          · rw [Function.update_self, Nat.zero_sub]
            exact Nat.zero_le _
          · rw [Function.update_of_ne hOther]
            omega

/-- At the start a counter is at most the number of edges from nodes that are not seeded. -/
theorem initialPending_le_openEdges (R : Reactor H) (initialResults : Table Json) (n : NodeIndex) :
    R.initialPending initialResults n ≤ openEdges R (R.seededNodes initialResults.keys) n := by
  refine foldl_seedNode_le initialResults.keys [] R.graph.inDegree (fun m => ?_) n
  exact (openEdges_nil R m).ge

/-- The counters after some of the seeds have been placed. -/
structure Placed (R : Reactor H) (ids : List Uuid) (pending : NodeIndex → Nat) : Prop where
  seeded : ∀ n ∈ R.seededNodes ids, pending n = 0
  counted : ∀ n ∉ R.seededNodes ids, openEdges R (R.seededNodes ids) n ≤ pending n
  bounded : ∀ n, pending n ≤ R.graph.inDegree n

theorem Placed.seedNode {ids : List Uuid} {pending : NodeIndex → Nat} (h : Placed R ids pending)
    {id : Uuid} (hNew : ∀ idx, R.nodeMap.lookup id = some idx → idx ∉ R.seededNodes ids) :
    Placed R (ids ++ [id]) (R.seedNode pending id) := by
  have hNodes : R.seededNodes (ids ++ [id]) = R.seededNodes ids ++ R.seededNodes [id] :=
    List.filterMap_append
  unfold Reactor.seedNode
  cases hLookup : R.nodeMap.lookup id with
  | none =>
      have hNone : R.seededNodes [id] = [] := List.filterMap_cons_none hLookup
      rw [hNone, List.append_nil] at hNodes
      dsimp only
      exact ⟨hNodes ▸ h.seeded, hNodes ▸ h.counted, h.bounded⟩
  | some idx =>
      have hOne : R.seededNodes [id] = [idx] := List.filterMap_cons_some hLookup
      rw [hOne] at hNodes
      dsimp only
      refine ⟨fun n hn => ?_, fun n hn => ?_, fun n => ?_⟩
      · rw [foldl_count_down]
        rw [hNodes] at hn
        obtain rfl | hOther := eq_or_ne n idx
        · rw [Function.update_self, Nat.zero_sub]
        · obtain hOld | hLast := List.mem_append.1 hn
          · rw [Function.update_of_ne hOther, h.seeded n hOld, Nat.zero_sub]
          · exact absurd (List.mem_singleton.1 hLast) hOther
      · rw [hNodes] at hn ⊢
        have hOther : n ≠ idx := by
          rintro rfl
          exact hn (List.mem_append_right _ (List.mem_singleton_self n))
        have hOpen := openEdges_add_count R (List.subset_append_left (R.seededNodes ids) [idx])
          (List.mem_append_right _ (List.mem_singleton_self idx)) (hNew idx hLookup) n
        have hBefore := h.counted n fun hOld => hn (List.mem_append_left _ hOld)
        rw [foldl_count_down, Function.update_of_ne hOther]
        omega
      · rw [foldl_count_down]
        have hBefore := h.bounded n
        obtain rfl | hOther := eq_or_ne n idx
        · rw [Function.update_self, Nat.zero_sub]
          exact Nat.zero_le _
        · rw [Function.update_of_ne hOther]
          omega

theorem placed_initialPending
    (hFound : ∀ id ∈ initialResults, ∀ idx, R.nodeMap.lookup id = some idx → R.nodeId idx = id) :
    Placed R initialResults.keys (R.initialPending initialResults) := by
  have hAll : ∀ ids rest, ids ++ rest = initialResults.keys →
      ∀ pending, Placed R ids pending →
        Placed R initialResults.keys (rest.foldl R.seedNode pending) := by
    intro ids rest
    induction rest generalizing ids with
    | nil =>
        intro hKeys pending hPlaced
        rw [List.append_nil] at hKeys
        exact hKeys ▸ hPlaced
    | cons id rest ih =>
        intro hKeys pending hPlaced
        refine ih (ids ++ [id]) (by rw [List.append_assoc]; exact hKeys) _ (hPlaced.seedNode ?_)
        intro idx hLookup hOld
        have hNodup : (ids ++ id :: rest).Nodup := hKeys ▸ initialResults.keys_nodup
        obtain ⟨other, hOther, hSame⟩ := List.mem_filterMap.1 hOld
        have hMember : ∀ key, key ∈ ids ++ id :: rest → key ∈ initialResults :=
          fun key hKey => AList.mem_keys.2 (hKeys ▸ hKey)
        have hFirst := hFound other (hMember other (List.mem_append_left _ hOther)) idx hSame
        have hSecond := hFound id
          (hMember id (List.mem_append_right _ List.mem_cons_self)) idx hLookup
        rw [hFirst] at hSecond
        exact (List.nodup_append.1 hNodup).2.2 other hOther id List.mem_cons_self hSecond
  refine hAll [] _ rfl _ ⟨fun n hn => (by cases hn), fun n _ => ?_, fun n => Nat.le_refl _⟩
  exact Nat.le_of_eq (openEdges_nil R n)

end Pending

section Runs

variable {E : ParallelWorkflowEngine H} {executionId : Uuid} {s : State}

theorem SeedsClosed.empty : SeedsClosed E ∅ :=
  ⟨fun _ h => absurd h (AList.notMem_empty _), fun _ _ h => absurd h (AList.notMem_empty _),
    fun _ _ _ h => absurd h (AList.notMem_empty _)⟩

theorem SeedsClosed.mem_seededNodes (h : SeedsClosed E initialResults) {n : NodeIndex}
    (hn : n < E.graph.nodes.length) :
    n ∈ (E.reactor executionId initialResults).seededNodes initialResults.keys ↔
      E.nodeId n ∈ initialResults := by
  constructor
  · intro hSeeded
    obtain ⟨id, hId, hLookup⟩ := List.mem_filterMap.1 hSeeded
    have hMem : id ∈ initialResults := AList.mem_keys.2 hId
    exact (h.found id hMem n hLookup).symm ▸ hMem
  · intro hMem
    exact List.mem_filterMap.2 ⟨E.nodeId n, AList.mem_keys.1 hMem, h.mapped n hn hMem⟩

theorem Ledger.seeded (hClosed : SeedsClosed E initialResults)
    (hSeeded : initialResults.entries.isEmpty = false) :
    Ledger (E.reactor executionId initialResults)
      ((E.reactor executionId initialResults).initialState initialResults) []
      ((E.reactor executionId initialResults).seededNodes initialResults.keys) := by
  let R := E.reactor executionId initialResults
  have hPlaced : Placed R initialResults.keys (R.initialPending initialResults) :=
    placed_initialPending hClosed.found
  have hChains : R.chains = [] := if_neg (by simp [hSeeded])
  have hLeaders : ∀ n, ¬ R.IsFollower n := by
    rintro n ⟨a, chain, hChain, -⟩
    rw [hChains] at hChain
    cases hChain
  have hRecorded : ∀ n ∈ R.seededNodes initialResults.keys, E.nodeId n ∈ initialResults := by
    intro n hn
    obtain ⟨id, hId, hLookup⟩ := List.mem_filterMap.1 hn
    have hMem : id ∈ initialResults := AList.mem_keys.2 hId
    exact (hClosed.found id hMem n hLookup).symm ▸ hMem
  have hReleased : releasedNodes (R.initialState initialResults).history = [] := by
    simp [Reactor.initialState, releasedNodes, List.filterMap_map]
  exact
    { Chronicle.initial initialResults with
      counted := fun n => by
        refine .inr ?_
        rw [resolvedNodes, List.flatMap_nil, List.append_nil]
        change openEdges R (R.seededNodes initialResults.keys) n + 0 ≤ R.initialPending initialResults n
        by_cases hn : n ∈ R.seededNodes initialResults.keys
        · rw [openEdges_eq_zero.2 fun p hArc => ?_]
          · exact Nat.zero_le _
          · exact (hClosed.mem_seededNodes hArc.source_lt).2 (hClosed.closed p n hArc (hRecorded n hn))
        · exact hPlaced.counted n hn
      bounded := hPlaced.bounded
      settled := fun n hn => hn.elim
        (fun hEnqueued => (mem_initialReady.1 (enqueued_initialState.1 hEnqueued)).2.1)
        (hPlaced.seeded n)
      cascadedFresh := fun n hn hEnqueued =>
        (mem_initialReady.1 (enqueued_initialState.1 hEnqueued)).2.2 (hRecorded n hn)
      leaders := fun n _ => hLeaders n
      recorded := fun n hn => by
        obtain hn | ⟨start, hStart, -⟩ := hn
        · exact AList.lookup_isSome.2 (hRecorded n hn)
        · cases hStart
      releasedOnce := hReleased ▸ List.nodup_nil
      releasedResolved := by
        rw [hReleased]
        exact List.nil_subset _ }

theorem seeded_run_ledger (hClosed : SeedsClosed E initialResults)
    (hRun : E.Runs executionId initialResults CountsLiveFanIns s) (hRunning : s.status = .running) :
    Orderly (E.reactor executionId initialResults) s ∧ ∃ concluded cascaded,
      Ledger (E.reactor executionId initialResults) s concluded cascaded := by
  obtain ⟨hAcyclic, hRun⟩ := hRun
  have hChains := reactor_chainsDetected E executionId initialResults
  have hInitial : Orderly (E.reactor executionId initialResults)
      ((E.reactor executionId initialResults).initialState initialResults) ∧ ∃ concluded cascaded,
        Ledger (E.reactor executionId initialResults)
          ((E.reactor executionId initialResults).initialState initialResults) concluded cascaded := by
    cases hSeeded : initialResults.entries.isEmpty with
    | true =>
        obtain rfl : initialResults = ∅ := AList.ext (List.isEmpty_iff.1 hSeeded)
        exact ⟨.initial hChains (.inr rfl), [], [], .initial hChains⟩
    | false =>
        exact ⟨.initial hChains (.inl (if_neg (by simp [hSeeded]))), [], _, .seeded hClosed hSeeded⟩
  refine Run.invariant (fun s => s.status = .running →
    Orderly (E.reactor executionId initialResults) s ∧ ∃ concluded cascaded,
      Ledger (E.reactor executionId initialResults) s concluded cascaded) ?_ hRun
        (fun _ => hInitial) hRunning
  intro s action t hLive hInv hStep
  obtain ⟨hOrderly, concluded, cascaded, hLedger⟩ := hInv (Reactor.step_cases hStep).1
  exact (hLedger.step hAcyclic hChains hOrderly hLive hStep).ledger

end Runs

end TalosWorkflow
