import TalosWorkflow.Engine
import TalosWorkflow.Library.Links

/-!
# Linear chains

Detection of the maximal linear chains of a graph, and the shape of what it
returns: each member but the head hangs on its predecessor alone, and a
member belongs to one chain.
-/

namespace TalosWorkflow

open Multigraph

section Detection

variable (g : Multigraph Uuid EdgeLogic)

/-- The members that follow `current`, and the nodes the walk visits. -/
def walkChain : Nat → NodeIndex → List NodeIndex × List NodeIndex
  | 0, current => ([], [current])
  | fuel + 1, current =>
      match (g.successors current).head? with
      | none => ([], [current])
      | some next =>
          if g.inDegree next ≠ 1 then ([], [current])
          else if g.outDegree next ≠ 1 then ([next], [current])
          else
            let walk := walkChain fuel next
            (next :: walk.1, current :: walk.2)

def isChainStart (idx : NodeIndex) : Bool :=
  g.outDegree idx = 1 &&
    match (g.predecessors idx).head? with
    | none => true
    | some parent => g.outDegree parent ≠ 1

def chainStarts : List NodeIndex := g.nodeIndices.filter (isChainStart g)

def chainFrom (start : NodeIndex) : List NodeIndex :=
  start :: (walkChain g g.nodes.length start).1

def expandStart (found : List (List NodeIndex) × List NodeIndex) (start : NodeIndex) :
    List (List NodeIndex) × List NodeIndex :=
  if start ∈ found.2 then found
  else
    let visited := found.2 ++ (walkChain g g.nodes.length start).2
    if 2 ≤ (chainFrom g start).length then (found.1 ++ [chainFrom g start], visited)
    else (found.1, visited)

def detectLinearChains : List (List NodeIndex) :=
  ((chainStarts g).foldl (expandStart g) ([], [])).1

end Detection

def Linked (g : Multigraph Uuid EdgeLogic) (a b : NodeIndex) : Prop :=
  g.Arc a b ∧ g.outDegree a = 1 ∧ g.inDegree b = 1

section Shape

variable {g : Multigraph Uuid EdgeLogic}

theorem walkChain_isChain (fuel : Nat) {current : NodeIndex} (hOut : g.outDegree current = 1) :
    List.IsChain (Linked g) (current :: (walkChain g fuel current).1) := by
  induction fuel generalizing current with
  | zero => exact .singleton _
  | succ fuel ih =>
      obtain ⟨next, hNext⟩ := List.length_eq_one_iff.1 hOut
      have hArc : g.Arc current next := by
        rw [← mem_successors, hNext]
        exact List.mem_singleton_self next
      simp only [walkChain, hNext, List.head?_cons]
      split
      · exact .singleton _
      · rename_i hIn
        have hLinked : Linked g current next := ⟨hArc, hOut, not_not.1 hIn⟩
        split
        · exact .cons_cons hLinked (.singleton _)
        · rename_i hNextOut
          exact .cons_cons hLinked (ih (not_not.1 hNextOut))

theorem mem_chainStarts {idx : NodeIndex} :
    idx ∈ chainStarts g ↔ idx < g.nodes.length ∧ isChainStart g idx = true := by
  simp [chainStarts]

theorem outDegree_of_isChainStart {idx : NodeIndex} (h : isChainStart g idx = true) :
    g.outDegree idx = 1 := by
  rw [isChainStart, Bool.and_eq_true, decide_eq_true_eq] at h
  exact h.1

/-- A start does not hang on a node that can only lead to it. -/
theorem not_linked_isChainStart {a idx : NodeIndex} (h : isChainStart g idx = true) :
    ¬ Linked g a idx := by
  rintro ⟨hArc, hOut, hIn⟩
  obtain ⟨p, hp⟩ := List.length_eq_one_iff.1 hIn
  have ha : a = p := by
    rw [← mem_predecessors, hp] at hArc
    exact List.mem_singleton.1 hArc
  rw [isChainStart, hp, List.head?_cons, Bool.and_eq_true] at h
  exact of_decide_eq_true h.2 (ha ▸ hOut)

/-- The nodes that a walk visits are its start and members that something leads to. -/
theorem mem_visited {fuel : Nat} {current n : NodeIndex} (h : n ∈ (walkChain g fuel current).2) :
    n = current ∨ n ∈ (walkChain g fuel current).1 := by
  induction fuel generalizing current with
  | zero => exact .inl (List.mem_singleton.1 h)
  | succ fuel ih =>
      simp only [walkChain] at h ⊢
      split at h
      · exact .inl (List.mem_singleton.1 h)
      · split at h
        · exact .inl (List.mem_singleton.1 h)
        · split at h
          · exact .inl (List.mem_singleton.1 h)
          · rename_i next hNext hIn hOut
            rw [if_neg hIn, if_neg hOut]
            obtain rfl | h := List.mem_cons.1 h
            · exact .inl rfl
            · right
              obtain rfl | hRest := ih h
              · exact List.mem_cons_self
              · exact List.mem_cons_of_mem next hRest

theorem not_visited {s t : NodeIndex} (hs : isChainStart g s = true)
    (ht : isChainStart g t = true) (hNe : t ≠ s) (fuel : Nat) : t ∉ (walkChain g fuel s).2 := by
  intro hVisited
  obtain hSame | hMember := mem_visited hVisited
  · exact hNe hSame
  · obtain ⟨a, hLinked⟩ :=
      Links.linked_of_mem (walkChain_isChain fuel (outDegree_of_isChainStart hs)) hMember
    exact not_linked_isChainStart ht hLinked

theorem foldl_expandStart {starts : List NodeIndex} (hNodup : starts.Nodup)
    (hStarts : ∀ s ∈ starts, isChainStart g s = true)
    {found : List (List NodeIndex) × List NodeIndex} (hFresh : ∀ s ∈ starts, s ∉ found.2) :
    (starts.foldl (expandStart g) found).1 =
      found.1 ++ (starts.map (chainFrom g)).filter fun chain => 2 ≤ chain.length := by
  induction starts generalizing found with
  | nil => exact (List.append_nil found.1).symm
  | cons s starts ih =>
      obtain ⟨hNotIn, hRest⟩ := List.nodup_cons.1 hNodup
      have hVisited : (expandStart g found s).2 =
          found.2 ++ (walkChain g g.nodes.length s).2 := by
        simp only [expandStart, if_neg (hFresh s List.mem_cons_self)]
        split <;> rfl
      have hFound : (expandStart g found s).1 =
          found.1 ++ ([chainFrom g s].filter fun chain => 2 ≤ chain.length) := by
        simp only [expandStart, if_neg (hFresh s List.mem_cons_self), List.filter_singleton]
        split
        · rename_i hLength
          rw [decide_eq_true hLength, cond_true]
        · rename_i hLength
          rw [decide_eq_false hLength, cond_false, List.append_nil]
      rw [List.foldl_cons, ih hRest fun t ht => hStarts t (List.mem_cons_of_mem s ht), hFound,
        List.append_assoc, ← List.filter_append, List.singleton_append, List.map_cons]
      intro t ht hIn
      rw [hVisited] at hIn
      obtain hEarlier | hNow := List.mem_append.1 hIn
      · exact hFresh t (List.mem_cons_of_mem s ht) hEarlier
      · refine not_visited (hStarts s List.mem_cons_self)
          (hStarts t (List.mem_cons_of_mem s ht)) ?_ _ hNow
        rintro rfl
        exact hNotIn ht

theorem detectLinearChains_eq :
    detectLinearChains g =
      ((chainStarts g).map (chainFrom g)).filter fun chain => 2 ≤ chain.length := by
  have hNodup : (chainStarts g).Nodup := g.nodeIndices_nodup.filter _
  rw [detectLinearChains, foldl_expandStart hNodup (fun s hs => (mem_chainStarts.1 hs).2)
    fun s _ => List.not_mem_nil, List.nil_append]

theorem mem_detectLinearChains {chain : List NodeIndex} (h : chain ∈ detectLinearChains g) :
    ∃ start, isChainStart g start = true ∧ chain = chainFrom g start ∧ 2 ≤ chain.length := by
  rw [detectLinearChains_eq, List.mem_filter, decide_eq_true_eq] at h
  obtain ⟨hStart, hLength⟩ := h
  obtain ⟨start, hIn, rfl⟩ := List.mem_map.1 hStart
  exact ⟨start, (mem_chainStarts.1 hIn).2, rfl, hLength⟩

theorem chain_isChain {chain : List NodeIndex} (h : chain ∈ detectLinearChains g) :
    List.IsChain (Linked g) chain := by
  obtain ⟨start, hStart, rfl, -⟩ := mem_detectLinearChains h
  exact walkChain_isChain _ (outDegree_of_isChainStart hStart)

theorem chain_getElem_linked {chain : List NodeIndex} (h : chain ∈ detectLinearChains g)
    {i : Nat} (hi : i + 1 < chain.length) : Linked g chain[i] chain[i + 1] :=
  List.isChain_iff_getElem.1 (chain_isChain h) i hi

theorem linked_joinless : Links.Joinless (Linked g) :=
  fun _ _ _ ha hb => g.eq_of_inDegree_one ha.2.2 ha.1 hb.1

theorem source_of_isChainStart {idx : NodeIndex} (h : isChainStart g idx = true) :
    Links.Source (Linked g) idx :=
  fun _ => not_linked_isChainStart h

theorem chain_eq_of_mem {chain other : List NodeIndex} (hc : chain ∈ detectLinearChains g)
    (hd : other ∈ detectLinearChains g) {n : NodeIndex} (hnc : n ∈ chain) (hnd : n ∈ other) :
    chain = other := by
  have hChain := chain_isChain hc
  have hOther := chain_isChain hd
  obtain ⟨s, hs, rfl, -⟩ := mem_detectLinearChains hc
  obtain ⟨t, ht, rfl, -⟩ := mem_detectLinearChains hd
  rw [Links.head_eq_of_mem linked_joinless (source_of_isChainStart hs) (source_of_isChainStart ht)
    hChain hOther hnc hnd]

end Shape

end TalosWorkflow
