import Mathlib.Data.List.Perm.Subperm
import TalosWorkflow.ChainDetect
import TalosWorkflow.Ledger.FreshRuns

/-!
# Which chains are found

Every walk of the detection stops, and what it finds are disjoint linear paths
that nothing outside enters or leaves between their ends. A maximal linear path
is found unless the detection takes its head for a node inside of another one.
-/

namespace TalosWorkflow

open Multigraph

/-- The loop of the detection from `current` on: the members that it adds to the chain, and the nodes
that it visits. -/
inductive Walks (g : Multigraph Uuid EdgeLogic) :
    NodeIndex → List NodeIndex → List NodeIndex → Prop
  | noSuccessor {current : NodeIndex} (hNext : (g.successors current).head? = none) :
      Walks g current [] [current]
  | fanIn {current next : NodeIndex} (hNext : (g.successors current).head? = some next)
      (hIn : g.inDegree next ≠ 1) : Walks g current [] [current]
  | last {current next : NodeIndex} (hNext : (g.successors current).head? = some next)
      (hIn : g.inDegree next = 1) (hOut : g.outDegree next ≠ 1) :
      Walks g current [next] [current]
  | next {current next : NodeIndex} {members visited : List NodeIndex}
      (hNext : (g.successors current).head? = some next) (hIn : g.inDegree next = 1)
      (hOut : g.outDegree next = 1) (hRest : Walks g next members visited) :
      Walks g current (next :: members) (current :: visited)

variable {g : Multigraph Uuid EdgeLogic}

section Termination

/-- The bounded walk is the one of the source unless it uses its bound up. -/
theorem walks_or_exhausted (fuel : Nat) (current : NodeIndex) :
    Walks g current (walkChain g fuel current).1 (walkChain g fuel current).2 ∨
      (walkChain g fuel current).1.length = fuel := by
  induction fuel generalizing current with
  | zero => exact .inr rfl
  | succ fuel ih =>
      cases hNext : (g.successors current).head? with
      | none =>
          left
          simp only [walkChain, hNext]
          exact .noSuccessor hNext
      | some next =>
          simp only [walkChain, hNext]
          by_cases hIn : g.inDegree next = 1
          · rw [if_neg (not_not.2 hIn)]
            by_cases hOut : g.outDegree next = 1
            · rw [if_neg (not_not.2 hOut)]
              exact (ih next).imp (.next hNext hIn hOut) (congrArg Nat.succ)
            · rw [if_pos hOut]
              exact .inl (.last hNext hIn hOut)
          · rw [if_pos hIn]
            exact .inl (.fanIn hNext hIn)

/-- A walk of the source is the bounded one with any bound that it does not exceed. -/
theorem Walks.walkChain_eq {current : NodeIndex} {members visited : List NodeIndex}
    (h : Walks g current members visited) {fuel : Nat} (hFuel : members.length ≤ fuel) :
    walkChain g fuel current = (members, visited) := by
  induction h generalizing fuel with
  | noSuccessor hNext =>
      cases fuel with
      | zero => rfl
      | succ fuel => simp only [walkChain, hNext]
  | fanIn hNext hIn =>
      cases fuel with
      | zero => rfl
      | succ fuel => simp only [walkChain, hNext, if_pos hIn]
  | last hNext hIn hOut =>
      obtain ⟨fuel, rfl⟩ := Nat.exists_eq_add_of_le' hFuel
      simp only [List.length_singleton, walkChain, hNext, if_neg (not_not.2 hIn), if_pos hOut]
  | next hNext hIn hOut _ ih =>
      obtain ⟨fuel, rfl⟩ : ∃ n, fuel = n + 1 := ⟨fuel - 1, by grind⟩
      have hRest := ih (Nat.le_of_succ_le_succ hFuel)
      simp only [walkChain, hNext, if_neg (not_not.2 hIn), if_neg (not_not.2 hOut), hRest]

theorem Walks.unique {current : NodeIndex} {members visited members' visited' : List NodeIndex}
    (h : Walks g current members visited) (h' : Walks g current members' visited') :
    members = members' ∧ visited = visited' := by
  have hSame := h.walkChain_eq (Nat.le_max_left members.length members'.length)
  rw [h'.walkChain_eq (Nat.le_max_right members.length members'.length), Prod.mk.injEq] at hSame
  exact ⟨hSame.1.symm, hSame.2.symm⟩

theorem lt_of_linked_chain {a : NodeIndex} {l : List NodeIndex} (hLong : l ≠ [])
    (hChain : (a :: l).IsChain (Linked g)) : ∀ n ∈ a :: l, n < g.nodes.length := by
  intro n hn
  obtain rfl | hn := List.mem_cons.1 hn
  · obtain ⟨b, rest, rfl⟩ := List.exists_cons_of_ne_nil hLong
    exact (List.isChain_cons_cons.1 hChain).1.1.source_lt
  · obtain ⟨b, hLinked⟩ := Links.linked_of_mem hChain hn
    exact hLinked.1.target_lt

/-- A linear path from a node that nothing leads to visits every node at most once. -/
theorem length_le_of_source {a : NodeIndex} {l : List NodeIndex}
    (hSource : Links.Source (Linked g) a) (hChain : (a :: l).IsChain (Linked g)) :
    l.length ≤ g.nodes.length - 1 := by
  by_cases hLong : l = []
  · rw [hLong]
    exact Nat.zero_le _
  · have hNodup := Links.nodup_of_source linked_joinless hSource hChain
    have hSubset : a :: l ⊆ g.nodeIndices := fun n hn =>
      (g.mem_nodeIndices).2 (lt_of_linked_chain hLong hChain n hn)
    have hLength := (List.subperm_of_subset hNodup hSubset).length_le
    rw [List.length_cons, nodeIndices, List.length_range] at hLength
    omega

/-- The loop of the source stops at every start, with what the bounded walk returns. -/
theorem walks_start {start : NodeIndex} (hStart : start ∈ chainStarts g) :
    Walks g start (walkChain g g.nodes.length start).1 (walkChain g g.nodes.length start).2 := by
  obtain ⟨hBound, hStart⟩ := mem_chainStarts.1 hStart
  refine (walks_or_exhausted g.nodes.length start).resolve_right fun hExhausted => ?_
  have hLength := length_le_of_source (source_of_isChainStart hStart)
    (walkChain_isChain g.nodes.length (outDegree_of_isChainStart hStart))
  have hSome := Nat.zero_lt_of_lt hBound
  omega

end Termination

section Soundness

/-- A path of at least two nodes whose inner nodes have one edge in and one out. -/
structure LinearChain (g : Multigraph Uuid EdgeLogic) (chain : List NodeIndex) : Prop where
  length : 2 ≤ chain.length
  nodup : chain.Nodup
  joined : ∀ (i : Nat) (hi : i < chain.length) (hNext : i + 1 < chain.length),
    (g.edgesConnecting chain[i] chain[i + 1]).length = 1
  inDegree : ∀ (i : Nat) (hi : i + 1 < chain.length), g.inDegree chain[i + 1] = 1
  outDegree : ∀ (i : Nat) (hi : i < chain.length), i + 1 < chain.length → g.outDegree chain[i] = 1
  enclosed : ∀ (i : Nat) (hi : i + 1 < chain.length), i + 2 < chain.length → ∀ n,
    g.Arc n chain[i + 1] ∨ g.Arc chain[i + 1] n → n ∈ chain

theorem edgesConnecting_of_linked {a b : NodeIndex} (h : Linked g a b) :
    (g.edgesConnecting a b).length = 1 := by
  obtain ⟨hArc, -, hIn⟩ := h
  obtain ⟨p, hp⟩ := List.length_eq_one_iff.1 hIn
  have hParent := (g.mem_predecessors).2 hArc
  rw [hp, List.mem_singleton] at hParent
  rw [length_edgesConnecting, hp, hParent, List.count_singleton_self]

theorem linearChain_of_mem {chain : List NodeIndex} (h : chain ∈ detectLinearChains g) :
    LinearChain g chain where
  length := (mem_detectLinearChains h).choose_spec.2.2
  nodup := by
    have hChain := chain_isChain h
    obtain ⟨start, hStart, rfl, -⟩ := mem_detectLinearChains h
    exact Links.nodup_of_source linked_joinless (source_of_isChainStart hStart) hChain
  joined i _ hNext := edgesConnecting_of_linked (chain_getElem_linked h hNext)
  inDegree i hi := (chain_getElem_linked h hi).2.2
  outDegree i _ hNext := (chain_getElem_linked h hNext).2.1
  enclosed i hi hNext n hArc := by
    have hBefore := chain_getElem_linked h hi
    have hBehind := chain_getElem_linked h hNext
    obtain hArc | hArc := hArc
    · rw [g.eq_of_inDegree_one hBefore.2.2 hArc hBefore.1]
      exact List.getElem_mem _
    · rw [g.eq_of_outDegree_one hBehind.2.1 hArc hBehind.1]
      exact List.getElem_mem _

theorem detectLinearChains_nodup : (detectLinearChains g).Nodup := by
  rw [detectLinearChains_eq]
  refine List.Nodup.filter _ (List.Nodup.map_on ?_ (g.nodeIndices_nodup.filter _))
  intro s _ t _ hSame
  exact (List.cons.inj hSame).1

theorem detectLinearChains_disjoint : (detectLinearChains g).Pairwise List.Disjoint := by
  refine List.Pairwise.imp_of_mem ?_ detectLinearChains_nodup
  intro chain other hChain hOther hNe n hn hn'
  exact hNe (chain_eq_of_mem hChain hOther hn hn')

end Soundness

/-- The detection stops on every graph, and the chains it returns are disjoint linear paths that no
other node enters or leaves between their ends. -/
theorem detection_sound (g : Multigraph Uuid EdgeLogic) :
    (∀ start ∈ chainStarts g, ∀ members visited, Walks g start members visited ↔
        walkChain g g.nodes.length start = (members, visited)) ∧
      (detectLinearChains g).Pairwise List.Disjoint ∧
        ∀ chain ∈ detectLinearChains g, LinearChain g chain := by
  refine ⟨fun start hStart members visited => ?_, detectLinearChains_disjoint,
    fun chain => linearChain_of_mem⟩
  have hWalks := walks_start hStart
  constructor
  · intro hOther
    obtain ⟨hMembers, hVisited⟩ := hWalks.unique hOther
    exact Prod.ext hMembers hVisited
  · intro hSame
    rw [hSame] at hWalks
    exact hWalks

section Completeness

/-- Every node but the last has one edge out, and every node but the first one in. -/
structure LinearPath (g : Multigraph Uuid EdgeLogic) (path : List NodeIndex) : Prop where
  length : 2 ≤ path.length
  arcs : path.IsChain g.Arc
  outDegree : ∀ n ∈ path.dropLast, g.outDegree n = 1
  inDegree : ∀ n ∈ path.tail, g.inDegree n = 1

/-- It is no part of a longer linear path. -/
def MaximalPath (g : Multigraph Uuid EdgeLogic) (path : List NodeIndex) : Prop :=
  LinearPath g path ∧ ∀ other, LinearPath g other → path <:+: other → other = path

theorem linearPath_iff {path : List NodeIndex} :
    LinearPath g path ↔ 2 ≤ path.length ∧ path.IsChain (Linked g) := by
  constructor
  · rintro ⟨hLength, hArcs, hOut, hIn⟩
    refine ⟨hLength, List.isChain_iff_getElem.2 fun i hi => ?_⟩
    refine ⟨List.isChain_iff_getElem.1 hArcs i hi, hOut _ ?_, hIn _ ?_⟩
    · rw [← List.getElem_dropLast (h := by rw [List.length_dropLast]; omega)]
      exact List.getElem_mem _
    · rw [← List.getElem_tail (h := by rw [List.length_tail]; omega)]
      exact List.getElem_mem _
  · rintro ⟨hLength, hChain⟩
    have hLinked := List.isChain_iff_getElem.1 hChain
    refine ⟨hLength, hChain.imp fun _ _ h => h.1, fun n hn => ?_, fun n hn => ?_⟩
    · obtain ⟨i, hi, rfl⟩ := List.getElem_of_mem hn
      rw [List.length_dropLast] at hi
      rw [List.getElem_dropLast]
      exact (hLinked i (by omega)).2.1
    · obtain ⟨i, hi, rfl⟩ := List.getElem_of_mem hn
      rw [List.length_tail] at hi
      rw [List.getElem_tail]
      exact (hLinked i (by omega)).2.2

theorem maximalPath_iff {path : List NodeIndex} :
    MaximalPath g path ↔ 2 ≤ path.length ∧ Links.Maximal (Linked g) path := by
  constructor
  · rintro ⟨hPath, hMax⟩
    obtain ⟨hLength, hChain⟩ := linearPath_iff.1 hPath
    refine ⟨hLength, hChain, fun other hOther hInfix => ?_⟩
    exact hMax other (linearPath_iff.2 ⟨hLength.trans hInfix.length_le, hOther⟩) hInfix
  · rintro ⟨hLength, hChain, hMax⟩
    refine ⟨linearPath_iff.2 ⟨hLength, hChain⟩, fun other hOther hInfix => ?_⟩
    exact hMax other (linearPath_iff.1 hOther).2 hInfix

/-- The walk follows a path to its end when nothing is linked behind it. -/
theorem walkChain_path {fuel : Nat} {current last : NodeIndex} {rest : List NodeIndex}
    (hChain : (current :: rest).IsChain (Linked g)) (hOut : g.outDegree current = 1)
    (hLast : (current :: rest).getLast? = some last) (hSink : Links.Sink (Linked g) last)
    (hFuel : rest.length ≤ fuel) : (walkChain g fuel current).1 = rest := by
  induction fuel generalizing current rest with
  | zero => rw [List.eq_nil_of_length_eq_zero (Nat.le_zero.1 hFuel), walkChain]
  | succ fuel ih =>
      obtain ⟨next, hNext⟩ := List.length_eq_one_iff.1 hOut
      have hArc : g.Arc current next := by
        rw [← mem_successors, hNext]
        exact List.mem_singleton_self next
      simp only [walkChain, hNext, List.head?_cons]
      cases rest with
      | nil =>
          rw [List.getLast?_singleton, Option.some_inj] at hLast
          rw [if_pos fun hIn => hSink next ⟨hLast ▸ hArc, hLast ▸ hOut, hIn⟩]
      | cons b rest =>
          obtain ⟨hLinked, hRest⟩ := List.isChain_cons_cons.1 hChain
          obtain rfl := g.eq_of_outDegree_one hOut hArc hLinked.1
          rw [if_neg (not_not.2 hLinked.2.2)]
          by_cases hNextOut : g.outDegree next = 1
          · rw [if_neg (not_not.2 hNextOut)]
            rw [List.getLast?_cons_cons] at hLast
            exact congrArg (next :: ·) (ih hRest hNextOut hLast
              (Nat.le_of_succ_le_succ hFuel))
          · rw [if_pos hNextOut]
            cases rest with
            | nil => rfl
            | cons c rest => exact absurd (List.isChain_cons_cons.1 hRest).1.2.1 hNextOut

theorem isChainStart_iff {idx : NodeIndex} :
    isChainStart g idx = true ↔ g.outDegree idx = 1 ∧
      ∀ parent, (g.predecessors idx).head? = some parent → g.outDegree parent ≠ 1 := by
  rw [isChainStart, Bool.and_eq_true, decide_eq_true_eq]
  refine and_congr_right fun _ => ?_
  cases (g.predecessors idx).head? with
  | none =>
      constructor
      · rintro - parent ⟨⟩
      · exact fun _ => rfl
  | some p =>
      simp only [decide_eq_true_eq]
      constructor
      · rintro hOut parent ⟨⟩
        exact hOut
      · exact fun hAll => hAll p rfl

end Completeness

/-- A maximal linear path is found exactly when its head has no edge in or the first of its listed
predecessors has not one edge out. -/
theorem detection_complete_iff (g : Multigraph Uuid EdgeLogic) (head : NodeIndex)
    (rest : List NodeIndex) (hMax : MaximalPath g (head :: rest)) :
    head :: rest ∈ detectLinearChains g ↔
      ∀ parent, (g.predecessors head).head? = some parent → g.outDegree parent ≠ 1 := by
  obtain ⟨hLength, hMaximal⟩ := maximalPath_iff.1 hMax
  obtain ⟨second, rest, rfl⟩ : ∃ second tail, rest = second :: tail :=
    List.exists_cons_of_length_pos (Nat.le_of_succ_le_succ hLength)
  obtain ⟨last, hLast⟩ : ∃ last, (head :: second :: rest).getLast? = some last :=
    ⟨_, List.getLast?_cons⟩
  obtain ⟨hChain, -, hSink⟩ := (Links.maximal_iff rfl hLast).1 hMaximal
  have hHead := (List.isChain_cons_cons.1 hChain).1
  constructor
  · intro hFound
    obtain ⟨start, hStart, hPath, -⟩ := mem_detectLinearChains hFound
    obtain rfl := (List.cons.inj hPath).1
    exact (isChainStart_iff.1 hStart).2
  · intro hParent
    have hStart : isChainStart g head = true := isChainStart_iff.2 ⟨hHead.2.1, hParent⟩
    have hFuel := length_le_of_source (source_of_isChainStart hStart) hChain
    have hFrom : chainFrom g head = head :: second :: rest := by
      rw [chainFrom, walkChain_path hChain hHead.2.1 hLast hSink (hFuel.trans (Nat.sub_le _ 1))]
    rw [detectLinearChains_eq, List.mem_filter, decide_eq_true_eq]
    exact ⟨List.mem_map.2 ⟨head, mem_chainStarts.2 ⟨hHead.1.source_lt, hStart⟩, hFrom⟩, hLength⟩

section Samples

/-- Two nodes in front of a third one, and a fourth behind that. -/
def joinedHead : Multigraph Uuid EdgeLogic :=
  ((((Multigraph.empty.addNode 1).addNode 2).addNode 3).addNode 4).addEdge 0 2 {}
    (by decide) (by decide) |>.addEdge 1 2 {} (by decide) (by decide)
      |>.addEdge 2 3 {} (by decide) (by decide)

/-- A node in front of two others, and a fourth behind one of these. -/
def forkedHead : Multigraph Uuid EdgeLogic :=
  ((((Multigraph.empty.addNode 1).addNode 2).addNode 3).addNode 4).addEdge 0 1 {}
    (by decide) (by decide) |>.addEdge 0 2 {} (by decide) (by decide)
      |>.addEdge 1 3 {} (by decide) (by decide)

theorem detection_complete_forkedHead :
    MaximalPath forkedHead [1, 3] ∧ ([1, 3] ∈ detectLinearChains forkedHead ↔
      ∀ parent, (forkedHead.predecessors 1).head? = some parent →
        forkedHead.outDegree parent ≠ 1) := by
  have hLinked : Linked forkedHead 1 3 := ⟨(forkedHead.mem_successors).1 (by decide), by decide⟩
  have hMax : MaximalPath forkedHead [1, 3] := by
    refine maximalPath_iff.2 ⟨by decide, (Links.maximal_iff rfl rfl).2
      ⟨.cons_cons hLinked (.singleton _), ?_, ?_⟩⟩
    · rintro b ⟨hArc, hOut, hIn⟩
      have hFork : forkedHead.Arc 0 1 := (forkedHead.mem_successors).1 (by decide)
      rw [forkedHead.eq_of_inDegree_one hIn hArc hFork] at hOut
      exact absurd hOut (by decide)
    · rintro b ⟨-, hOut, -⟩
      exact absurd hOut (by decide)
  exact ⟨hMax, detection_complete_iff forkedHead 1 [3] hMax⟩

/-- The path behind a join is not found, since each of the nodes in front has one edge out. -/
theorem path_behind_join_missed :
    joinedHead.Acyclic ∧ MaximalPath joinedHead [2, 3] ∧ detectLinearChains joinedHead = [] := by
  have hLinked : Linked joinedHead 2 3 := ⟨(joinedHead.mem_successors).1 (by decide), by decide⟩
  refine ⟨acyclic_of_rank id (by decide), maximalPath_iff.2 ⟨by decide,
    (Links.maximal_iff rfl rfl).2 ⟨.cons_cons hLinked (.singleton _), ?_, ?_⟩⟩, by decide⟩
  · rintro b ⟨-, -, hIn⟩
    exact absurd hIn (by decide)
  · rintro b ⟨-, hOut, -⟩
    exact absurd hOut (by decide)

end Samples

end TalosWorkflow
