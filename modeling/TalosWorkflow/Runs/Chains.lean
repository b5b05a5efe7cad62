import TalosWorkflow.Steps.Inversion

/-!
# Chains of a run

The place of the chains in the graph, and the nodes that one dispatch executes.
-/

namespace TalosWorkflow

open Multigraph

section Chains

variable {H : Host} (R : Reactor H)

/-- The chains of a run are linear chains of module nodes. -/
def Reactor.ChainsDetected : Prop :=
  ∀ chain ∈ R.chains, chain ∈ detectLinearChains R.graph ∧ chain.all R.isModuleBacked = true

def Reactor.Consecutive (a b : NodeIndex) : Prop :=
  ∃ chain ∈ R.chains, ∃ i, chain[i]? = some a ∧ chain[i + 1]? = some b

def Reactor.IsFollower (b : NodeIndex) : Prop := ∃ a, R.Consecutive a b

def Reactor.IsInner (a : NodeIndex) : Prop := ∃ b, R.Consecutive a b

/-- The nodes that the dispatch of `start` executes. -/
def Reactor.members (start : NodeIndex) : List NodeIndex := (R.chainOf start).getD [start]

variable {R}

theorem reactor_chainsDetected {H : Host} (E : ParallelWorkflowEngine H) (executionId : Uuid)
    (initialResults : Table Json) : (E.reactor executionId initialResults).ChainsDetected := by
  intro chain hChain
  simp only [ParallelWorkflowEngine.reactor] at hChain
  split at hChain
  · exact List.mem_filter.1 hChain
  · exact absurd hChain List.not_mem_nil

theorem chainOf_eq_some {idx : NodeIndex} {members : List NodeIndex}
    (h : R.chainOf idx = some members) : members ∈ R.chains ∧ idx ∈ members := by
  have hMem := List.mem_of_find?_eq_some h
  have hProp := List.find?_some h
  exact ⟨List.mem_reverse.1 hMem, by simpa using hProp⟩

theorem chainOf_eq_none {idx : NodeIndex} (h : R.chainOf idx = none) {members : List NodeIndex}
    (hMembers : members ∈ R.chains) : idx ∉ members := by
  have hAll := List.find?_eq_none.1 h members (List.mem_reverse.2 hMembers)
  simpa using hAll

theorem chainOf_of_mem (hChains : R.ChainsDetected) {idx : NodeIndex} {members : List NodeIndex}
    (hMembers : members ∈ R.chains) (hIdx : idx ∈ members) : R.chainOf idx = some members := by
  cases hChain : R.chainOf idx with
  | none => exact absurd hIdx (chainOf_eq_none hChain hMembers)
  | some other =>
      obtain ⟨hOther, hIdx'⟩ := chainOf_eq_some hChain
      rw [chain_eq_of_mem (hChains other hOther).1 (hChains members hMembers).1 hIdx' hIdx]

theorem chainOf_eq_none_of_kind (hChains : R.ChainsDetected) {idx : NodeIndex}
    {kind : SystemNodeKind} (hKind : R.kindOf (R.nodeId idx) = some kind) :
    R.chainOf idx = none := by
  cases hChain : R.chainOf idx with
  | none => rfl
  | some members =>
      obtain ⟨hMembers, hIdx⟩ := chainOf_eq_some hChain
      have hModule := List.all_eq_true.1 (hChains members hMembers).2 idx hIdx
      unfold ParallelWorkflowEngine.kindOf at hKind
      unfold ParallelWorkflowEngine.isModuleBacked at hModule
      cases hInfo : R.nodeMeta.lookup (R.nodeId idx) with
      | none => simp [hInfo] at hModule
      | some info =>
          rw [hInfo] at hModule hKind
          simp only [Bool.and_eq_true, Option.isNone_iff_eq_none] at hModule
          rw [Option.bind_some, hModule.2] at hKind
          cases hKind

theorem chainOf_eq_none_of_isFanIn (hChains : R.ChainsDetected) {idx : NodeIndex}
    (h : R.isFanIn idx = true) : R.chainOf idx = none := by
  obtain ⟨mode, expr, hKind⟩ := Reactor.isFanIn_iff.1 h
  exact chainOf_eq_none_of_kind hChains hKind

theorem chainOf_eq_none_of_isSubWorkflowNode (hChains : R.ChainsDetected) {idx : NodeIndex}
    (h : R.isSubWorkflowNode idx = true) : R.chainOf idx = none := by
  unfold Reactor.isSubWorkflowNode at h
  split at h
  · exact chainOf_eq_none_of_kind hChains ‹_›
  · cases h

theorem Reactor.consecutive_iff {a b : NodeIndex} :
    R.Consecutive a b ↔
      ∃ chain ∈ R.chains, ∃ i, ∃ (_ : i < chain.length) (_ : i + 1 < chain.length),
        chain[i] = a ∧ chain[i + 1] = b := by
  constructor
  · rintro ⟨chain, hChain, i, ha, hb⟩
    obtain ⟨hi, ha⟩ := List.getElem?_eq_some_iff.1 ha
    obtain ⟨hNext, hb⟩ := List.getElem?_eq_some_iff.1 hb
    exact ⟨chain, hChain, i, hi, hNext, ha, hb⟩
  · rintro ⟨chain, hChain, i, hi, hNext, rfl, rfl⟩
    exact ⟨chain, hChain, i, List.getElem?_eq_getElem hi, List.getElem?_eq_getElem hNext⟩

theorem Reactor.Consecutive.linked (hChains : R.ChainsDetected) {a b : NodeIndex}
    (h : R.Consecutive a b) : Linked R.graph a b := by
  obtain ⟨chain, hChain, i, _, hi, rfl, rfl⟩ := Reactor.consecutive_iff.1 h
  exact chain_getElem_linked (hChains chain hChain).1 hi

theorem not_isInner_of_chainOf_none {idx : NodeIndex} (h : R.chainOf idx = none) :
    ¬ R.IsInner idx := by
  rintro ⟨b, hConsecutive⟩
  obtain ⟨chain, hChain, i, _, hi, rfl, -⟩ := Reactor.consecutive_iff.1 hConsecutive
  exact chainOf_eq_none h hChain (List.getElem_mem (by omega))

theorem isChainHead_of_not_isFollower {idx : NodeIndex} {members : List NodeIndex}
    (h : R.chainOf idx = some members) (hFollower : ¬ R.IsFollower idx) :
    members.head? = some idx ∧ R.isChainHead idx = true := by
  obtain ⟨hMembers, hIdx⟩ := chainOf_eq_some h
  obtain ⟨i, hi, hGet⟩ := List.getElem_of_mem hIdx
  cases i with
  | zero =>
      have hHead : members.head? = some idx := by
        rw [List.head?_eq_getElem?, List.getElem?_eq_getElem hi, hGet]
      refine ⟨hHead, ?_⟩
      rw [Reactor.isChainHead, List.any_eq_true]
      exact ⟨members, hMembers, by simpa using hHead⟩
  | succ i =>
      exact absurd ⟨_, Reactor.consecutive_iff.2 ⟨members, hMembers, i, Nat.lt_of_succ_lt hi, hi, rfl,
        hGet⟩⟩ hFollower

theorem transGen_of_lt (hChains : R.ChainsDetected) {chain : List NodeIndex}
    (hChain : chain ∈ R.chains) {i j : Nat} (hij : i < j) (hj : j < chain.length) :
    Relation.TransGen R.graph.Arc chain[i] chain[j] := by
  induction hij with
  | refl => exact .single (chain_getElem_linked (hChains chain hChain).1 hj).1
  | step hle ih =>
      exact (ih (by omega)).tail (chain_getElem_linked (hChains chain hChain).1 hj).1

variable (hAcyclic : R.graph.Acyclic) (hChains : R.ChainsDetected)
include hAcyclic hChains

theorem not_arc_from_last {chain : List NodeIndex} (hChain : chain ∈ R.chains) {last m : NodeIndex}
    (hLast : chain.getLast? = some last) (hm : m ∈ chain) : ¬ R.graph.Arc last m := by
  intro hArc
  obtain ⟨i, hi, rfl⟩ := List.getElem_of_mem hm
  rw [List.getLast?_eq_getElem?, List.getElem?_eq_some_iff] at hLast
  obtain ⟨hLength, rfl⟩ := hLast
  rcases Nat.lt_or_ge i (chain.length - 1) with hlt | hge
  · exact hAcyclic _ ((transGen_of_lt hChains hChain hlt hLength).tail hArc)
  · have hi' : i = chain.length - 1 := by omega
    subst hi'
    exact hAcyclic _ (.single hArc)

theorem last_not_isInner {chain : List NodeIndex} (hChain : chain ∈ R.chains) {last : NodeIndex}
    (hLast : chain.getLast? = some last) : ¬ R.IsInner last := by
  rintro ⟨b, hConsecutive⟩
  obtain ⟨other, hOther, i, _, hi, rfl, rfl⟩ := Reactor.consecutive_iff.1 hConsecutive
  have hMem : other[i] ∈ chain := List.mem_of_getLast? hLast
  have hSame : other = chain :=
    chain_eq_of_mem (hChains other hOther).1 (hChains chain hChain).1
      (List.getElem_mem (by omega)) hMem
  subst hSame
  exact not_arc_from_last hAcyclic hChains hChain hLast (List.getElem_mem hi)
    (chain_getElem_linked (hChains other hOther).1 hi).1

omit hAcyclic in
theorem isInner_of_arc {a b : NodeIndex} (hb : R.IsFollower b) (hArc : R.graph.Arc a b) :
    R.IsInner a := by
  obtain ⟨p, hp⟩ := hb
  have hLinked := hp.linked hChains
  rw [R.graph.eq_of_inDegree_one hLinked.2.2 hArc hLinked.1]
  exact ⟨b, hp⟩

omit hAcyclic in
theorem isFollower_of_arc {a b : NodeIndex} (ha : R.IsInner a) (hArc : R.graph.Arc a b) :
    R.IsFollower b := by
  obtain ⟨c, hc⟩ := ha
  have hLinked := hc.linked hChains
  rw [R.graph.eq_of_outDegree_one hLinked.2.1 hArc hLinked.1]
  exact ⟨a, hc⟩

end Chains

section Tails

variable {H : Host} {R : Reactor H}

theorem mem_members_self {n : NodeIndex} : n ∈ R.members n := by
  unfold Reactor.members
  cases hChain : R.chainOf n with
  | none => exact List.mem_singleton_self n
  | some members => exact (chainOf_eq_some hChain).2

/-- A member of a dispatched chain is its head or follows it. -/
theorem eq_or_isFollower_of_mem_members {start n : NodeIndex} (hStart : ¬ R.IsFollower start)
    (hn : n ∈ R.members start) : n = start ∨ R.IsFollower n := by
  unfold Reactor.members at hn
  cases hChain : R.chainOf start with
  | none =>
      rw [hChain] at hn
      exact .inl (List.mem_singleton.1 hn)
  | some members =>
      rw [hChain] at hn
      have hHead := (isChainHead_of_not_isFollower hChain hStart).1
      obtain ⟨i, hi, rfl⟩ := List.getElem_of_mem hn
      cases i with
      | zero =>
          refine .inl ?_
          rw [List.head?_eq_getElem?, List.getElem?_eq_some_iff] at hHead
          exact hHead.2
      | succ i =>
          exact .inr ⟨_, Reactor.consecutive_iff.2
            ⟨members, (chainOf_eq_some hChain).1, i, Nat.lt_of_succ_lt hi, hi, rfl, rfl⟩⟩

variable (R) in
/-- The node that is completed when the dispatch of `start` returns. -/
def Reactor.IsTail (start idx : NodeIndex) : Prop :=
  match R.chainOf start with
  | none => idx = start
  | some members => members.getLast? = some idx

theorem Reactor.IsTail.mem_members {start idx : NodeIndex} (h : R.IsTail start idx) :
    idx ∈ R.members start := by
  unfold Reactor.IsTail at h
  unfold Reactor.members
  cases hChain : R.chainOf start with
  | none =>
      rw [hChain] at h
      exact h ▸ List.mem_singleton_self _
  | some members =>
      rw [hChain] at h
      exact List.mem_of_getLast? h

theorem Reactor.IsTail.eq_or_isInner {start idx n : NodeIndex} (h : R.IsTail start idx)
    (hn : n ∈ R.members start) : n = idx ∨ R.IsInner n := by
  unfold Reactor.IsTail at h
  unfold Reactor.members at hn
  cases hChain : R.chainOf start with
  | none =>
      rw [hChain] at h hn
      exact .inl ((List.mem_singleton.1 hn).trans h.symm)
  | some members =>
      rw [hChain] at h hn
      rw [Option.getD_some] at hn
      obtain ⟨i, hi, rfl⟩ := List.getElem_of_mem hn
      rcases Nat.lt_or_ge (i + 1) members.length with hlt | hge
      · exact .inr ⟨_, Reactor.consecutive_iff.2
          ⟨members, (chainOf_eq_some hChain).1, i, hi, hlt, rfl, rfl⟩⟩
      · simp only [List.getLast?_eq_getElem?, List.getElem?_eq_some_iff] at h
        obtain ⟨_, rfl⟩ := h
        have hi' : i = members.length - 1 := by omega
        subst hi'
        exact .inl rfl

theorem Reactor.IsTail.not_arc (hAcyclic : R.graph.Acyclic) (hChains : R.ChainsDetected)
    {start idx n : NodeIndex} (h : R.IsTail start idx) (hn : n ∈ R.members start) :
    ¬ R.graph.Arc idx n := by
  unfold Reactor.IsTail at h
  unfold Reactor.members at hn
  cases hChain : R.chainOf start with
  | none =>
      rw [hChain] at h hn
      rw [List.mem_singleton.1 hn, h]
      exact hAcyclic.not_arc_self start
  | some members =>
      rw [hChain] at h hn
      exact not_arc_from_last hAcyclic hChains (chainOf_eq_some hChain).1 h hn

theorem Reactor.IsTail.not_isInner (hAcyclic : R.graph.Acyclic) (hChains : R.ChainsDetected)
    {start idx : NodeIndex} (h : R.IsTail start idx) : ¬ R.IsInner idx := by
  unfold Reactor.IsTail at h
  cases hChain : R.chainOf start with
  | none =>
      rw [hChain] at h
      exact h ▸ not_isInner_of_chainOf_none hChain
  | some members =>
      rw [hChain] at h
      exact last_not_isInner hAcyclic hChains (chainOf_eq_some hChain).1 h

theorem isTail_self {idx : NodeIndex} (h : R.chainOf idx = none) : R.IsTail idx idx := by
  unfold Reactor.IsTail
  rw [h]

theorem exists_isTail (start : NodeIndex) : ∃ idx, R.IsTail start idx := by
  unfold Reactor.IsTail
  cases hChain : R.chainOf start with
  | none => exact ⟨start, rfl⟩
  | some members =>
      have hMem := (chainOf_eq_some hChain).2
      cases hLast : members.getLast? with
      | none =>
          rw [List.getLast?_eq_none_iff] at hLast
          rw [hLast] at hMem
          cases hMem
      | some last => exact ⟨last, hLast⟩

theorem isTail_of_getLast? (hChains : R.ChainsDetected) {members : List NodeIndex}
    (hMembers : members ∈ R.chains) {head tail : NodeIndex} (hHead : members.head? = some head)
    (hTail : members.getLast? = some tail) : R.IsTail head tail := by
  unfold Reactor.IsTail
  rw [chainOf_of_mem hChains hMembers (List.mem_of_mem_head? hHead)]
  exact hTail

theorem Reactor.IsTail.unique {start idx idx' : NodeIndex} (h : R.IsTail start idx)
    (h' : R.IsTail start idx') : idx = idx' := by
  unfold Reactor.IsTail at h h'
  cases hChain : R.chainOf start with
  | none =>
      rw [hChain] at h h'
      exact h.trans h'.symm
  | some members =>
      rw [hChain] at h h'
      exact Option.some.inj (h.symm.trans h')

theorem chainOf_members (hChains : R.ChainsDetected) {start n : NodeIndex}
    (hn : n ∈ R.members start) : R.chainOf n = R.chainOf start := by
  unfold Reactor.members at hn
  cases hChain : R.chainOf start with
  | none =>
      rw [hChain] at hn
      rw [List.mem_singleton.1 hn, hChain]
  | some members =>
      rw [hChain] at hn
      exact chainOf_of_mem hChains (chainOf_eq_some hChain).1 hn

theorem eq_of_mem_members (hChains : R.ChainsDetected) {a b n : NodeIndex}
    (ha : ¬ R.IsFollower a) (hb : ¬ R.IsFollower b) (hna : n ∈ R.members a)
    (hnb : n ∈ R.members b) : a = b := by
  have hSame := (chainOf_members hChains hna).symm.trans (chainOf_members hChains hnb)
  cases hChain : R.chainOf a with
  | none =>
      rw [Reactor.members, hChain, Option.getD_none, List.mem_singleton] at hna
      rw [Reactor.members, ← hSame, hChain, Option.getD_none, List.mem_singleton] at hnb
      exact hna.symm.trans hnb
  | some members =>
      have hHeadA := (isChainHead_of_not_isFollower hChain ha).1
      have hHeadB := (isChainHead_of_not_isFollower (hSame ▸ hChain) hb).1
      exact Option.some.inj (hHeadA.symm.trans hHeadB)

end Tails

end TalosWorkflow
