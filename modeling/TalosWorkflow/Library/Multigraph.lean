import Mathlib.Data.List.Basic
import Mathlib.Data.List.Count
import Mathlib.Data.Fintype.Card
import Mathlib.Logic.Relation
import Mathlib.Order.WellFounded
import Mathlib.Data.Fintype.EquivFin
import Mathlib.Order.Preorder.Finite

/-!
# Directed multigraphs in insertion order

Nodes are numbered by the order in which they were added. Parallel edges are
kept apart, and the neighbours of a node are listed with the edge added last
in front.
-/

namespace TalosWorkflow

universe u v

structure Edge (ε : Type v) where
  source : Nat
  target : Nat
  weight : ε
  deriving DecidableEq, Repr

/-- A multigraph whose edges join nodes that exist. -/
structure Multigraph (ν : Type u) (ε : Type v) where
  nodes : List ν
  edges : List (Edge ε)
  bound : ∀ e ∈ edges, e.source < nodes.length ∧ e.target < nodes.length

namespace Multigraph

variable {ν : Type u} {ε : Type v}

def empty : Multigraph ν ε where
  nodes := []
  edges := []
  bound := by simp

def addNode (g : Multigraph ν ε) (weight : ν) : Multigraph ν ε where
  nodes := g.nodes ++ [weight]
  edges := g.edges
  bound e he := by
    have h := g.bound e he
    simp only [List.length_append, List.length_singleton]
    omega

def addEdge (g : Multigraph ν ε) (a b : Nat) (weight : ε)
    (ha : a < g.nodes.length) (hb : b < g.nodes.length) : Multigraph ν ε where
  nodes := g.nodes
  edges := g.edges ++ [⟨a, b, weight⟩]
  bound e he := by
    rcases List.mem_append.1 he with he | he
    · exact g.bound e he
    · rw [List.mem_singleton.1 he]
      exact ⟨ha, hb⟩

def nodeIndices (g : Multigraph ν ε) : List Nat := List.range g.nodes.length

def outgoing (g : Multigraph ν ε) (n : Nat) : List (Edge ε) :=
  (g.edges.filter fun e => e.source = n).reverse

def incoming (g : Multigraph ν ε) (n : Nat) : List (Edge ε) :=
  (g.edges.filter fun e => e.target = n).reverse

/-- One entry for each outgoing edge. -/
def successors (g : Multigraph ν ε) (n : Nat) : List Nat := (g.outgoing n).map (·.target)

/-- One entry for each incoming edge. -/
def predecessors (g : Multigraph ν ε) (n : Nat) : List Nat := (g.incoming n).map (·.source)

def inDegree (g : Multigraph ν ε) (n : Nat) : Nat := (g.predecessors n).length

def outDegree (g : Multigraph ν ε) (n : Nat) : Nat := (g.successors n).length

def edgesConnecting (g : Multigraph ν ε) (a b : Nat) : List (Edge ε) :=
  (g.outgoing a).filter fun e => e.target = b

def findEdge (g : Multigraph ν ε) (a b : Nat) : Option (Edge ε) :=
  (g.edgesConnecting a b).head?

def Arc (g : Multigraph ν ε) (a b : Nat) : Prop :=
  ∃ e ∈ g.edges, e.source = a ∧ e.target = b

def Acyclic (g : Multigraph ν ε) : Prop := ∀ n, ¬ Relation.TransGen g.Arc n n

section Incidence

variable (g : Multigraph ν ε) {a b n : Nat} {e : Edge ε}

@[simp]
theorem mem_outgoing : e ∈ g.outgoing n ↔ e ∈ g.edges ∧ e.source = n := by
  simp [outgoing]

@[simp]
theorem mem_incoming : e ∈ g.incoming n ↔ e ∈ g.edges ∧ e.target = n := by
  simp [incoming]

@[simp]
theorem mem_edgesConnecting :
    e ∈ g.edgesConnecting a b ↔ e ∈ g.edges ∧ e.source = a ∧ e.target = b := by
  simp [edgesConnecting, and_assoc]

theorem mem_successors : b ∈ g.successors a ↔ g.Arc a b := by
  simp [successors, Arc, and_assoc]

theorem mem_predecessors : a ∈ g.predecessors b ↔ g.Arc a b := by
  simp only [predecessors, List.mem_map, mem_incoming, Arc]
  constructor
  · rintro ⟨e, ⟨he, ht⟩, hs⟩
    exact ⟨e, he, hs, ht⟩
  · rintro ⟨e, he, hs, ht⟩
    exact ⟨e, ⟨he, ht⟩, hs⟩

@[simp]
theorem mem_nodeIndices : n ∈ g.nodeIndices ↔ n < g.nodes.length := by
  simp [nodeIndices]

theorem nodeIndices_nodup : g.nodeIndices.Nodup := List.nodup_range

variable {g}

theorem Arc.source_lt (h : g.Arc a b) : a < g.nodes.length := by
  obtain ⟨e, he, rfl, -⟩ := h
  exact (g.bound e he).1

theorem Arc.target_lt (h : g.Arc a b) : b < g.nodes.length := by
  obtain ⟨e, he, -, rfl⟩ := h
  exact (g.bound e he).2

theorem arc_iff_edgesConnecting : g.Arc a b ↔ g.edgesConnecting a b ≠ [] := by
  rw [Ne, List.eq_nil_iff_forall_not_mem]
  simp [Arc]

variable (g)

theorem inDegree_pos : 0 < g.inDegree b ↔ ∃ a, g.Arc a b := by
  rw [inDegree, List.length_pos_iff_exists_mem]
  exact exists_congr fun a => g.mem_predecessors

/-- Both ends of the arcs from `a` to `b` see the same parallel edges. -/
theorem count_successors_eq_count_predecessors :
    (g.successors a).count b = (g.predecessors b).count a := by
  simp only [successors, predecessors, outgoing, incoming, List.count, List.countP_map,
    List.countP_reverse, List.countP_filter]
  refine List.countP_congr fun e _ => ?_
  simp only [Function.comp, Bool.and_eq_true, beq_iff_eq, decide_eq_true_eq]
  exact and_comm

theorem length_edgesConnecting :
    (g.edgesConnecting a b).length = (g.predecessors b).count a := by
  rw [← count_successors_eq_count_predecessors, successors, List.count, List.countP_map,
    edgesConnecting, ← List.countP_eq_length_filter]
  refine List.countP_congr fun e _ => ?_
  rw [Function.comp, beq_iff_eq, decide_eq_true_eq]

theorem eq_of_outDegree_one {c : Nat} (h : g.outDegree a = 1) (hb : g.Arc a b) (hc : g.Arc a c) :
    b = c := by
  obtain ⟨d, hd⟩ := List.length_eq_one_iff.1 h
  rw [← mem_successors, hd, List.mem_singleton] at hb hc
  exact hb.trans hc.symm

theorem eq_of_inDegree_one {c : Nat} (h : g.inDegree b = 1) (ha : g.Arc a b) (hc : g.Arc c b) :
    a = c := by
  obtain ⟨d, hd⟩ := List.length_eq_one_iff.1 h
  rw [← mem_predecessors, hd, List.mem_singleton] at ha hc
  exact ha.trans hc.symm

end Incidence

section Acyclic

variable {g : Multigraph ν ε}

/-- A rank that grows along every edge rules out cycles. -/
theorem acyclic_of_rank (rank : Nat → Nat)
    (h : ∀ e ∈ g.edges, rank e.source < rank e.target) : g.Acyclic := by
  have hArc : ∀ a b, Relation.TransGen g.Arc a b → rank a < rank b := by
    intro a b hab
    induction hab with
    | single hArc =>
        obtain ⟨e, he, rfl, rfl⟩ := hArc
        exact h e he
    | tail _ hArc ih =>
        obtain ⟨e, he, rfl, rfl⟩ := hArc
        exact ih.trans (h e he)
  exact fun n hn => (hArc n n hn).ne rfl

theorem Acyclic.not_arc_self (h : g.Acyclic) (n : Nat) : ¬ g.Arc n n :=
  fun hn => h n (.single hn)

/-- Induction along the arcs of an acyclic graph. -/
theorem Acyclic.wellFounded (h : g.Acyclic) : WellFounded g.Arc := by
  let above (i j : Fin g.nodes.length) : Prop := Relation.TransGen g.Arc i j
  have hTrans : IsTrans _ above := ⟨fun _ _ _ hij hjk => hij.trans hjk⟩
  have hIrrefl : Std.Irrefl above := ⟨fun i => h i⟩
  have hFin : WellFounded above := Finite.wellFounded_of_trans_of_irrefl above
  have hAcc : ∀ i : Fin g.nodes.length, Acc g.Arc i := by
    intro i
    induction i using hFin.induction with
    | _ i ih =>
        exact ⟨_, fun m hm => ih ⟨m, hm.source_lt⟩ (.single hm)⟩
  refine ⟨fun n => ⟨_, fun m hm => hAcc ⟨m, hm.source_lt⟩⟩⟩

end Acyclic

section Paths

variable (g : Multigraph ν ε)

/-- A path of at most `bound` arcs leads from `a` to `b`. -/
def reaches : Nat → Nat → Nat → Bool
  | 0, _, _ => false
  | bound + 1, a, b => (g.successors a).any fun c => c = b || reaches bound c b

/-- A path without repeated nodes leads from `a` to `b`. -/
def precedes (a b : Nat) : Bool := g.reaches g.nodes.length a b

variable {g}

theorem transGen_of_reaches {bound a b : Nat} (h : g.reaches bound a b = true) :
    Relation.TransGen g.Arc a b := by
  induction bound generalizing a with
  | zero => cases h
  | succ bound ih =>
      rw [reaches, List.any_eq_true] at h
      obtain ⟨c, hc, hPath⟩ := h
      have hArc := (g.mem_successors).1 hc
      rw [Bool.or_eq_true, decide_eq_true_eq] at hPath
      obtain rfl | hPath := hPath
      · exact .single hArc
      · exact .head hArc (ih hPath)

theorem Acyclic.not_precedes (h : g.Acyclic) {a b : Nat} (hab : g.precedes a b = true) :
    g.precedes b a = false := by
  rw [Bool.eq_false_iff]
  intro hba
  exact h a ((transGen_of_reaches hab).trans (transGen_of_reaches hba))

end Paths

end Multigraph

end TalosWorkflow
