import Mathlib.Algebra.GroupWithZero.Nat
import Mathlib.Algebra.Order.BigOperators.Group.List
import Mathlib.Algebra.Order.Group.Nat
import Mathlib.Data.Finset.Card
import Mathlib.Data.Finset.Range
import TalosWorkflow.Library.Multigraph
import TalosWorkflow.Library.Transition

/-!
# Workloads

A measure that every step uses up bounds the length of a run. In an acyclic
graph, an arrival that is passed on along every outgoing edge costs a finite
amount, and no walk is as long as the graph has nodes.
-/

namespace TalosWorkflow

universe u v

section Measures

variable {σ : Type u} {α : Type v} {step : σ → α → Option σ} {allowed : σ → α → Prop}
  [∀ s a, Decidable (allowed s a)]

theorem replay_append {first rest : List α} {s t : σ}
    (h : replay step allowed first s = some t) :
    replay step allowed (first ++ rest) s = replay step allowed rest t := by
  induction first generalizing s with
  | nil =>
      cases h
      rfl
  | cons a first ih =>
      rw [replay] at h
      split at h
      · rename_i hAllowed
        obtain ⟨mid, hMid, hRest⟩ := Option.bind_eq_some_iff.1 h
        rw [List.cons_append, replay, if_pos hAllowed, hMid]
        exact ih hRest
      · cases h

/-- A run takes at most as many steps as its measure allows. -/
theorem replay_length_le (I : σ → Prop) (measure : σ → Nat)
    (hStep : ∀ s a t, allowed s a → I s → step s a = some t → I t ∧ measure t < measure s)
    {actions : List α} {s t : σ} (hStart : I s) (h : replay step allowed actions s = some t) :
    actions.length + measure t ≤ measure s := by
  induction actions generalizing s with
  | nil =>
      cases h
      exact (Nat.zero_add _).le
  | cons a rest ih =>
      rw [replay] at h
      split at h
      · rename_i hAllowed
        obtain ⟨mid, hMid, hRest⟩ := Option.bind_eq_some_iff.1 h
        obtain ⟨hKept, hUsed⟩ := hStep s a mid hAllowed hStart hMid
        have hLeft := ih hKept hRest
        rw [List.length_cons]
        omega
      · cases h

end Measures

namespace Multigraph

variable {ν : Type u} {ε : Type v} (g : Multigraph ν ε) (node edge : Nat)

/-- An arrival costs `node`, and `edge` for each edge it is passed on along, over at most `bound`
nodes. -/
def spending : Nat → Nat → Nat
  | 0, _ => 0
  | bound + 1, n => node + ((g.successors n).map fun c => edge + spending bound c).sum

/-- The cost of an arrival at `n`. -/
def workload (n : Nat) : Nat := g.spending node edge (g.nodes.length + 1) n

/-- The cost of passing an arrival on from `n`. -/
def passedOn (n : Nat) : Nat :=
  ((g.successors n).map fun c => edge + g.workload node edge c).sum

section Ahead

open scoped Classical in
/-- The nodes that lie ahead of `n`. -/
noncomputable def ahead (n : Nat) : Finset Nat :=
  (Finset.range g.nodes.length).filter fun m => Relation.TransGen g.Arc n m

variable {g}

theorem mem_ahead {n m : Nat} :
    m ∈ g.ahead n ↔ m < g.nodes.length ∧ Relation.TransGen g.Arc n m := by
  simp [ahead]

theorem card_ahead_le (n : Nat) : (g.ahead n).card ≤ g.nodes.length := by
  have hSubset : g.ahead n ⊆ Finset.range g.nodes.length := by
    intro m hm
    exact Finset.mem_range.2 (mem_ahead.1 hm).1
  exact (Finset.card_le_card hSubset).trans_eq (Finset.card_range _)

theorem Acyclic.card_ahead_lt (h : g.Acyclic) {a b : Nat} (hArc : g.Arc a b) :
    (g.ahead b).card < (g.ahead a).card := by
  apply Finset.card_lt_card
  rw [Finset.ssubset_iff_of_subset]
  · exact ⟨b, mem_ahead.2 ⟨hArc.target_lt, .single hArc⟩, fun hb => h b (mem_ahead.1 hb).2⟩
  · intro m hm
    obtain ⟨hLt, hPath⟩ := mem_ahead.1 hm
    exact mem_ahead.2 ⟨hLt, .head hArc hPath⟩

end Ahead

section Walks

/-- A walk of `length` arcs starts at `n`. -/
def walks : Nat → Nat → Bool
  | 0, _ => true
  | length + 1, n => (g.successors n).any (walks length)

/-- Some walk is so long that it visits a node twice. -/
def isCyclic : Bool := g.nodeIndices.any (g.walks g.nodes.length)

variable {g}

theorem walks_of_cycle {length n : Nat} (h : Relation.TransGen g.Arc n n) :
    g.walks length n = true := by
  induction length generalizing n with
  | zero => rfl
  | succ length ih =>
      rw [walks, List.any_eq_true]
      obtain ⟨c, hArc, hBack⟩ := Relation.TransGen.head'_iff.1 h
      exact ⟨c, g.mem_successors.2 hArc, ih (.tail' hBack hArc)⟩

theorem Acyclic.le_card_ahead (h : g.Acyclic) {length n : Nat} (hWalks : g.walks length n = true) :
    length ≤ (g.ahead n).card := by
  induction length generalizing n with
  | zero => exact Nat.zero_le _
  | succ length ih =>
      rw [walks, List.any_eq_true] at hWalks
      obtain ⟨c, hc, hRest⟩ := hWalks
      exact (ih hRest).trans_lt (h.card_ahead_lt (g.mem_successors.1 hc))

theorem Acyclic.card_ahead_lt_length (h : g.Acyclic) {n : Nat} (hn : n < g.nodes.length) :
    (g.ahead n).card < g.nodes.length := by
  have hLess : (g.ahead n).card < (Finset.range g.nodes.length).card := by
    apply Finset.card_lt_card
    rw [Finset.ssubset_iff_of_subset fun m hm => Finset.mem_range.2 (mem_ahead.1 hm).1]
    exact ⟨n, Finset.mem_range.2 hn, fun hSelf => h n (mem_ahead.1 hSelf).2⟩
  rwa [Finset.card_range] at hLess

theorem isCyclic_iff : g.isCyclic = true ↔ ¬ g.Acyclic := by
  rw [isCyclic, List.any_eq_true]
  constructor
  · rintro ⟨n, hn, hWalks⟩ hAcyclic
    have hLess := hAcyclic.card_ahead_lt_length (g.mem_nodeIndices.1 hn)
    exact absurd (hAcyclic.le_card_ahead hWalks) (Nat.not_le.2 hLess)
  · intro hNot
    rw [Acyclic, not_forall_not] at hNot
    obtain ⟨n, hCycle⟩ := hNot
    obtain ⟨c, hArc, -⟩ := Relation.TransGen.head'_iff.1 hCycle
    exact ⟨n, g.mem_nodeIndices.2 hArc.source_lt, walks_of_cycle hCycle⟩

end Walks

variable {g}

theorem Acyclic.spending_succ (h : g.Acyclic) {bound n : Nat} (hBound : (g.ahead n).card ≤ bound) :
    g.spending node edge (bound + 1) n = g.spending node edge (bound + 2) n := by
  induction bound generalizing n with
  | zero =>
      have hNone : g.successors n = [] := by
        rw [List.eq_nil_iff_forall_not_mem]
        intro c hc
        have hLess := h.card_ahead_lt (g.mem_successors.1 hc)
        omega
      simp only [spending, hNone, List.map_nil]
  | succ bound ih =>
      rw [spending, spending]
      congr 2
      apply List.map_congr_left
      intro c hc
      have hLess := h.card_ahead_lt (g.mem_successors.1 hc)
      rw [ih (by omega)]

theorem Acyclic.workload_eq (h : g.Acyclic) (n : Nat) :
    g.workload node edge n = node + g.passedOn node edge n := by
  rw [workload, h.spending_succ node edge (card_ahead_le n)]
  rfl

variable {node edge}

theorem Acyclic.passedOn_le_of_arc (h : g.Acyclic) {a b : Nat} (hArc : g.Arc a b) :
    g.passedOn node edge b ≤ g.passedOn node edge a := by
  have hTerm : edge + g.workload node edge b ≤ g.passedOn node edge a :=
    List.le_sum_of_mem (List.mem_map_of_mem (g.mem_successors.2 hArc))
  rw [h.workload_eq] at hTerm
  omega

theorem Acyclic.passedOn_le (h : g.Acyclic) {a b : Nat} (hPath : Relation.TransGen g.Arc a b) :
    g.passedOn node edge b ≤ g.passedOn node edge a := by
  induction hPath with
  | single hArc => exact h.passedOn_le_of_arc hArc
  | tail _ hArc ih => exact (h.passedOn_le_of_arc hArc).trans ih

end Multigraph

end TalosWorkflow
