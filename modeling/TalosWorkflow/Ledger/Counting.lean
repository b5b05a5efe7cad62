import TalosWorkflow.Runs.Moves

/-!
# Counting edges

The edges into a node whose sources are unresolved.
-/

namespace TalosWorkflow

open Multigraph

section Counts

/-- Items that leave the count and items that are counted once more do not overlap. -/
theorem countP_add_count_le {α : Type} [DecidableEq α] {p q : α → Bool} {a : α} {l : List α}
    (hSub : ∀ x, p x = true → q x = true) (ha : q a = true) (hpa : p a = false) :
    l.countP p + l.count a ≤ l.countP q := by
  induction l with
  | nil => simp
  | cons x l ih =>
      have hx := hSub x
      rw [List.countP_cons, List.countP_cons, List.count_cons]
      by_cases hxa : x = a
      · subst hxa
        simp only [ha, hpa, beq_self_eq_true, if_true, Bool.false_eq_true, if_false]
        omega
      · simp only [beq_eq_false_iff_ne.2 hxa, Bool.false_eq_true, if_false]
        split
        · rename_i hp
          rw [if_pos (hx hp)]
          omega
        · omega

theorem countP_le_add_count {α : Type} [DecidableEq α] {p q : α → Bool} {a : α} {l : List α}
    (h : ∀ x ∈ l, p x = true → q x = true ∨ x = a) : l.countP p ≤ l.countP q + l.count a := by
  induction l with
  | nil => simp
  | cons x l ih =>
      have hTail := ih fun y hy => h y (List.mem_cons_of_mem x hy)
      have hHead := h x List.mem_cons_self
      rw [List.countP_cons, List.countP_cons, List.count_cons]
      cases hp : p x with
      | false =>
          simp only [Bool.false_eq_true, if_false]
          omega
      | true =>
          rcases hHead hp with hq | rfl
          · simp only [hq, if_true]
            omega
          · simp only [if_true, beq_self_eq_true]
            omega

variable {H : Host} (R : Reactor H)

def openEdges (resolved : List NodeIndex) (n : NodeIndex) : Nat :=
  (R.graph.predecessors n).countP fun p => p ∉ resolved

theorem openEdges_add_count {resolved resolved' : List NodeIndex} {a : NodeIndex}
    (hSub : resolved ⊆ resolved') (ha' : a ∈ resolved') (ha : a ∉ resolved) (n : NodeIndex) :
    openEdges R resolved' n + (R.graph.successors a).count n ≤ openEdges R resolved n := by
  rw [count_successors_eq_count_predecessors]
  refine countP_add_count_le (fun x hx => ?_) (by simpa using ha) (by simpa using ha')
  simp only [decide_eq_true_eq] at hx ⊢
  exact fun hResolved => hx (hSub hResolved)

theorem openEdges_nil (n : NodeIndex) : openEdges R [] n = R.graph.inDegree n := by
  simp [openEdges, inDegree]

variable {R}

theorem openEdges_eq_zero {resolved : List NodeIndex} {n : NodeIndex} :
    openEdges R resolved n = 0 ↔ ∀ p, R.graph.Arc p n → p ∈ resolved := by
  simp only [openEdges, List.countP_eq_zero, decide_eq_true_eq, not_not]
  exact forall_congr' fun p => by rw [mem_predecessors]

/-- One more resolved source takes its own edges away, and no others. -/
theorem openEdges_le_add_count {resolved resolved' : List NodeIndex} {a n : NodeIndex}
    (h : ∀ p, R.graph.Arc p n → p ∈ resolved' → p ∈ resolved ∨ p = a) :
    openEdges R resolved n ≤ openEdges R resolved' n + (R.graph.successors a).count n := by
  rw [count_successors_eq_count_predecessors]
  refine countP_le_add_count fun p hp hOpen => ?_
  simp only [decide_eq_true_eq] at hOpen ⊢
  by_cases hResolved : p ∈ resolved'
  · exact .inr ((h p ((mem_predecessors _).1 hp) hResolved).resolve_left hOpen)
  · exact .inl hResolved

end Counts

section Resolved

variable {H : Host} {R : Reactor H} {start : NodeIndex} {concluded cascaded : List NodeIndex}

/-- Popped nodes that are complete, and nodes skipped by an edge condition. -/
def resolvedNodes (R : Reactor H) (concluded cascaded : List NodeIndex) : List NodeIndex :=
  cascaded ++ concluded.flatMap R.members

theorem resolved_cons_subset :
    resolvedNodes R concluded cascaded ⊆ resolvedNodes R (start :: concluded) cascaded := by
  intro n hn
  simp only [resolvedNodes, List.flatMap_cons, List.mem_append] at hn ⊢
  exact hn.imp_right .inr

theorem members_resolved {n : NodeIndex} (hn : n ∈ R.members start) :
    n ∈ resolvedNodes R (start :: concluded) cascaded := by
  simp only [resolvedNodes, List.flatMap_cons, List.mem_append]
  exact .inr (.inl hn)

/-- Of the nodes that are complete now, only the last one leads out of its chain. -/
theorem openEdges_conclude (hChains : R.ChainsDetected) {idx n : NodeIndex}
    (hTail : R.IsTail start idx) (hFollower : ¬ R.IsFollower n)
    (concluded cascaded : List NodeIndex) :
    openEdges R (resolvedNodes R concluded cascaded) n ≤
      openEdges R (resolvedNodes R (start :: concluded) cascaded) n +
        (R.graph.successors idx).count n := by
  refine openEdges_le_add_count fun p hArc hp => ?_
  simp only [resolvedNodes, List.flatMap_cons, List.mem_append] at hp ⊢
  obtain hp | hp | hp := hp
  · exact .inl (.inl hp)
  · obtain rfl | hInner := hTail.eq_or_isInner hp
    · exact .inr rfl
    · exact absurd (isFollower_of_arc hChains hInner hArc) hFollower
  · exact .inl (.inr hp)

end Resolved

section Conclusions

variable {H : Host} {R : Reactor H} {s base : State} {action : Action} {start idx n : NodeIndex}
  {events : List Event} {mode : Completion} {value : Json}

theorem Concluding.mem_enqueued (h : Concluding R s action start idx base events mode value) :
    .enqueued n ∈ (R.conclude base idx mode value).history ↔ .enqueued n ∈ s.history := by
  rw [Reactor.conclude_history, List.mem_cons, h.shifted.mem_enqueued]
  simp

theorem conclude_targets : (R.conclude base idx mode value).visits.map (·.target) =
    R.graph.successors idx := by
  simp [Function.comp_def]

theorem mem_members_of_chainOf (hChains : R.ChainsDetected) (hTail : R.IsTail start idx)
    (hn : n ∈ (R.chainOf idx).getD []) : n ∈ R.members start := by
  rw [chainOf_members hChains hTail.mem_members] at hn
  rw [Reactor.members]
  cases hChain : R.chainOf start with
  | none =>
      rw [hChain] at hn
      cases hn
  | some members =>
      rw [hChain] at hn
      exact hn

end Conclusions

end TalosWorkflow
