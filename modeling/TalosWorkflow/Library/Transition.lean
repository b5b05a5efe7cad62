import Mathlib.Logic.Relation

/-!
# Runs

A run whose steps are all allowed keeps an invariant. A list of actions can be
replayed.
-/

namespace TalosWorkflow

universe u v

section Runs

variable {σ : Type u} {α : Type v}

/-- Finitely many steps, each of them allowed in the state it is taken in. -/
abbrev Run (step : σ → α → Option σ) (allowed : σ → α → Prop) : σ → σ → Prop :=
  Relation.ReflTransGen fun s t => ∃ a, allowed s a ∧ step s a = some t

variable {step : σ → α → Option σ} {allowed allowed' : σ → α → Prop} {s t : σ}

theorem Run.invariant (I : σ → Prop)
    (hStep : ∀ s a t, allowed s a → I s → step s a = some t → I t)
    (hRun : Run step allowed s t) (h : I s) : I t := by
  induction hRun with
  | refl => exact h
  | tail _ hLast ih =>
      obtain ⟨a, hAllowed, hStepEq⟩ := hLast
      exact hStep _ a _ hAllowed ih hStepEq

theorem Run.mono (h : ∀ s a, allowed s a → allowed' s a) (hRun : Run step allowed s t) :
    Run step allowed' s t := by
  induction hRun with
  | refl => exact .refl
  | tail _ hLast ih =>
      obtain ⟨a, hAllowed, hStep⟩ := hLast
      exact ih.tail ⟨a, h _ a hAllowed, hStep⟩

theorem Run.trans {u : σ} (hFirst : Run step allowed s t) (hSecond : Run step allowed t u) :
    Run step allowed s u :=
  Relation.ReflTransGen.trans hFirst hSecond

variable (step allowed) in
/-- The state after the actions, provided that each of them is allowed and possible. -/
def replay [∀ s a, Decidable (allowed s a)] : List α → σ → Option σ
  | [], s => some s
  | a :: rest, s => if allowed s a then (step s a).bind (replay rest) else none

theorem replay_snoc [∀ s a, Decidable (allowed s a)] {first : List α} {a : α}
    (h : replay step allowed first s = some t) (hAllowed : allowed t a) :
    replay step allowed (first ++ [a]) s = step t a := by
  induction first generalizing s with
  | nil =>
      cases h
      rw [List.nil_append, replay, if_pos hAllowed]
      exact Option.bind_fun_some (step t a)
  | cons b first ih =>
      rw [replay] at h
      rw [List.cons_append, replay]
      split at h
      · rename_i hFirst
        rw [Option.bind_eq_some_iff] at h
        obtain ⟨mid, hMid, hRest⟩ := h
        rw [if_pos hFirst, hMid]
        exact ih hRest
      · cases h

theorem replay_run [∀ s a, Decidable (allowed s a)] {actions : List α}
    (h : replay step allowed actions s = some t) : Run step allowed s t := by
  induction actions generalizing s with
  | nil =>
      cases h
      exact .refl
  | cons a rest ih =>
      rw [replay] at h
      split at h
      · rename_i hAllowed
        rw [Option.bind_eq_some_iff] at h
        obtain ⟨mid, hStep, hRest⟩ := h
        exact .head ⟨a, hAllowed, hStep⟩ (ih hRest)
      · cases h

variable {τ : Type*} {β : Type*} {step' : τ → β → Option τ} {allowed'' : τ → β → Prop}

/-- What one system can do, another can do that follows it step by step. -/
theorem replay_map [∀ s a, Decidable (allowed s a)] [∀ s a, Decidable (allowed'' s a)]
    {f : σ → τ} {g : α → β} (hAllowed : ∀ s a, allowed s a → allowed'' (f s) (g a))
    (hStep : ∀ s a t, step s a = some t → step' (f s) (g a) = some (f t)) {actions : List α}
    (h : replay step allowed actions s = some t) :
    replay step' allowed'' (actions.map g) (f s) = some (f t) := by
  induction actions generalizing s with
  | nil =>
      cases h
      rfl
  | cons a rest ih =>
      rw [replay] at h
      split at h
      · rename_i hFirst
        rw [Option.bind_eq_some_iff] at h
        obtain ⟨mid, hMid, hRest⟩ := h
        rw [List.map_cons, replay, if_pos (hAllowed s a hFirst), hStep s a mid hMid]
        exact ih hRest
      · cases h

end Runs

end TalosWorkflow
