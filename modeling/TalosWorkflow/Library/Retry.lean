import Mathlib.Logic.Relation

/-!
# Bounded retries

A loop that repeats an attempt until it is done or its retries are used up.
-/

namespace TalosWorkflow

universe u v w

/-- How an attempt ends. A retry says what to answer when none is left. -/
inductive Attempt (σ : Type u) (ε : Type v) (α : Type w) where
  | done (answer : Except ε α) (s : σ)
  | retry (giveUp : ε) (s : σ)

section Retries

variable {σ : Type u} {ε : Type v} {α : Type w} (attempt : Nat → σ → Attempt σ ε α)

def retrying : Nat → Nat → σ → Except ε α × σ
  | left, k, s =>
      match attempt k s with
      | .done answer s => (answer, s)
      | .retry giveUp s =>
          match left with
          | 0 => (.error giveUp, s)
          | left + 1 => retrying left (k + 1) s

/-- The attempts that the loop gets to, with the state each is made in. -/
inductive Tries (retries : Nat) (start : σ) : Nat → σ → Prop where
  | first : Tries retries start 0 start
  | again {k : Nat} {s t : σ} {giveUp : ε} (hEarlier : Tries retries start k s)
      (hLeft : k < retries) (hRetry : attempt k s = .retry giveUp t) : Tries retries start (k + 1) t

variable {attempt} {retries : Nat} {start s : σ} {k : Nat} {a : α}

theorem Tries.le (h : Tries attempt retries start k s) : k ≤ retries := by
  cases h with
  | first => exact Nat.zero_le retries
  | again hEarlier hLeft hRetry => exact hLeft

/-- The loop gets to an attempt ahead of which every attempt asks for a retry. -/
theorem exists_tries (p : σ → Prop) (hStart : p start)
    (hRetry : ∀ j < k, ∀ s, p s → ∃ giveUp t, attempt j s = .retry giveUp t ∧ p t)
    (hRetries : k ≤ retries) : ∃ s, Tries attempt retries start k s ∧ p s := by
  induction k with
  | zero => exact ⟨start, .first, hStart⟩
  | succ k ih =>
      obtain ⟨s, hEarlier, hState⟩ := ih (fun j hj => hRetry j (by omega)) (by omega)
      obtain ⟨giveUp, t, hAgain, hNext⟩ := hRetry k (by omega) s hState
      exact ⟨t, hEarlier.again hRetries hAgain, hNext⟩

theorem retrying_of_tries (h : Tries attempt retries start k s) :
    retrying attempt retries 0 start = retrying attempt (retries - k) k s := by
  induction h with
  | first => rfl
  | @again k s t giveUp hEarlier hLeft hRetry ih =>
      rw [ih]
      obtain ⟨left, hSucc⟩ := Nat.exists_eq_succ_of_ne_zero (Nat.sub_ne_zero_of_lt hLeft)
      have hRest : retries - (k + 1) = left := by omega
      rw [hSucc, hRest, retrying, hRetry]

theorem tries_of_retrying {left : Nat} (hTries : Tries attempt retries start k s)
    (hLeft : left + k = retries) (h : (retrying attempt left k s).1 = .ok a) :
    ∃ j t u, Tries attempt retries start j t ∧ attempt j t = .done (.ok a) u := by
  induction left generalizing k s with
  | zero =>
      rw [retrying] at h
      cases hAttempt : attempt k s with
      | done answer t =>
          rw [hAttempt] at h
          exact ⟨k, s, t, hTries, hAttempt.trans (congrArg (Attempt.done · t) h)⟩
      | retry giveUp t =>
          rw [hAttempt] at h
          cases h
  | succ left ih =>
      rw [retrying] at h
      cases hAttempt : attempt k s with
      | done answer t =>
          rw [hAttempt] at h
          exact ⟨k, s, t, hTries, hAttempt.trans (congrArg (Attempt.done · t) h)⟩
      | retry giveUp t =>
          rw [hAttempt] at h
          exact ih (hTries.again (by omega) hAttempt) (by omega) h

/-- The loop answers what some attempt it gets to answers. -/
theorem retrying_ok_iff :
    (retrying attempt retries 0 start).1 = .ok a ↔
      ∃ k s t, Tries attempt retries start k s ∧ attempt k s = .done (.ok a) t := by
  constructor
  · intro h
    exact tries_of_retrying .first (Nat.add_zero retries) h
  · rintro ⟨k, s, t, hTries, hAttempt⟩
    rw [retrying_of_tries hTries, retrying, hAttempt]

end Retries

section Simulation

variable {σ : Type u} {τ : Type u} {ε : Type v} {α : Type w} {β : Type w}

namespace Attempt

def mapState (f : σ → τ) : Attempt σ ε α → Attempt τ ε α
  | .done answer s => .done answer (f s)
  | .retry giveUp s => .retry giveUp (f s)

def mapAnswer (g : α → β) : Attempt σ ε α → Attempt σ ε β
  | .done answer s => .done (answer.map g) s
  | .retry giveUp s => .retry giveUp s

theorem mapAnswer_id (a : Attempt σ ε α) : a.mapAnswer id = a := by
  cases a with
  | done answer s => cases answer <;> rfl
  | retry giveUp s => rfl

theorem cases_of_map {f : σ → τ} {g : β → α} {a : Attempt σ ε α} {a' : Attempt τ ε β}
    (h : a'.mapAnswer g = a.mapState f) :
    (∃ answer s, a = .done (answer.map g) s ∧ a' = .done answer (f s)) ∨
      ∃ giveUp s, a = .retry giveUp s ∧ a' = .retry giveUp (f s) := by
  cases a' with
  | done answer t =>
      cases a with
      | done answer' s =>
          cases h
          exact .inl ⟨answer, s, rfl, rfl⟩
      | retry giveUp s => cases h
  | retry giveUp t =>
      cases a with
      | done answer s => cases h
      | retry giveUp' s =>
          cases h
          exact .inr ⟨giveUp, s, rfl, rfl⟩

end Attempt

variable {f : σ → τ} {g : β → α} {attempt : Nat → σ → Attempt σ ε α}
  {attempt' : Nat → τ → Attempt τ ε β} {p : σ → Prop}

/-- Two loops whose attempts agree on the states that the one keeps to give one answer. -/
theorem retrying_map
    (hSame : ∀ k s, p s → (attempt' k (f s)).mapAnswer g = (attempt k s).mapState f)
    (hKeeps : ∀ k s giveUp t, p s → attempt k s = .retry giveUp t → p t)
    (left k : Nat) (s : σ) (hState : p s) :
    Prod.map (Except.map g) id (retrying attempt' left k (f s)) =
      Prod.map id f (retrying attempt left k s) := by
  induction left generalizing k s with
  | zero =>
      obtain ⟨answer, t, hDone, hDone'⟩ | ⟨giveUp, t, hRetry, hRetry'⟩ :=
        Attempt.cases_of_map (hSame k s hState)
      · rw [retrying, retrying, hDone, hDone']
        rfl
      · rw [retrying, retrying, hRetry, hRetry']
        rfl
  | succ left ih =>
      obtain ⟨answer, t, hDone, hDone'⟩ | ⟨giveUp, t, hRetry, hRetry'⟩ :=
        Attempt.cases_of_map (hSame k s hState)
      · rw [retrying, retrying, hDone, hDone']
        rfl
      · rw [retrying, retrying, hRetry, hRetry']
        exact ih (k + 1) t (hKeeps k s giveUp t hState hRetry)

end Simulation

end TalosWorkflow
