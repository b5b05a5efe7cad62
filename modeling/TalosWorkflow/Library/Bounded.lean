import Mathlib.Tactic.Common

/-!
# Bounded loops

A loop that turns a state over until a test fails, a turn stops it or its turns
are used up. The test is not made before the first turn.
-/

namespace TalosWorkflow

universe u v

/-- What a turn of a loop makes of its state. -/
inductive Turn (σ : Type u) (ρ : Type v) where
  | next (s : σ)
  | stop (reason : ρ)

inductive Ending (σ : Type u) (ρ : Type v) where
  | refused (s : σ)
  | exhausted (s : σ)
  | stopped (reason : ρ)

section Loops

variable {σ : Type u} {ρ : Type v} (turn : Nat → σ → Turn σ ρ) (test : Nat → σ → Bool)

/-- The loop at its head after `n` turns, with the number of turns that it has made in the end. -/
def boundedLoop : Nat → Nat → σ → Nat × Ending σ ρ
  | 0, n, s => (n, .exhausted s)
  | remaining + 1, n, s =>
      if 0 < n ∧ test n s = false then (n, .refused s)
      else
        match turn (n + 1) s with
        | .next t => boundedLoop remaining (n + 1) t
        | .stop reason => (n + 1, .stopped reason)

/-- The states that the loop has at its head, after each number of turns. -/
inductive AtHead (limit : Nat) (start : σ) : Nat → σ → Prop where
  | start : AtHead limit start 0 start
  | turned {n : Nat} {s t : σ} (hEarlier : AtHead limit start n s) (hLimit : n < limit)
      (hTest : 0 < n → test n s = true) (hTurn : turn (n + 1) s = .next t) :
      AtHead limit start (n + 1) t

/-- Turn `n + 1` is made on this state. -/
structure IsTurned (limit : Nat) (start : σ) (n : Nat) (s : σ) : Prop where
  atHead : AtHead turn test limit start n s
  lt : n < limit
  test : 0 < n → test n s = true

/-- The test is made on this state, after `n` turns. -/
structure IsTested (limit : Nat) (start : σ) (n : Nat) (s : σ) : Prop where
  atHead : AtHead turn test limit start n s
  pos : 0 < n
  lt : n < limit

variable {turn test} {limit n : Nat} {start s : σ}

section Counting

variable {b remaining : Nat} (hPos : 0 < b) (hLe : b ≤ limit)
  (hTest : ∀ n s, IsTested turn test limit start n s → test n s = decide (n < b))
  (hTurn : ∀ n s, IsTurned turn test limit start n s → ∃ t, turn (n + 1) s = .next t)

include hPos hLe hTest hTurn

/-- From its head after at most `b` turns, the loop makes `b` turns in all. -/
theorem AtHead.count (h : AtHead turn test limit start n s) (hSum : n + remaining = limit)
    (hCount : n ≤ b) : (boundedLoop turn test remaining n s).1 = b := by
  induction remaining generalizing n s with
  | zero =>
      rw [boundedLoop]
      omega
  | succ remaining ih =>
      have hLt : n < limit := by omega
      have hAnswer : 0 < n → test n s = decide (n < b) := fun hMade =>
        hTest n s ⟨h, hMade, hLt⟩
      rw [boundedLoop]
      split
      · rename_i hRefused
        obtain ⟨hMade, hFalse⟩ := hRefused
        rw [hAnswer hMade, decide_eq_false_iff_not] at hFalse
        exact Nat.le_antisymm hCount (Nat.le_of_not_lt hFalse)
      · rename_i hGoesOn
        have hPassed : 0 < n → test n s = true := by
          intro hMade
          rw [← Bool.not_eq_false]
          exact fun hFalse => hGoesOn ⟨hMade, hFalse⟩
        have hMore : n < b := by
          obtain rfl | hMade := Nat.eq_zero_or_pos n
          · exact hPos
          · have hTrue := hPassed hMade
            rw [hAnswer hMade] at hTrue
            exact of_decide_eq_true hTrue
        obtain ⟨t, hNext⟩ := hTurn n s ⟨h, hLt, hPassed⟩
        rw [hNext]
        exact ih (h.turned hLt hPassed hNext) (by omega) hMore

/-- With a test for fewer than `b` turns and turns that do not stop, the loop makes `b` turns. -/
theorem boundedLoop_count : (boundedLoop turn test limit 0 start).1 = b :=
  AtHead.start.count hPos hLe hTest hTurn (Nat.zero_add limit) (Nat.zero_le b)

end Counting

end Loops

end TalosWorkflow
