import Mathlib.Algebra.Group.Nat.Defs
import TalosWorkflow.Library.Retry

/-!
# Retries counted by a machine word

A loop of attempts whose counter has 32 bits and which pauses before it tries
again. Counting and pausing may both panic, and an unchecked counter wraps around.
-/

namespace TalosWorkflow

universe u v w

/-- `count + 1` on 32 bits; `none` where a checked build panics. -/
def increment (overflowChecks : Bool) (count : UInt32) : Option UInt32 :=
  if count.toNat + 1 < 2 ^ 32 then some (count + 1)
  else if overflowChecks then none else some (count + 1)

theorem increment_of_lt (overflowChecks : Bool) (count : UInt32) (h : count.toNat + 1 < 2 ^ 32) :
    increment overflowChecks count = some (count + 1) ∧ (count + 1).toNat = count.toNat + 1 := by
  refine ⟨if_pos h, ?_⟩
  rw [UInt32.toNat_add, UInt32.toNat_one, Nat.mod_eq_of_lt h]

theorem increment_cases {overflowChecks : Bool} {count next : UInt32}
    (h : increment overflowChecks count = some next) :
    next.toNat = count.toNat + 1 ∨ overflowChecks = false ∧ count.toNat = 2 ^ 32 - 1 := by
  have hLt := count.toNat_lt
  by_cases hNext : count.toNat + 1 < 2 ^ 32
  · obtain ⟨hSome, hValue⟩ := increment_of_lt overflowChecks count hNext
    rw [hSome] at h
    cases h
    exact .inl hValue
  · rw [increment, if_neg hNext] at h
    cases overflowChecks with
    | true => cases h
    | false => exact .inr ⟨rfl, by omega⟩

/-- How one turn of a counted loop ends. -/
inductive CountedTurn (σ : Type u) (ε : Type v) (α : Type w) where
  | ended (answer : Except ε α) (s : σ)
  | panicked
  | again (count : UInt32) (s : σ)

section Turns

variable {σ : Type u} {ε : Type v} {α : Type w} (attempt : Nat → σ → Attempt σ ε α)
  (pause : Nat → UInt32 → σ → Option UInt64) (overflowChecks : Bool) (maxRetries : UInt32)

/-- An attempt that asks for a retry is counted, compared with the limit, and paused after. -/
def countedTurn (n : Nat) (count : UInt32) (s : σ) : CountedTurn σ ε α :=
  match attempt n s with
  | .done answer t => .ended answer t
  | .retry giveUp t =>
      match increment overflowChecks count with
      | none => .panicked
      | some count =>
          if maxRetries < count then .ended (.error giveUp) t
          else
            match pause n count s with
            | none => .panicked
            | some _ => .again count t

/-- Attempt `n` is made, with the counter and the state it is made in. -/
inductive Made (start : σ) : Nat → UInt32 → σ → Prop
  | first : Made start 0 0 start
  | again {n : Nat} {count next : UInt32} {s t : σ} (hEarlier : Made start n count s)
      (hTurn : countedTurn attempt pause overflowChecks maxRetries n count s = .again next t) :
      Made start (n + 1) next t

variable {attempt pause overflowChecks maxRetries} {start s s' t : σ} {n : Nat}
  {count next : UInt32}

/-- The loop goes on after an attempt that asks for it, within the limit and without a panic. -/
theorem countedTurn_again_iff :
    countedTurn attempt pause overflowChecks maxRetries n count s = .again next t ↔
      (∃ giveUp, attempt n s = .retry giveUp t) ∧ increment overflowChecks count = some next ∧
        next ≤ maxRetries ∧ (pause n next s).isSome = true := by
  unfold countedTurn
  cases hAttempt : attempt n s with
  | done answer u => simp
  | retry giveUp u =>
      cases hCount : increment overflowChecks count with
      | none => simp
      | some c =>
          by_cases hLimit : maxRetries < c
          · have hNot : ¬ c ≤ maxRetries := UInt32.not_le.2 hLimit
            simp only [if_pos hLimit, reduceCtorEq, Attempt.retry.injEq, Option.some.injEq,
              false_iff]
            rintro ⟨-, rfl, hLe, -⟩
            exact hNot hLe
          · have hLe : c ≤ maxRetries := UInt32.not_lt.1 hLimit
            simp only [if_neg hLimit]
            cases hPause : pause n c s with
            | none =>
                simp only [reduceCtorEq, Attempt.retry.injEq, Option.some.injEq, false_iff]
                rintro ⟨-, rfl, -, hSome⟩
                rw [hPause] at hSome
                cases hSome
            | some ms =>
                simp only [CountedTurn.again.injEq, Attempt.retry.injEq, Option.some.injEq]
                constructor
                · rintro ⟨rfl, rfl⟩
                  exact ⟨⟨giveUp, rfl, rfl⟩, rfl, hLe, by rw [hPause]; rfl⟩
                · rintro ⟨⟨_, _, rfl⟩, rfl, -⟩
                  exact ⟨rfl, rfl⟩

theorem Made.unique {count' : UInt32}
    (h : Made attempt pause overflowChecks maxRetries start n count s)
    (h' : Made attempt pause overflowChecks maxRetries start n count' s') :
    count = count' ∧ s = s' := by
  induction h generalizing count' s' with
  | first =>
      cases h'
      exact ⟨rfl, rfl⟩
  | again hEarlier hTurn ih =>
      cases h' with
      | again hEarlier' hTurn' =>
          obtain ⟨rfl, rfl⟩ := ih hEarlier'
          rw [hTurn] at hTurn'
          cases hTurn'
          exact ⟨rfl, rfl⟩

/-- Attempts are made one after the other. -/
theorem Made.earlier (h : Made attempt pause overflowChecks maxRetries start n count s) :
    ∀ m < n, ∃ c u d t, Made attempt pause overflowChecks maxRetries start m c u ∧
      countedTurn attempt pause overflowChecks maxRetries m c u = .again d t := by
  induction h with
  | first =>
      intro m hm
      omega
  | @again n count next s t hEarlier hTurn ih =>
      intro m hm
      obtain hm | rfl := Nat.lt_succ_iff_lt_or_eq.1 hm
      · exact ih m hm
      · exact ⟨count, s, next, t, hEarlier, hTurn⟩

/-- The counter holds the number of the attempt until it wraps around. -/
theorem Made.toNat_count (h : Made attempt pause overflowChecks maxRetries start n count s)
    (hn : n < 2 ^ 32) : count.toNat = n := by
  induction h with
  | first => rfl
  | again hEarlier hTurn ih =>
      obtain ⟨-, hCount, -⟩ := countedTurn_again_iff.1 hTurn
      obtain hNext | ⟨-, hLast⟩ := increment_cases hCount
      · rw [hNext, ih (by omega)]
      · rw [ih (by omega)] at hLast
        omega

/-- A checked counter, or a limit below the largest number, bounds the attempts. -/
theorem Made.le_maxRetries (h : Made attempt pause overflowChecks maxRetries start n count s)
    (hCounter : overflowChecks = true ∨ maxRetries.toNat < 2 ^ 32 - 1) : n ≤ maxRetries.toNat := by
  induction h with
  | first => exact Nat.zero_le _
  | @again n count next s t hEarlier hTurn ih =>
      have hMax := maxRetries.toNat_lt
      have hCount := hEarlier.toNat_count (by omega)
      obtain ⟨-, hNext, hLimit, -⟩ := countedTurn_again_iff.1 hTurn
      rw [UInt32.le_iff_toNat_le] at hLimit
      obtain hValue | ⟨hUnchecked, hLast⟩ := increment_cases hNext
      · omega
      · obtain hChecked | hSmall := hCounter
        · rw [hChecked] at hUnchecked
          cases hUnchecked
        · omega

/-- Some attempt within the limit is the last one. -/
def EndsInTime (attempt : Nat → σ → Attempt σ ε α) (pause : Nat → UInt32 → σ → Option UInt64)
    (overflowChecks : Bool) (maxRetries : UInt32) (start : σ) : Prop :=
  ∃ n count s, Made attempt pause overflowChecks maxRetries start n count s ∧
    n ≤ maxRetries.toNat ∧
      ∀ next t, countedTurn attempt pause overflowChecks maxRetries n count s ≠ .again next t

/-- The number of attempts exceeds the limit by one at most, unless an unchecked counter wraps
around at the largest limit and every attempt up to then asks for a retry. -/
theorem attempts_bounded_iff :
    (∀ n count s, Made attempt pause overflowChecks maxRetries start n count s →
      n ≤ maxRetries.toNat) ↔
      overflowChecks = true ∨ maxRetries.toNat < 2 ^ 32 - 1 ∨
        EndsInTime attempt pause overflowChecks maxRetries start := by
  constructor
  · intro hBounded
    refine .inr (.inr (Classical.byContradiction fun hNever => ?_))
    have hAll : ∀ n ≤ maxRetries.toNat + 1, ∃ count s,
        Made attempt pause overflowChecks maxRetries start n count s := by
      intro n hn
      induction n with
      | zero => exact ⟨0, start, .first⟩
      | succ n ih =>
          obtain ⟨count, s, hMade⟩ := ih (by omega)
          refine Classical.byContradiction fun hNone => hNever ?_
          refine ⟨n, count, s, hMade, by omega, fun next t hTurn => hNone ?_⟩
          exact ⟨next, t, .again hMade hTurn⟩
    obtain ⟨count, s, hMade⟩ := hAll (maxRetries.toNat + 1) (Nat.le_refl _)
    have hLe := hBounded _ count s hMade
    omega
  · rintro (hChecked | hSmall | ⟨m, c, u, hLast, hLe, hEnds⟩) n count s hMade
    · exact hMade.le_maxRetries (.inl hChecked)
    · exact hMade.le_maxRetries (.inr hSmall)
    · refine Nat.le_of_not_lt fun hMore => ?_
      obtain ⟨c', u', d, t, hMade', hTurn⟩ := hMade.earlier m (by omega)
      obtain ⟨rfl, rfl⟩ := hLast.unique hMade'
      exact hEnds d t hTurn

/-- With a counter that cannot wrap around, the attempts are among those of an uncounted loop. -/
theorem Made.tries (h : Made attempt pause overflowChecks maxRetries start n count s)
    (hCounter : overflowChecks = true ∨ maxRetries.toNat < 2 ^ 32 - 1) :
    Tries attempt maxRetries.toNat start n s := by
  induction h with
  | first => exact .first
  | again hEarlier hTurn ih =>
      have hLe := (hEarlier.again hTurn).le_maxRetries hCounter
      obtain ⟨⟨giveUp, hRetry⟩, -⟩ := countedTurn_again_iff.1 hTurn
      exact .again ih (by omega) hRetry

end Turns

end TalosWorkflow
