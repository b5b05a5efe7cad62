import TalosWorkflow.Library.Counted
import TalosWorkflow.Replay.NonceCache

/-!
# Delays between attempts

The pause before a retry doubles with each attempt and has a jitter added. A
build may check its integer arithmetic or let it wrap around.
-/

namespace TalosWorkflow

section Arithmetic

/-- `a + b` on 64 bits; `none` where a checked build panics. -/
def addU64 (overflowChecks : Bool) (a b : UInt64) : Option UInt64 :=
  if a.toNat + b.toNat ≤ usizeMax then some (a + b)
  else if overflowChecks then none else some (a + b)

/-- `count - 1` on 32 bits. -/
def predecessor (overflowChecks : Bool) (count : UInt32) : Option UInt32 :=
  if 0 < count then some (count - 1)
  else if overflowChecks then none else some (count - 1)

/-- `2u64.pow(exponent)`. -/
def twoPow (overflowChecks : Bool) (exponent : UInt32) : Option UInt64 :=
  if exponent.toNat < 64 then some (UInt64.ofNat (2 ^ exponent.toNat))
  else if overflowChecks then none else some 0

end Arithmetic

section Delays

/-- The nanoseconds within the current second. -/
abbrev SubsecNanos := Fin 1000000000

variable (overflowChecks : Bool) (baseBackoffMs : UInt64) (attempts : UInt32)

def backoff : Option UInt64 := do
  let exponent ← predecessor overflowChecks attempts
  let factor ← twoPow overflowChecks exponent
  return saturatingMul baseBackoffMs factor

def jitterOf (backoff : UInt64) (nanos : SubsecNanos) : UInt64 :=
  UInt64.ofNat nanos.val % max (backoff / 4) 1

def backoffDelay (nanos : SubsecNanos) : Option UInt64 := do
  let backoff ← backoff overflowChecks baseBackoffMs attempts
  addU64 overflowChecks backoff (jitterOf backoff nanos)

/-- `dispatch_with_retry`, after a delivery error. -/
def chainRetryDelay (nanos : SubsecNanos) : Option UInt64 :=
  backoffDelay overflowChecks baseBackoffMs attempts nanos

/-- `execute_job_with_retry`, after a delivery error. -/
def deliveryRetryDelay (nanos : SubsecNanos) : Option UInt64 :=
  backoffDelay overflowChecks baseBackoffMs attempts nanos

/-- `execute_job_with_retry`, after a failed job: a positive answer of the delay expression counts,
up to a minute. -/
def failureRetryDelay (evalI64 : String → Json → Option Int64) (retryDelayExpr : Option String)
    (payload : Json) (nanos : SubsecNanos) : Option UInt64 :=
  match retryDelayExpr with
  | some expr =>
      match evalI64 expr payload with
      | some ms =>
          if 0 < ms then some (min ms.toUInt64 60000)
          else backoffDelay overflowChecks baseBackoffMs attempts nanos
      | none => backoffDelay overflowChecks baseBackoffMs attempts nanos
  | none => backoffDelay overflowChecks baseBackoffMs attempts nanos

end Delays

section Values

variable {overflowChecks : Bool} {baseBackoffMs : UInt64} {attempts : UInt32}

/-- Up to the sixty-fourth attempt the factor is the power of two that it should be. -/
theorem backoff_eq (hPos : 0 < attempts.toNat) (hLe : attempts.toNat ≤ 64) :
    backoff overflowChecks baseBackoffMs attempts =
      some (saturatingMul baseBackoffMs (UInt64.ofNat (2 ^ (attempts.toNat - 1)))) := by
  have hOne : (1 : UInt32) ≤ attempts := by
    rw [UInt32.le_iff_toNat_le, UInt32.toNat_one]
    exact hPos
  have hPred : predecessor overflowChecks attempts = some (attempts - 1) :=
    if_pos (UInt32.lt_iff_toNat_lt.2 (by rw [UInt32.toNat_zero]; exact hPos))
  have hExponent : (attempts - 1).toNat = attempts.toNat - 1 := by
    rw [UInt32.toNat_sub_of_le _ _ hOne, UInt32.toNat_one]
  have hPow : twoPow overflowChecks (attempts - 1) =
      some (UInt64.ofNat (2 ^ (attempts.toNat - 1))) := by
    rw [twoPow, hExponent, if_pos (by omega)]
  rw [backoff, hPred, Option.bind_eq_bind, Option.bind_some, hPow]
  rfl

theorem toNat_backoff (overflowChecks : Bool) (baseBackoffMs : UInt64)
    (hPos : 0 < attempts.toNat) (hLe : attempts.toNat ≤ 64) :
    ∃ v, backoff overflowChecks baseBackoffMs attempts = some v ∧
      v.toNat = min (baseBackoffMs.toNat * 2 ^ (attempts.toNat - 1)) usizeMax := by
  have hFactor : (UInt64.ofNat (2 ^ (attempts.toNat - 1))).toNat = 2 ^ (attempts.toNat - 1) := by
    rw [UInt64.toNat_ofNat', Nat.mod_eq_of_lt]
    exact Nat.pow_lt_pow_right (by decide) (by omega)
  refine ⟨_, backoff_eq hPos hLe, ?_⟩
  rw [toNat_saturatingMul, hFactor]

theorem backoff_checked_none (h : 64 < attempts.toNat) :
    backoff true baseBackoffMs attempts = none := by
  have hOne : (1 : UInt32) ≤ attempts := by
    rw [UInt32.le_iff_toNat_le, UInt32.toNat_one]
    omega
  have hPred : predecessor true attempts = some (attempts - 1) :=
    if_pos (UInt32.lt_iff_toNat_lt.2 (by rw [UInt32.toNat_zero]; omega))
  have hPow : twoPow true (attempts - 1) = none := by
    rw [twoPow, UInt32.toNat_sub_of_le _ _ hOne, UInt32.toNat_one, if_neg (by omega), if_pos rfl]
  rw [backoff, hPred, Option.bind_eq_bind, Option.bind_some, hPow]
  rfl

theorem toNat_jitterOf (v : UInt64) (nanos : SubsecNanos) :
    (jitterOf v nanos).toNat = nanos.val % max (v.toNat / 4) 1 := by
  have hNanos : (UInt64.ofNat nanos.val).toNat = nanos.val := by
    rw [UInt64.toNat_ofNat', Nat.mod_eq_of_lt]
    have hLt := nanos.isLt
    omega
  have hMax : (max (v / 4) 1).toNat = max (v.toNat / 4) 1 := by
    change (if v / 4 ≤ 1 then 1 else v / 4).toNat = _
    have hQuarter : (v / 4).toNat = v.toNat / 4 := UInt64.toNat_div v 4
    split
    · rename_i h
      rw [UInt64.le_iff_toNat_le, hQuarter, UInt64.toNat_one] at h
      rw [UInt64.toNat_one, Nat.max_eq_right h]
    · rename_i h
      rw [UInt64.le_iff_toNat_le, hQuarter, UInt64.toNat_one] at h
      rw [hQuarter, Nat.max_eq_left (by omega)]
  rw [jitterOf, UInt64.toNat_mod, hNanos, hMax]

def jitterRoom : Nat := 2 ^ 64 - 1000000000

/-- No reading of the clock makes the sum overflow exactly when the backoff leaves that room. -/
theorem jitter_fits_iff (v : UInt64) :
    (∀ nanos, (addU64 true v (jitterOf v nanos)).isSome = true) ↔ v.toNat ≤ jitterRoom := by
  have hSome : ∀ nanos, (addU64 true v (jitterOf v nanos)).isSome = true ↔
      v.toNat + nanos.val % max (v.toNat / 4) 1 ≤ usizeMax := by
    intro nanos
    rw [addU64, toNat_jitterOf]
    split
    · rename_i hFits
      simpa using hFits
    · rename_i hLarge
      simpa using hLarge
  constructor
  · intro hAll
    have hLast := (hSome ⟨999999999, by decide⟩).1 (hAll _)
    by_contra hLarge
    rw [jitterRoom] at hLarge
    have hLess : 999999999 < max (v.toNat / 4) 1 := by omega
    simp only [Nat.mod_eq_of_lt hLess, usizeMax] at hLast
    omega
  · intro hRoom nanos
    rw [hSome]
    have hLt := nanos.isLt
    have hMod := Nat.mod_le nanos.val (max (v.toNat / 4) 1)
    rw [jitterRoom] at hRoom
    rw [usizeMax]
    omega

theorem backoffDelay_of_checked {nanos : SubsecNanos} {ms : UInt64}
    (h : backoffDelay true baseBackoffMs attempts nanos = some ms) :
    backoffDelay overflowChecks baseBackoffMs attempts nanos = some ms := by
  cases overflowChecks with
  | true => exact h
  | false =>
      simp only [backoffDelay, backoff, Option.bind_eq_bind, Option.bind_eq_some_iff,
        Option.pure_def] at h ⊢
      obtain ⟨v, ⟨exponent, hExponent, factor, hFactor, hValue⟩, hSum⟩ := h
      refine ⟨v, ⟨exponent, ?_, factor, ?_, hValue⟩, ?_⟩
      · rw [predecessor] at hExponent ⊢
        split at hExponent
        · rwa [if_pos ‹_›]
        · cases hExponent
      · rw [twoPow] at hFactor ⊢
        split at hFactor
        · rwa [if_pos ‹_›]
        · cases hFactor
      · rw [addU64] at hSum ⊢
        split at hSum
        · rwa [if_pos ‹_›]
        · cases hSum

end Values

section Loops

/-- The attempts that a loop pauses after. It counts them up to its limit, and does not get past a
delay that panics. -/
inductive PausesAt (overflowChecks : Bool) (maxRetries : UInt32) (delays : UInt32 → UInt64 → Prop) :
    UInt32 → Prop
  | first {a : UInt32} (hCount : increment overflowChecks 0 = some a) (hLimit : ¬ maxRetries < a) :
      PausesAt overflowChecks maxRetries delays a
  | next {a b : UInt32} {ms : UInt64} (hEarlier : PausesAt overflowChecks maxRetries delays a)
      (hDelay : delays a ms) (hCount : increment overflowChecks a = some b)
      (hLimit : ¬ maxRetries < b) : PausesAt overflowChecks maxRetries delays b

variable (overflowChecks : Bool) (baseBackoffMs : UInt64) (maxRetries : UInt32)

def chainDelays (a : UInt32) (ms : UInt64) : Prop :=
  ∃ nanos, chainRetryDelay overflowChecks baseBackoffMs a nanos = some ms

def jobDelays (a : UInt32) (ms : UInt64) : Prop :=
  (∃ nanos, deliveryRetryDelay overflowChecks baseBackoffMs a nanos = some ms) ∨
    ∃ evalI64 expr payload nanos,
      failureRetryDelay overflowChecks baseBackoffMs a evalI64 expr payload nanos = some ms

/-- An attempt number that one of the two loops reaches. -/
def ReachesAttempt (a : UInt32) : Prop :=
  PausesAt overflowChecks maxRetries (chainDelays overflowChecks baseBackoffMs) a ∨
    PausesAt overflowChecks maxRetries (jobDelays overflowChecks baseBackoffMs) a

/-- At no attempt that a loop reaches does a delay overflow, and the backoffs do not decrease. -/
structure DelaysSafe : Prop where
  chain : ∀ a, PausesAt overflowChecks maxRetries (chainDelays overflowChecks baseBackoffMs) a →
    ∀ nanos, (chainRetryDelay true baseBackoffMs a nanos).isSome = true
  delivery : ∀ a, PausesAt overflowChecks maxRetries (jobDelays overflowChecks baseBackoffMs) a →
    ∀ nanos, (deliveryRetryDelay true baseBackoffMs a nanos).isSome = true
  failure : ∀ a, PausesAt overflowChecks maxRetries (jobDelays overflowChecks baseBackoffMs) a →
    ∀ evalI64 expr payload nanos,
      (failureRetryDelay true baseBackoffMs a evalI64 expr payload nanos).isSome = true
  monotone : ∀ a b, ReachesAttempt overflowChecks baseBackoffMs maxRetries a →
    ReachesAttempt overflowChecks baseBackoffMs maxRetries b → a ≤ b →
      ∃ u v, backoff overflowChecks baseBackoffMs a = some u ∧
        backoff overflowChecks baseBackoffMs b = some v ∧ u ≤ v

variable {overflowChecks baseBackoffMs maxRetries} {delays : UInt32 → UInt64 → Prop} {a : UInt32}

theorem PausesAt.bounds (hMax : maxRetries.toNat < 2 ^ 32 - 1)
    (h : PausesAt overflowChecks maxRetries delays a) :
    0 < a.toNat ∧ a.toNat ≤ maxRetries.toNat := by
  induction h with
  | first hCount hLimit =>
      rw [UInt32.lt_iff_toNat_lt, Nat.not_lt] at hLimit
      obtain ⟨hNext, hValue⟩ := increment_of_lt overflowChecks 0 (by decide)
      rw [hNext] at hCount
      cases hCount
      exact ⟨by decide, hLimit⟩
  | @next a b ms hEarlier hDelay hCount hLimit ih =>
      rw [UInt32.lt_iff_toNat_lt, Nat.not_lt] at hLimit
      obtain ⟨hNext, hValue⟩ := increment_of_lt overflowChecks a (by omega)
      rw [hNext] at hCount
      cases hCount
      exact ⟨by omega, hLimit⟩

/-- As long as its delays can be computed, a loop gets to each number up to its limit. -/
theorem pausesAt_of_le (hDelays : ∀ a, PausesAt overflowChecks maxRetries delays a →
    ∃ ms, delays a ms) (hPos : 0 < a.toNat) (hLe : a.toNat ≤ maxRetries.toNat) :
    PausesAt overflowChecks maxRetries delays a := by
  have hMax := maxRetries.toNat_lt
  have hAll : ∀ n : Nat, n < maxRetries.toNat → ∀ b : UInt32, b.toNat = n + 1 →
      PausesAt overflowChecks maxRetries delays b := by
    intro n hn
    induction n with
    | zero =>
        intro b hb
        obtain ⟨hNext, hValue⟩ := increment_of_lt overflowChecks 0 (by decide)
        refine .first (hNext.trans (congrArg some (UInt32.toNat_inj.1 ?_))) ?_
        · rw [hValue, hb]
          rfl
        · rw [UInt32.lt_iff_toNat_lt]
          omega
    | succ n ih =>
        intro b hb
        have hEarlier : (b - 1).toNat = n + 1 := by
          rw [UInt32.toNat_sub_of_le _ _ (by rw [UInt32.le_iff_toNat_le, UInt32.toNat_one]; omega),
            UInt32.toNat_one]
          omega
        have hPauses := ih (by omega) (b - 1) hEarlier
        obtain ⟨ms, hDelay⟩ := hDelays _ hPauses
        obtain ⟨hNext, hValue⟩ := increment_of_lt overflowChecks (b - 1) (by omega)
        refine hPauses.next hDelay (hNext.trans (congrArg some (UInt32.toNat_inj.1 ?_))) ?_
        · omega
        · rw [UInt32.lt_iff_toNat_lt]
          omega
  exact hAll (a.toNat - 1) (by omega) a (by omega)

theorem backoffDelay_isSome (hPos : 0 < a.toNat) (hLe : a.toNat ≤ maxRetries.toNat)
    (hMax : maxRetries.toNat ≤ 64)
    (hRoom : baseBackoffMs.toNat * 2 ^ (maxRetries.toNat - 1) ≤ jitterRoom) (nanos : SubsecNanos) :
    (backoffDelay true baseBackoffMs a nanos).isSome = true := by
  obtain ⟨v, hBackoff, hValue⟩ := toNat_backoff true baseBackoffMs hPos (hLe.trans hMax)
  have hGrows : baseBackoffMs.toNat * 2 ^ (a.toNat - 1) ≤
      baseBackoffMs.toNat * 2 ^ (maxRetries.toNat - 1) := by
    refine Nat.mul_le_mul_left _ (Nat.pow_le_pow_right (by decide) (by omega))
  have hFits : v.toNat ≤ jitterRoom := by omega
  rw [backoffDelay, hBackoff, Option.bind_eq_bind, Option.bind_some]
  exact (jitter_fits_iff v).2 hFits nanos

theorem failureRetryDelay_isSome {overflowChecks : Bool}
    (h : ∀ nanos, (backoffDelay overflowChecks baseBackoffMs a nanos).isSome = true)
    (evalI64 : String → Json → Option Int64) (expr : Option String) (payload : Json)
    (nanos : SubsecNanos) :
    (failureRetryDelay overflowChecks baseBackoffMs a evalI64 expr payload nanos).isSome =
      true := by
  unfold failureRetryDelay
  split
  · split
    · split
      · rfl
      · exact h nanos
    · exact h nanos
  · exact h nanos

theorem DelaysSafe.pausesAt (h : DelaysSafe overflowChecks baseBackoffMs maxRetries)
    (hPos : 0 < a.toNat) (hLe : a.toNat ≤ maxRetries.toNat) :
    PausesAt overflowChecks maxRetries (chainDelays overflowChecks baseBackoffMs) a := by
  refine pausesAt_of_le (fun b hPauses => ?_) hPos hLe
  obtain ⟨ms, hDelay⟩ := Option.isSome_iff_exists.1 (h.chain b hPauses 0)
  exact ⟨ms, 0, backoffDelay_of_checked hDelay⟩

theorem DelaysSafe.maxRetries_le (h : DelaysSafe overflowChecks baseBackoffMs maxRetries) :
    maxRetries.toNat ≤ 64 := by
  by_contra hLarge
  have hPauses := h.pausesAt (a := 65) (by decide) (by
    change 65 ≤ _
    omega)
  have hDelay := h.chain 65 hPauses 0
  rw [chainRetryDelay, backoffDelay, backoff_checked_none (by decide)] at hDelay
  cases hDelay

/-- The delays are safe exactly when there are no retries, or at most sixty-four and the last
backoff leaves room for its jitter. -/
theorem delays_safe_iff (overflowChecks : Bool) (baseBackoffMs : UInt64) (maxRetries : UInt32) :
    DelaysSafe overflowChecks baseBackoffMs maxRetries ↔
      maxRetries.toNat = 0 ∨ (maxRetries.toNat ≤ 64 ∧
        baseBackoffMs.toNat * 2 ^ (maxRetries.toNat - 1) ≤ jitterRoom) := by
  constructor
  · intro hSafe
    by_cases hZero : maxRetries.toNat = 0
    · exact .inl hZero
    have hLimit := hSafe.maxRetries_le
    refine .inr ⟨hLimit, ?_⟩
    obtain ⟨v, hBackoff, hValue⟩ := toNat_backoff true baseBackoffMs (by omega) hLimit
    have hDelays := hSafe.chain maxRetries (hSafe.pausesAt (by omega) le_rfl)
    simp only [chainRetryDelay, backoffDelay, hBackoff, Option.bind_eq_bind,
      Option.bind_some] at hDelays
    have hFits := (jitter_fits_iff v).1 hDelays
    rw [jitterRoom] at hFits ⊢
    rw [usizeMax] at hValue
    omega
  · intro hBounds
    have hMax : maxRetries.toNat < 2 ^ 32 - 1 := by omega
    have hLimit : maxRetries.toNat ≤ 64 := by omega
    have hSome : ∀ a : UInt32, 0 < a.toNat → a.toNat ≤ maxRetries.toNat → ∀ nanos,
        (backoffDelay true baseBackoffMs a nanos).isSome = true := by
      intro a hPos hLe
      obtain hZero | ⟨_, hRoom⟩ := hBounds
      · omega
      · exact backoffDelay_isSome hPos hLe hLimit hRoom
    have hReached : ∀ a, ReachesAttempt overflowChecks baseBackoffMs maxRetries a →
        0 < a.toNat ∧ a.toNat ≤ maxRetries.toNat := by
      rintro a (hPauses | hPauses)
      · exact hPauses.bounds hMax
      · exact hPauses.bounds hMax
    refine
      { chain := fun a hPauses => hSome a (hPauses.bounds hMax).1 (hPauses.bounds hMax).2
        delivery := fun a hPauses => hSome a (hPauses.bounds hMax).1 (hPauses.bounds hMax).2
        failure := fun a hPauses => failureRetryDelay_isSome
          (hSome a (hPauses.bounds hMax).1 (hPauses.bounds hMax).2)
        monotone := fun a b hA hB hOrder => ?_ }
    obtain ⟨hPosA, hLeA⟩ := hReached a hA
    obtain ⟨hPosB, hLeB⟩ := hReached b hB
    obtain ⟨u, hBackoffA, hU⟩ := toNat_backoff overflowChecks baseBackoffMs hPosA
      (hLeA.trans hLimit)
    obtain ⟨v, hBackoffB, hV⟩ := toNat_backoff overflowChecks baseBackoffMs hPosB
      (hLeB.trans hLimit)
    refine ⟨u, v, hBackoffA, hBackoffB, ?_⟩
    rw [UInt32.le_iff_toNat_le] at hOrder
    rw [UInt64.le_iff_toNat_le, hU, hV]
    have hGrows : baseBackoffMs.toNat * 2 ^ (a.toNat - 1) ≤
        baseBackoffMs.toNat * 2 ^ (b.toNat - 1) :=
      Nat.mul_le_mul_left _ (Nat.pow_le_pow_right (by decide) (by omega))
    omega

/-- At the sixty-fifth attempt a checked build panics, and an unchecked one drops its delay to the
jitter of nothing; a large base overflows at the first attempt. -/
theorem backoff_overflows :
    ¬ DelaysSafe true 0 65 ∧ ¬ DelaysSafe false 500 65 ∧
      backoff false 500 64 = some (UInt64.ofNat usizeMax) ∧ backoff false 500 65 = some 0 ∧
      backoffDelay true (UInt64.ofNat usizeMax) 1 999999999 = none := by
  refine ⟨fun hSafe => ?_, fun hSafe => ?_, by decide, by decide, by decide⟩
  · exact absurd hSafe.maxRetries_le (by decide)
  · exact absurd hSafe.maxRetries_le (by decide)

end Loops

end TalosWorkflow
