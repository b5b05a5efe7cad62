import TalosWorkflow.Replay.Binding
import TalosWorkflow.Retries.Backoff

/-!
# Which attempts are sent again

The retry loop of a single job with its counter and its pauses. A job that timed
out should not run a second time.
-/

namespace TalosWorkflow

namespace NatsNodeDispatcher

/-- What the pauses of a dispatch depend on: the clock and the delay expressions. -/
structure PauseSources where
  subsecNanos : Nat → SubsecNanos
  evalI64 : String → Json → Option Int64

section Loops

variable (digest : Sha256) (mac : Hmac) (D : NatsNodeDispatcher)
variable (x : Exchange JobRequest JobResult) (job : DispatchJob)
variable (freshId : Uuid) (cache : JobNonceCache) (p : PauseSources) (overflowChecks : Bool)

def jobPause (n : Nat) (attempts : UInt32) (s : JobRequest × JobNonceCache) : Option UInt64 :=
  match x.deliver n s.1 with
  | .response (.ok result) =>
      failureRetryDelay overflowChecks job.backoffMs attempts p.evalI64 job.retryDelayExpr
        result.outputPayload (p.subsecNanos n)
  | _ => deliveryRetryDelay overflowChecks job.backoffMs attempts (p.subsecNanos n)

def SendsJob (n : Nat) (count : UInt32) (s : JobRequest × JobNonceCache) : Prop :=
  ∃ req, D.signed (JobRequest.sign digest mac) (x.stamp 0) (TalosWorkflow.dispatch job freshId {}) =
      .ok req ∧
    Made (D.attemptJob digest mac x job) (jobPause x job p overflowChecks) overflowChecks
      job.maxRetries (req, cache) n count s

/-- The reply to an attempt verifies and has this status. -/
def RepliesWith (n : Nat) (s : JobRequest × JobNonceCache) (status : JobStatus) : Prop :=
  ∃ result, x.deliver n s.1 = .response (.ok result) ∧
    (D.verifyJobResult digest mac x n result s.2).1 = .ok () ∧ result.status = status

/-- An attempt that should be the last: it timed out at either end, or its reply is unreadable or
not authentic. -/
inductive ShouldEnd (n : Nat) (s : JobRequest × JobNonceCache) : Prop
  | elapsed (h : x.deliver n s.1 = .timedOut)
  | malformed {e : String} (h : x.deliver n s.1 = .response (.error e))
  | unverified {result : JobResult} {e : String} (h : x.deliver n s.1 = .response (.ok result))
      (hVerify : (D.verifyJobResult digest mac x n result s.2).1 = .error e)
  | workerTimeout (h : D.RepliesWith digest mac x n s .timedOut)

structure RetriesOnlyFailures : Prop where
  bounded : ∀ n count s, D.SendsJob digest mac x job freshId cache p overflowChecks n count s →
    n ≤ job.maxRetries.toNat
  ended : ∀ n count s, D.SendsJob digest mac x job freshId cache p overflowChecks n count s →
    D.ShouldEnd digest mac x n s → ∀ count' s',
      ¬ D.SendsJob digest mac x job freshId cache p overflowChecks (n + 1) count' s'

/-- The result is not retried: the policy blocks it, or no retry is left, or counting or pausing
panics. -/
def HeldBack (n : Nat) (count : UInt32) (s : JobRequest × JobNonceCache) (result : JobResult) :
    Prop :=
  (D.retryBlocked job result).isSome = true ∨ ∀ next, increment overflowChecks count = some next →
    next ≤ job.maxRetries → jobPause x job p overflowChecks n next s = none

/-- Every verified reply of a worker that timed out is held back by something else. -/
def TimeoutsHeldBack : Prop :=
  ∀ n count s result, D.SendsJob digest mac x job freshId cache p overflowChecks n count s →
    x.deliver n s.1 = .response (.ok result) →
      (D.verifyJobResult digest mac x n result s.2).1 = .ok () → result.status = .timedOut →
        HeldBack D x job p overflowChecks n count s result

/-- The counter does not wrap around before some attempt ends the loop. -/
def CounterSuffices : Prop :=
  overflowChecks = true ∨ job.maxRetries.toNat < 2 ^ 32 - 1 ∨
    ∀ req, D.signed (JobRequest.sign digest mac) (x.stamp 0)
        (TalosWorkflow.dispatch job freshId {}) = .ok req →
      EndsInTime (D.attemptJob digest mac x job) (jobPause x job p overflowChecks) overflowChecks
        job.maxRetries (req, cache)

end Loops

section Turns

variable {digest : Sha256} {mac : Hmac} {D : NatsNodeDispatcher}
variable {x : Exchange JobRequest JobResult} {job : DispatchJob}
variable {freshId : Uuid} {cache : JobNonceCache} {p : PauseSources} {overflowChecks : Bool}
variable {n : Nat} {count : UInt32} {s t : JobRequest × JobNonceCache}

/-- An attempt asks for a retry after a delivery error, or after a verified failure that the policy
does not block. -/
theorem attemptJob_retry_iff :
    (∃ giveUp t, D.attemptJob digest mac x job n s = .retry giveUp t) ↔
      (∃ e, x.deliver n s.1 = .failed e) ∨
        ∃ result, x.deliver n s.1 = .response (.ok result) ∧
          (D.verifyJobResult digest mac x n result s.2).1 = .ok () ∧ result.isSuccess = false ∧
            D.retryBlocked job result = none := by
  obtain ⟨req, seen⟩ := s
  rw [attemptJob]
  cases x.deliver n req with
  | timedOut => simp
  | failed e => simp
  | response parsed =>
      cases parsed with
      | error e => simp
      | ok result =>
          simp only [reduceCtorEq, exists_false, false_or, Delivery.response.injEq,
            Except.ok.injEq, exists_eq_left']
          generalize D.verifyJobResult digest mac x n result seen = answer
          obtain ⟨verified, seen'⟩ := answer
          cases verified with
          | error e => simp [concludeResult]
          | ok _ =>
              rw [concludeResult]
              cases hSuccess : result.isSuccess with
              | true => simp
              | false =>
                  cases hBlocked : D.retryBlocked job result with
                  | some message => simp
                  | none => simp

theorem sendsJob_succ_iff
    (h : D.SendsJob digest mac x job freshId cache p overflowChecks n count s) :
    (∃ count' s', D.SendsJob digest mac x job freshId cache p overflowChecks (n + 1) count' s') ↔
      (∃ giveUp t, D.attemptJob digest mac x job n s = .retry giveUp t) ∧
        ∃ next, increment overflowChecks count = some next ∧ next ≤ job.maxRetries ∧
          (jobPause x job p overflowChecks n next s).isSome = true := by
  obtain ⟨req, hSigned, hMade⟩ := h
  constructor
  · rintro ⟨count', s', req', hSigned', hMade'⟩
    cases hSigned.symm.trans hSigned'
    cases hMade' with
    | again hEarlier hTurn =>
        obtain ⟨rfl, rfl⟩ := hMade.unique hEarlier
        obtain ⟨⟨giveUp, hRetry⟩, hNext⟩ := countedTurn_again_iff.1 hTurn
        exact ⟨⟨giveUp, s', hRetry⟩, count', hNext⟩
  · rintro ⟨⟨giveUp, t, hRetry⟩, next, hNext⟩
    exact ⟨next, t, req, hSigned, hMade.again (countedTurn_again_iff.2 ⟨⟨giveUp, hRetry⟩, hNext⟩)⟩

theorem not_success_of_timedOut {result : JobResult} (h : result.status = .timedOut) :
    result.isSuccess = false := by
  rw [JobResult.isSuccess, h]
  rfl

/-- Of the attempts that should end, only a worker's own timeout can be sent again. -/
theorem workerTimeout_of_retry (hEnd : D.ShouldEnd digest mac x n s)
    (hRetry : ∃ giveUp t, D.attemptJob digest mac x job n s = .retry giveUp t) :
    ∃ result, x.deliver n s.1 = .response (.ok result) ∧
      (D.verifyJobResult digest mac x n result s.2).1 = .ok () ∧ result.status = .timedOut ∧
        D.retryBlocked job result = none := by
  obtain ⟨e, hFailed⟩ | ⟨result, hReply, hVerified, -, hBlocked⟩ := attemptJob_retry_iff.1 hRetry
  · cases hEnd with
    | elapsed h => cases hFailed.symm.trans h
    | malformed h => cases hFailed.symm.trans h
    | unverified h => cases hFailed.symm.trans h
    | workerTimeout h =>
        obtain ⟨result, hReply, -⟩ := h
        cases hFailed.symm.trans hReply
  · cases hEnd with
    | elapsed h => cases hReply.symm.trans h
    | malformed h => cases hReply.symm.trans h
    | unverified h hVerify =>
        cases hReply.symm.trans h
        cases hVerified.symm.trans hVerify
    | workerTimeout h =>
        obtain ⟨other, hOther, hOtherVerified, hStatus⟩ := h
        cases hReply.symm.trans hOther
        exact ⟨result, hReply, hVerified, hStatus, hBlocked⟩

theorem bounded_iff :
    (∀ n count s, D.SendsJob digest mac x job freshId cache p overflowChecks n count s →
      n ≤ job.maxRetries.toNat) ↔
        D.CounterSuffices digest mac x job freshId cache p overflowChecks := by
  rw [CounterSuffices]
  constructor
  · intro hBounded
    by_cases hCounter : overflowChecks = true ∨ job.maxRetries.toNat < 2 ^ 32 - 1
    · exact hCounter.imp id .inl
    · refine .inr (.inr fun req hSigned => ?_)
      have hEnds := attempts_bounded_iff.1 fun n count s hMade =>
        hBounded n count s ⟨req, hSigned, hMade⟩
      exact (or_assoc.2 hEnds).resolve_left hCounter
  · rintro hCounter n count s ⟨req, hSigned, hMade⟩
    refine attempts_bounded_iff.2 ?_ n count s hMade
    exact hCounter.imp id fun h => h.imp id fun hEnds => hEnds req hSigned

/-- Only failures are retried, and within the limit, exactly when every timeout that a worker
reports is held back by something else and the counter does not wrap around. -/
theorem retries_only_failures_iff (digest : Sha256) (mac : Hmac) (D : NatsNodeDispatcher)
    (x : Exchange JobRequest JobResult) (job : DispatchJob) (freshId : Uuid)
    (cache : JobNonceCache) (p : PauseSources) (overflowChecks : Bool) :
    D.RetriesOnlyFailures digest mac x job freshId cache p overflowChecks ↔
      D.CounterSuffices digest mac x job freshId cache p overflowChecks ∧
        D.TimeoutsHeldBack digest mac x job freshId cache p overflowChecks := by
  constructor
  · intro hPolicy
    refine ⟨bounded_iff.1 hPolicy.bounded, ?_⟩
    intro n count s result hSends hReply hVerified hStatus
    have hEnd : D.ShouldEnd digest mac x n s := .workerTimeout ⟨result, hReply, hVerified, hStatus⟩
    by_contra hFree
    rw [HeldBack, not_or, Option.not_isSome_iff_eq_none] at hFree
    obtain ⟨hBlocked, hNext⟩ := hFree
    push Not at hNext
    obtain ⟨next, hCount, hLimit, hPause⟩ := hNext
    have hRetry := attemptJob_retry_iff.2 (.inr ⟨result, hReply, hVerified,
      not_success_of_timedOut hStatus, hBlocked⟩)
    obtain ⟨count', s', hAgain⟩ := (sendsJob_succ_iff hSends).2
      ⟨hRetry, next, hCount, hLimit, Option.isSome_iff_ne_none.2 hPause⟩
    exact hPolicy.ended n count s hSends hEnd count' s' hAgain
  · rintro ⟨hCounter, hHeld⟩
    refine ⟨bounded_iff.2 hCounter, fun n count s hSends hEnd count' s' hAgain => ?_⟩
    obtain ⟨hRetry, next, hCount, hLimit, hPause⟩ := (sendsJob_succ_iff hSends).1
      ⟨count', s', hAgain⟩
    obtain ⟨result, hReply, hVerified, hStatus, hBlocked⟩ := workerTimeout_of_retry hEnd hRetry
    obtain hSome | hNone := hHeld n count s result hSends hReply hVerified hStatus
    · rw [hBlocked] at hSome
      cases hSome
    · rw [hNone next hCount hLimit] at hPause
      cases hPause

end Turns

section Samples

def timedOutResult : JobResult :=
  JobResult.sign sampleDigest sampleHmac [1] 1700000000 0
    { jobId := 1, status := .timedOut, outputPayload := .null, logs := [], executionTimeMs := 0
      signature := [], resultNonce := "" }

def alwaysTimedOut : Exchange JobRequest JobResult :=
  { misdelivered with deliver := fun _ _ => .response (.ok timedOutResult) }

def fixedPauses : PauseSources := ⟨fun _ => 0, fun _ _ => none⟩

/-- The job is sent a second time after its worker has reported a timeout. -/
theorem timed_out_job_sent_again :
    ∃ count s, keyedDispatcher.SendsJob sampleDigest sampleHmac alwaysTimedOut
        { sampleJob with maxRetries := 1 } 0 .new fixedPauses true 1 count s ∧
      ¬ keyedDispatcher.RetriesOnlyFailures sampleDigest sampleHmac alwaysTimedOut
        { sampleJob with maxRetries := 1 } 0 .new fixedPauses true := by
  obtain ⟨req, hSigned⟩ : ∃ req, keyedDispatcher.signed (JobRequest.sign sampleDigest sampleHmac)
      (alwaysTimedOut.stamp 0) (TalosWorkflow.dispatch { sampleJob with maxRetries := 1 } 0 {}) =
        .ok req := ⟨_, rfl⟩
  have hFirst : keyedDispatcher.SendsJob sampleDigest sampleHmac alwaysTimedOut
      { sampleJob with maxRetries := 1 } 0 .new fixedPauses true 0 0 (req, .new) :=
    ⟨req, hSigned, .first⟩
  have hCheck : SignedMessage.check sampleDigest sampleHmac resultMaxAgeSecs
      (alwaysTimedOut.verification [1] 0) (.jobResult timedOutResult) = .ok 1700000000 :=
    JobResult.verifyNoReplay_sign (by decide)
  have hVerified : (keyedDispatcher.verifyJobResult sampleDigest sampleHmac alwaysTimedOut 0
      timedOutResult .new).1 = .ok () := by
    rw [verifyJobResult_keyed keyedDispatcher_key]
    exact SignedMessage.verify_new hCheck
  have hEnd : keyedDispatcher.ShouldEnd sampleDigest sampleHmac alwaysTimedOut 0 (req, .new) :=
    .workerTimeout ⟨timedOutResult, rfl, hVerified, rfl⟩
  have hRetry : ∃ giveUp t, keyedDispatcher.attemptJob sampleDigest sampleHmac alwaysTimedOut
      { sampleJob with maxRetries := 1 } 0 (req, .new) = .retry giveUp t :=
    attemptJob_retry_iff.2 (.inr ⟨timedOutResult, rfl, hVerified, rfl, rfl⟩)
  have hPause : (jobPause alwaysTimedOut { sampleJob with maxRetries := 1 } fixedPauses true 0 1
      (req, .new)).isSome = true := by
    change (backoffDelay true 500 1 0).isSome = true
    decide
  obtain ⟨count, s, hAgain⟩ := (sendsJob_succ_iff hFirst).2
    ⟨hRetry, 1, by decide, by decide, hPause⟩
  exact ⟨count, s, hAgain, fun hPolicy => hPolicy.ended 0 0 _ hFirst hEnd count s hAgain⟩

end Samples

end NatsNodeDispatcher

end TalosWorkflow
