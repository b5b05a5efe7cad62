import TalosWorkflow.Replay.SingleUse
import TalosWorkflow.Retries.Sends

/-!
# Retries at the worker

Every attempt is signed anew, so that a worker whose cache holds the earlier
attempts takes it for a new message.
-/

namespace TalosWorkflow

def afterCalls (digest : Sha256) (mac : Hmac) (maxAgeSecs : UInt64) (calls : List VerifyCall)
    (cache : JobNonceCache) : JobNonceCache :=
  calls.foldl (fun cache call =>
    (call.message.verify digest mac maxAgeSecs call.verification cache).2) cache

section Workers

variable {digest : Sha256} {mac : Hmac} {maxAgeSecs : UInt64} {cache : JobNonceCache}
variable {v : Verification} {ts : UInt64}

theorem contains_afterCalls {calls : List VerifyCall} {nonce : String}
    (h : cache.seen.contains nonce = false)
    (hOther : ∀ call ∈ calls, nonce ≠ call.message.nonce) :
    (afterCalls digest mac maxAgeSecs calls cache).seen.contains nonce = false := by
  induction calls generalizing cache with
  | nil => exact h
  | cons call rest ih =>
      refine ih ?_ fun other hIn => hOther other (List.mem_cons_of_mem call hIn)
      exact SignedMessage.contains_verify h (hOther call List.mem_cons_self)

/-- A signed message with a nonce that is new to the worker is refused for its age alone. -/
theorem verifyOnce_signed {field nonce : String} {payload : List UInt8}
    (hNonce : nonceTimestamp nonce = some ts) (h : cache.seen.contains nonce = false) :
    (verifyOnce maxAgeSecs field nonce (checkSigned field nonce parseNonce mac v.key payload
      (mac v.key payload) (v.checkedAt.getD 0) maxAgeSecs) v cache).1 =
      checkFreshness field ts (v.checkedAt.getD 0) maxAgeSecs := by
  rw [checkSigned_signed hNonce, verifyOnce_new h]
  cases checkFreshness field ts (v.checkedAt.getD 0) maxAgeSecs <;> rfl

end Workers

namespace NatsNodeDispatcher

section Stamps

variable {D : NatsNodeDispatcher} {key : List UInt8} {Request σ α : Type}
variable {sign : List UInt8 → UInt64 → BitVec 128 → Request → Request}
variable {stamp : Nat → Option (UInt64 × BitVec 128)} {base : Request}
variable {attempt : Nat → σ → Attempt σ String α} {pause : Nat → UInt32 → σ → Option UInt64}
variable {overflowChecks : Bool} {maxRetries : UInt32} {start s : σ} {n : Nat} {count : UInt32}

theorem signed_keyed (hKey : D.workerSharedKey = some key) (ts : UInt64) (random : BitVec 128)
    (req : Request) : D.signed sign (some (ts, random)) req = .ok (sign key ts random req) := by
  unfold signed
  rw [hKey]

/-- Each attempt sends what the first one would have sent with its own stamp. -/
theorem signed_anew (request : σ → Request) (hKey : D.workerSharedKey = some key)
    (hTwice : ∀ ts random ts' random' req,
      sign key ts random (sign key ts' random' req) = sign key ts random req)
    (hStamps : ∀ k, (stamp k).isSome = true)
    (hRetry : ∀ n s t giveUp, attempt n s = .retry giveUp t →
      request t = D.resigned sign (stamp (n + 1)) (request s))
    (hFirst : D.signed sign (stamp 0) base = .ok (request start))
    (h : Made attempt pause overflowChecks maxRetries start n count s) :
    ∃ ts random, stamp n = some (ts, random) ∧ request s = sign key ts random base := by
  induction h with
  | first =>
      obtain ⟨⟨ts, random⟩, hStamp⟩ := Option.isSome_iff_exists.1 (hStamps 0)
      rw [hStamp, signed_keyed hKey] at hFirst
      exact ⟨ts, random, hStamp, (Except.ok.inj hFirst).symm⟩
  | @again n count next s t hEarlier hTurn ih =>
      obtain ⟨ts, random, -, hRequest⟩ := ih
      obtain ⟨⟨ts', random'⟩, hStamp⟩ := Option.isSome_iff_exists.1 (hStamps (n + 1))
      obtain ⟨⟨giveUp, hAgain⟩, -⟩ := countedTurn_again_iff.1 hTurn
      refine ⟨ts', random', hStamp, ?_⟩
      rw [hRetry n s t giveUp hAgain, resigned, hStamp, signed_keyed hKey, hRequest]
      exact hTwice ts' random' ts random base

end Stamps

section Sends

variable (digest : Sha256) (mac : Hmac) (D : NatsNodeDispatcher) (freshId : Uuid)
variable (cache : JobNonceCache) (p : PauseSources) (overflowChecks : Bool)

def chainPause (request : ChainDispatchRequest) (n : Nat) (attempts : UInt32)
    (_ : PipelineJobRequest) : Option UInt64 :=
  chainRetryDelay overflowChecks request.backoffMs attempts (p.subsecNanos n)

/-- Attempt `n` of the chain is sent, with the counter and as this message. -/
def SendsChain (y : Exchange PipelineJobRequest PipelineJobResult) (request : ChainDispatchRequest)
    (n : Nat) (count : UInt32) (sent : PipelineJobRequest) : Prop :=
  ∃ req, D.signed (PipelineJobRequest.sign digest mac) (y.stamp 0)
      (TalosWorkflow.dispatchChain request freshId {}) = .ok req ∧
    Made (D.attemptChain digest mac y) (chainPause p overflowChecks request) overflowChecks
      request.maxRetries req n count sent

def JobAttempt (x : Exchange JobRequest JobResult) (job : DispatchJob) (n : Nat)
    (sent : JobRequest) : Prop :=
  ∃ count seen, D.SendsJob digest mac x job freshId cache p overflowChecks n count (sent, seen)

def ChainAttempt (y : Exchange PipelineJobRequest PipelineJobResult)
    (request : ChainDispatchRequest) (n : Nat) (sent : PipelineJobRequest) : Prop :=
  ∃ count, D.SendsChain digest mac freshId p overflowChecks y request n count sent

end Sends

section Acceptance

def DistinctNonces {Request : Type} (attempts : Nat → Request → Prop) (nonce : Request → String) :
    Prop :=
  ∀ j k sent sent', attempts j sent → attempts k sent' → j ≠ k → nonce sent ≠ nonce sent'

/-- Whether in the second or in the random part, two draws that differ give two nonces. -/
theorem freshNonce_inj {ts ts' : UInt64} {random random' : BitVec 128}
    (h : freshNonce ts random = freshNonce ts' random') : (ts, random) = (ts', random') := by
  have hStamp := congrArg nonceTimestamp h
  rw [nonceTimestamp_freshNonce, nonceTimestamp_freshNonce] at hStamp
  cases hStamp
  rw [freshNonce_injective ts h]

/-- Attempts that are signed with what is drawn for them have distinct nonces when the draws are
distinct. -/
theorem distinctNonces_of_draws {Request : Type} {attempts : Nat → Request → Prop}
    {nonce : Request → String} {stamp : Nat → Option (UInt64 × BitVec 128)}
    (hSigned : ∀ n sent, attempts n sent →
      ∃ ts random, stamp n = some (ts, random) ∧ nonce sent = freshNonce ts random)
    (hDraws : Set.InjOn stamp {n | ∃ sent, attempts n sent}) : DistinctNonces attempts nonce := by
  intro j k sent sent' hj hk hNe hSame
  obtain ⟨ts, random, hStamp, hNonce⟩ := hSigned j sent hj
  obtain ⟨ts', random', hStamp', hNonce'⟩ := hSigned k sent' hk
  rw [hNonce, hNonce'] at hSame
  refine hNe (hDraws ⟨sent, hj⟩ ⟨sent', hk⟩ ?_)
  rw [hStamp, hStamp', freshNonce_inj hSame]

/-- The cache of a worker that has verified earlier attempts, in any order and any number of times,
and messages with nonces that no attempt has; it held none of the attempts' nonces before. -/
structure SeenEarlier {Request : Type} (digest : Sha256) (mac : Hmac) (maxAgeSecs : UInt64)
    (attempts : Nat → Request → Prop) (message : Request → SignedMessage) (n : Nat)
    (worker : JobNonceCache) : Prop where
  history : ∃ before calls, worker = afterCalls digest mac maxAgeSecs calls before ∧
    (∀ k sent, attempts k sent → before.seen.contains (message sent).nonce = false) ∧
    ∀ call ∈ calls, (∃ m < n, ∃ sent, attempts m sent ∧ call.message = message sent) ∨
      ∀ k sent, attempts k sent → call.message.nonce ≠ (message sent).nonce

theorem SeenEarlier.new {Request : Type} {digest : Sha256} {mac : Hmac} {maxAgeSecs : UInt64}
    {attempts : Nat → Request → Prop} {message : Request → SignedMessage} {n : Nat}
    {worker : JobNonceCache} {sent : Request}
    (h : SeenEarlier digest mac maxAgeSecs attempts message n worker)
    (hDistinct : DistinctNonces attempts fun sent => (message sent).nonce)
    (hSent : attempts n sent) : worker.seen.contains (message sent).nonce = false := by
  obtain ⟨before, calls, rfl, hBefore, hCalls⟩ := h.history
  refine contains_afterCalls (hBefore n sent hSent) fun call hIn => ?_
  obtain ⟨m, hm, earlier, hEarlier, hMessage⟩ | hForeign := hCalls call hIn
  · rw [hMessage]
    exact hDistinct n m sent earlier hSent hEarlier (by omega)
  · exact (hForeign n sent hSent).symm

/-- The answer of a worker that can only hold the age of a request against it. -/
def RefusedForAgeAlone (maxAgeSecs : UInt64) (v : Verification) (nonce : String)
    (answer : Except String Unit) : Prop :=
  ∃ ts, nonceTimestamp nonce = some ts ∧
    answer = checkFreshness "job_nonce" ts (v.checkedAt.getD 0) maxAgeSecs ∧
    (answer = .ok () ↔ (v.checkedAt.getD 0).toNat ≤ ts.toNat + maxAgeSecs.toNat ∧
      ts.toNat ≤ (v.checkedAt.getD 0).toNat + maxFutureSkewSecs.toNat)

theorem refusedForAgeAlone_freshNonce {maxAgeSecs ts : UInt64} {v : Verification}
    {random : BitVec 128} {answer : Except String Unit}
    (h : answer = checkFreshness "job_nonce" ts (v.checkedAt.getD 0) maxAgeSecs) :
    RefusedForAgeAlone maxAgeSecs v (freshNonce ts random) answer := by
  refine ⟨ts, nonceTimestamp_freshNonce ts random, h, ?_⟩
  rw [h]
  exact checkFreshness_ok

theorem RefusedForAgeAlone.accepts {maxAgeSecs ts : UInt64} {v : Verification} {nonce : String}
    {answer : Except String Unit} (h : RefusedForAgeAlone maxAgeSecs v nonce answer)
    (hStamp : nonceTimestamp nonce = some ts)
    (hWindow : WithinWindow maxAgeSecs (v.checkedAt.getD 0) ts) : answer = .ok () := by
  obtain ⟨ts', hStamp', -, hAccepted⟩ := h
  cases hStamp.symm.trans hStamp'
  exact hAccepted.2 hWindow

variable {digest : Sha256} {mac : Hmac} {D : NatsNodeDispatcher} {freshId : Uuid}
variable {cache : JobNonceCache} {p : PauseSources} {overflowChecks : Bool} {key : List UInt8}
variable {n : Nat}

theorem jobAttempt_signed {x : Exchange JobRequest JobResult} {job : DispatchJob}
    {sent : JobRequest} (hKey : D.workerSharedKey = some key)
    (hStamps : ∀ k, (x.stamp k).isSome = true)
    (h : D.JobAttempt digest mac freshId cache p overflowChecks x job n sent) :
    ∃ ts random, x.stamp n = some (ts, random) ∧
      sent = (TalosWorkflow.dispatch job freshId {}).sign digest mac key ts random := by
  obtain ⟨count, seen, req, hSigned, hMade⟩ := h
  exact signed_anew Prod.fst hKey (fun _ _ _ _ _ => rfl) hStamps
    (fun n s t giveUp hRetry => attemptJob_retry hRetry) hSigned hMade

theorem chainAttempt_signed {y : Exchange PipelineJobRequest PipelineJobResult}
    {request : ChainDispatchRequest} {sent : PipelineJobRequest}
    (hKey : D.workerSharedKey = some key) (hStamps : ∀ k, (y.stamp k).isSome = true)
    (h : D.ChainAttempt digest mac freshId p overflowChecks y request n sent) :
    ∃ ts random, y.stamp n = some (ts, random) ∧
      sent = (TalosWorkflow.dispatchChain request freshId {}).sign digest mac key ts random := by
  obtain ⟨count, req, hSigned, hMade⟩ := h
  exact signed_anew id hKey (fun _ _ _ _ _ => rfl) hStamps
    (fun n s t giveUp hRetry => attemptChain_retry hRetry) hSigned hMade

theorem jobAttempt_distinct {x : Exchange JobRequest JobResult} {job : DispatchJob}
    (hKey : D.workerSharedKey = some key) (hStamps : ∀ k, (x.stamp k).isSome = true)
    (hDraws : Set.InjOn x.stamp
      {n | ∃ sent, D.JobAttempt digest mac freshId cache p overflowChecks x job n sent}) :
    DistinctNonces (D.JobAttempt digest mac freshId cache p overflowChecks x job)
      JobRequest.jobNonce := by
  refine distinctNonces_of_draws (fun n sent hSent => ?_) hDraws
  obtain ⟨ts, random, hStamp, hSame⟩ := jobAttempt_signed hKey hStamps hSent
  exact ⟨ts, random, hStamp, congrArg JobRequest.jobNonce hSame⟩

theorem chainAttempt_distinct {y : Exchange PipelineJobRequest PipelineJobResult}
    {request : ChainDispatchRequest} (hKey : D.workerSharedKey = some key)
    (hStamps : ∀ k, (y.stamp k).isSome = true)
    (hDraws : Set.InjOn y.stamp
      {n | ∃ sent, D.ChainAttempt digest mac freshId p overflowChecks y request n sent}) :
    DistinctNonces (D.ChainAttempt digest mac freshId p overflowChecks y request)
      PipelineJobRequest.jobNonce := by
  refine distinctNonces_of_draws (fun n sent hSent => ?_) hDraws
  obtain ⟨ts, random, hStamp, hSame⟩ := chainAttempt_signed hKey hStamps hSent
  exact ⟨ts, random, hStamp, congrArg PipelineJobRequest.jobNonce hSame⟩

/-- When `sign` draws something new for every attempt, each is the dispatched request up to its
nonce and signature, and a worker that has seen the earlier ones refuses it for its age alone. -/
theorem retries_accepted_as_fresh (digest : Sha256) (mac : Hmac) (D : NatsNodeDispatcher)
    (key : List UInt8) (hKey : D.workerSharedKey = some key) (freshId : Uuid)
    (cache : JobNonceCache) (p : PauseSources) (overflowChecks : Bool)
    (x : Exchange JobRequest JobResult) (job : DispatchJob)
    (hJobStamps : ∀ k, (x.stamp k).isSome = true)
    (hJobDraws : Set.InjOn x.stamp
      {n | ∃ sent, D.JobAttempt digest mac freshId cache p overflowChecks x job n sent})
    (y : Exchange PipelineJobRequest PipelineJobResult) (request : ChainDispatchRequest)
    (hChainStamps : ∀ k, (y.stamp k).isSome = true)
    (hChainDraws : Set.InjOn y.stamp
      {n | ∃ sent, D.ChainAttempt digest mac freshId p overflowChecks y request n sent})
    (maxAgeSecs : UInt64) :
    (∀ n sent, D.JobAttempt digest mac freshId cache p overflowChecks x job n sent →
      { sent with jobNonce := "", signature := [] } = TalosWorkflow.dispatch job freshId {} ∧
      ∀ worker v, v.key = key →
        SeenEarlier digest mac maxAgeSecs
          (D.JobAttempt digest mac freshId cache p overflowChecks x job) .jobRequest n
            worker →
          RefusedForAgeAlone maxAgeSecs v sent.jobNonce
            (sent.verify digest mac maxAgeSecs v worker).1) ∧
    (∀ n sent, D.ChainAttempt digest mac freshId p overflowChecks y request n sent →
      { sent with jobNonce := "", signature := [] } =
        TalosWorkflow.dispatchChain request freshId {} ∧
      ∀ worker v, v.key = key →
        SeenEarlier digest mac maxAgeSecs
          (D.ChainAttempt digest mac freshId p overflowChecks y request) .pipelineJobRequest n
            worker →
          RefusedForAgeAlone maxAgeSecs v sent.jobNonce
            (sent.verify digest mac maxAgeSecs v worker).1) := by
  constructor
  · intro n sent hSent
    obtain ⟨ts, random, hStamp, hSame⟩ := jobAttempt_signed hKey hJobStamps hSent
    have hNonce : sent.jobNonce = freshNonce ts random := congrArg JobRequest.jobNonce hSame
    refine ⟨by rw [hSame]; rfl, fun worker v hWorkerKey hSeen => ?_⟩
    have hNew : worker.seen.contains sent.jobNonce = false :=
      hSeen.new (jobAttempt_distinct hKey hJobStamps hJobDraws) hSent
    rw [hNonce] at hNew ⊢
    rw [hSame, ← hWorkerKey]
    exact refusedForAgeAlone_freshNonce
      (verifyOnce_signed (nonceTimestamp_freshNonce ts random) hNew)
  · intro n sent hSent
    obtain ⟨ts, random, hStamp, hSame⟩ := chainAttempt_signed hKey hChainStamps hSent
    have hNonce : sent.jobNonce = freshNonce ts random := congrArg PipelineJobRequest.jobNonce hSame
    refine ⟨by rw [hSame]; rfl, fun worker v hWorkerKey hSeen => ?_⟩
    have hNew : worker.seen.contains sent.jobNonce = false :=
      hSeen.new (chainAttempt_distinct hKey hChainStamps hChainDraws) hSent
    rw [hNonce] at hNew ⊢
    rw [hSame, ← hWorkerKey]
    exact refusedForAgeAlone_freshNonce
      (verifyOnce_signed (nonceTimestamp_freshNonce ts random) hNew)

end Acceptance

section Samples

/-- A transport without responders, and a new nonce for each of the first attempts. -/
def unanswered (Request Reply : Type) : Exchange Request Reply where
  deliver _ _ := .failed "no responders"
  stamp k := some (1700000000, BitVec.ofNat 128 k)
  checkedAt _ := none
  recordedAt _ := none

def unansweredJob : DispatchJob := { sampleJob with maxRetries := 1 }

theorem unanswered_draws (Request Reply : Type) :
    Set.InjOn (unanswered Request Reply).stamp {n | n ≤ 1} := by
  intro j hj k hk hSame
  have hRandom : BitVec.ofNat 128 j = BitVec.ofNat 128 k := congrArg Prod.snd (Option.some.inj hSame)
  have hValues := congrArg BitVec.toNat hRandom
  rw [BitVec.toNat_ofNat, BitVec.toNat_ofNat] at hValues
  rw [Set.mem_ofPred_eq] at hj hk
  omega

theorem unanswered_jobDraws :
    Set.InjOn (unanswered JobRequest JobResult).stamp
      {n | ∃ sent, keyedDispatcher.JobAttempt sampleDigest sampleHmac 0 .new fixedPauses true
        (unanswered _ _) unansweredJob n sent} := by
  refine (unanswered_draws _ _).mono ?_
  rintro n ⟨sent, count, seen, req, -, hMade⟩
  exact hMade.le_maxRetries (.inl rfl)

theorem unanswered_chainDraws :
    Set.InjOn (unanswered PipelineJobRequest PipelineJobResult).stamp
      {n | ∃ sent, keyedDispatcher.ChainAttempt sampleDigest sampleHmac 0 fixedPauses true
        (unanswered _ _) sampleChain n sent} := by
  refine (unanswered_draws _ _).mono ?_
  rintro n ⟨sent, count, req, -, hMade⟩
  exact hMade.le_maxRetries (.inl rfl)

def atStamp : Verification := ⟨[1], some 1700000000, some 1700000000⟩

theorem seenEarlier_once {Request : Type} {attempts : Nat → Request → Prop}
    {message : Request → SignedMessage} {first : Request} (h : attempts 0 first) :
    SeenEarlier sampleDigest sampleHmac 300 attempts message 1
      (afterCalls sampleDigest sampleHmac 300 [⟨message first, atStamp⟩] .new) where
  history := ⟨.new, [⟨message first, atStamp⟩], rfl, fun _ _ _ => rfl,
    fun _ hIn => .inl ⟨0, Nat.one_pos, first, h,
      congrArg VerifyCall.message (List.mem_singleton.1 hIn)⟩⟩

theorem unanswered_job_again :
    ∃ sent, keyedDispatcher.JobAttempt sampleDigest sampleHmac 0 .new fixedPauses true
      (unanswered _ _) unansweredJob 1 sent := by
  refine ⟨_, 1, .new, _, rfl, Made.again .first (countedTurn_again_iff.2
    ⟨⟨"Job dispatch failed after 1 attempts: no responders", rfl⟩, rfl, by decide, ?_⟩)⟩
  change (backoffDelay true 500 1 0).isSome = true
  decide

theorem unanswered_chain_again :
    ∃ sent, keyedDispatcher.ChainAttempt sampleDigest sampleHmac 0 fixedPauses true
      (unanswered _ _) sampleChain 1 sent := by
  refine ⟨_, 1, _, rfl, Made.again .first (countedTurn_again_iff.2
    ⟨⟨"Job dispatch failed after 1 attempts: no responders", rfl⟩, rfl, by decide, ?_⟩)⟩
  change (backoffDelay true 500 1 0).isSome = true
  decide

/-- Of a job and of a chain that found no worker at first, the second attempt is accepted by a
worker that has seen the first. -/
theorem second_attempt_accepted :
    (∃ sent, keyedDispatcher.JobAttempt sampleDigest sampleHmac 0 .new fixedPauses true
        (unanswered _ _) unansweredJob 1 sent ∧
      ∀ first, keyedDispatcher.JobAttempt sampleDigest sampleHmac 0 .new fixedPauses true
          (unanswered _ _) unansweredJob 0 first →
        (sent.verify sampleDigest sampleHmac 300 atStamp
          (afterCalls sampleDigest sampleHmac 300 [⟨.jobRequest first, atStamp⟩] .new)).1 =
            .ok ()) ∧
    ∃ sent, keyedDispatcher.ChainAttempt sampleDigest sampleHmac 0 fixedPauses true
        (unanswered _ _) sampleChain 1 sent ∧
      ∀ first, keyedDispatcher.ChainAttempt sampleDigest sampleHmac 0 fixedPauses true
          (unanswered _ _) sampleChain 0 first →
        (sent.verify sampleDigest sampleHmac 300 atStamp
          (afterCalls sampleDigest sampleHmac 300 [⟨.pipelineJobRequest first, atStamp⟩] .new)).1 =
            .ok () := by
  obtain ⟨hJobs, hChains⟩ := retries_accepted_as_fresh sampleDigest sampleHmac keyedDispatcher [1]
    keyedDispatcher_key 0 .new fixedPauses true (unanswered _ _) unansweredJob (fun _ => rfl)
    unanswered_jobDraws (unanswered _ _) sampleChain (fun _ => rfl) unanswered_chainDraws 300
  constructor
  · obtain ⟨sent, hSent⟩ := unanswered_job_again
    refine ⟨sent, hSent, fun first hFirst => ?_⟩
    obtain ⟨ts, random, hStamp, rfl⟩ := jobAttempt_signed keyedDispatcher_key (fun _ => rfl) hSent
    cases hStamp
    exact ((hJobs 1 _ hSent).2 _ atStamp rfl (seenEarlier_once hFirst)).accepts
      (nonceTimestamp_freshNonce _ _) (by decide)
  · obtain ⟨sent, hSent⟩ := unanswered_chain_again
    refine ⟨sent, hSent, fun first hFirst => ?_⟩
    obtain ⟨ts, random, hStamp, rfl⟩ := chainAttempt_signed keyedDispatcher_key (fun _ => rfl) hSent
    cases hStamp
    exact ((hChains 1 _ hSent).2 _ atStamp rfl (seenEarlier_once hFirst)).accepts
      (nonceTimestamp_freshNonce _ _) (by decide)

end Samples

end NatsNodeDispatcher

end TalosWorkflow
