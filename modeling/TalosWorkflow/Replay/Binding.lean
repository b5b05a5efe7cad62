import TalosWorkflow.Replay.Dispatcher

/-!
# Which job an accepted result belongs to

The dispatcher verifies the signature, the freshness and the nonce of a reply,
and never looks at its job id. So the transport decides which of the signed
results that are still fresh is accepted.
-/

namespace TalosWorkflow

namespace NatsNodeDispatcher

section Requests

variable {digest : Sha256} {mac : Hmac} {D : NatsNodeDispatcher}

variable {Request α : Type} {sign : List UInt8 → UInt64 → BitVec 128 → Request → Request}
variable {stamp : Option (UInt64 × BitVec 128)} {req req' : Request}

theorem signed_same (field : Request → α)
    (h : D.signed sign stamp req = .ok req')
    (hSign : ∀ key ts random req, field (sign key ts random req) = field req) :
    field req' = field req := by
  simp only [signed] at h
  split at h
  · cases h
    rfl
  · cases h
    exact hSign _ _ _ req
  · cases h

theorem resigned_same (field : Request → α)
    (hSign : ∀ key ts random req, field (sign key ts random req) = field req) :
    field (D.resigned sign stamp req) = field req := by
  rw [resigned]
  split
  · exact signed_same field ‹_› hSign
  · rfl

end Requests

section Single

variable (digest : Sha256) (mac : Hmac) (D : NatsNodeDispatcher)
variable (x : Exchange JobRequest JobResult) (job : DispatchJob)
variable (freshId : Uuid) (cache : JobNonceCache)

/-- Message `k` of the dispatch is `sent`, with `seen` as the nonce cache. -/
def Sends (k : Nat) (sent : JobRequest) (seen : JobNonceCache) : Prop :=
  ∃ req, D.signed (JobRequest.sign digest mac) (x.stamp 0) (TalosWorkflow.dispatch job freshId {}) =
      .ok req ∧
    Tries (D.attemptJob digest mac x job) job.maxRetries.toNat (req, cache) k (sent, seen)

variable {digest mac D x job freshId cache}

theorem concludeResult_accepts {k : Nat} {sent again : JobRequest} {reply result : JobResult}
    {answer : Except String Unit × JobNonceCache} :
    (∃ t, D.concludeResult job k sent again reply answer = .done (.ok result) t) ↔
      answer.1 = .ok () ∧ reply.isSuccess = true ∧ reply = result := by
  obtain ⟨verified, seen⟩ := answer
  cases verified with
  | error e => simp [concludeResult]
  | ok =>
      rw [concludeResult]
      split
      · rename_i hSuccess
        simp [hSuccess]
      · rename_i hFailed
        constructor
        · rintro ⟨t, h⟩
          split at h <;> cases h
        · rintro ⟨-, hSuccess, -⟩
          exact absurd hSuccess hFailed

theorem attemptJob_accepts {k : Nat} {sent : JobRequest} {seen : JobNonceCache}
    {result : JobResult} :
    (∃ t, D.attemptJob digest mac x job k (sent, seen) = .done (.ok result) t) ↔
      x.deliver k sent = .response (.ok result) ∧
        (D.verifyJobResult digest mac x k result seen).1 = .ok () ∧ result.isSuccess = true := by
  rw [attemptJob]
  generalize x.deliver k sent = delivery
  cases delivery with
  | timedOut => simp
  | failed e => simp
  | response parsed =>
      cases parsed with
      | error e => simp
      | ok reply =>
          simp only [concludeResult_accepts]
          constructor
          · rintro ⟨hVerified, hSuccess, rfl⟩
            exact ⟨rfl, hVerified, hSuccess⟩
          · rintro ⟨hReply, hVerified, hSuccess⟩
            cases hReply
            exact ⟨hVerified, hSuccess, rfl⟩

theorem concludeResult_retry {k : Nat} {sent again : JobRequest} {reply : JobResult}
    {answer : Except String Unit × JobNonceCache} {t : JobRequest × JobNonceCache} {giveUp : String}
    (h : D.concludeResult job k sent again reply answer = .retry giveUp t) : t.1 = again := by
  obtain ⟨verified, seen⟩ := answer
  cases verified with
  | error e => cases h
  | ok =>
      rw [concludeResult] at h
      split at h
      · cases h
      · split at h
        · cases h
        · cases h
          rfl

theorem attemptJob_retry {k : Nat} {s t : JobRequest × JobNonceCache} {giveUp : String}
    (h : D.attemptJob digest mac x job k s = .retry giveUp t) :
    t.1 = D.resigned (JobRequest.sign digest mac) (x.stamp (k + 1)) s.1 := by
  rw [attemptJob] at h
  split at h
  · cases h
  · cases h
    rfl
  · cases h
  · exact concludeResult_retry h

theorem Sends.jobId {k : Nat} {sent : JobRequest} {seen : JobNonceCache}
    (h : D.Sends digest mac x job freshId cache k sent seen) :
    sent.jobId = job.jobId.getD freshId := by
  obtain ⟨req, hSigned, hTries⟩ := h
  have hFirst := signed_same JobRequest.jobId hSigned fun _ _ _ _ => rfl
  generalize hState : (sent, seen) = s at hTries
  have hSame : s.1.jobId = req.jobId := by
    clear hState
    induction hTries with
    | first => rfl
    | again hEarlier hLeft hRetry ih =>
        rw [attemptJob_retry hRetry, ← ih]
        exact resigned_same JobRequest.jobId fun _ _ _ _ => rfl
  rw [← hState] at hSame
  exact hSame.trans hFirst

theorem acceptedResult_ok_iff {result : JobResult} :
    (D.acceptedResult digest mac x job freshId cache).1 = .ok result ↔
      ∃ k sent seen, D.Sends digest mac x job freshId cache k sent seen ∧
        x.deliver k sent = .response (.ok result) ∧
          (D.verifyJobResult digest mac x k result seen).1 = .ok () ∧ result.isSuccess = true := by
  rw [acceptedResult]
  cases hSigned : D.signed (JobRequest.sign digest mac) (x.stamp 0)
      (TalosWorkflow.dispatch job freshId {}) with
  | error e =>
      constructor
      · intro h
        cases h
      · rintro ⟨k, sent, seen, ⟨req, hReq, -⟩, -⟩
        cases hSigned.symm.trans hReq
  | ok req =>
      simp only [retrying_ok_iff]
      constructor
      · rintro ⟨k, ⟨sent, seen⟩, t, hTries, hAttempt⟩
        exact ⟨k, sent, seen, ⟨req, hSigned, hTries⟩, attemptJob_accepts.1 ⟨t, hAttempt⟩⟩
      · rintro ⟨k, sent, seen, ⟨req', hReq, hTries⟩, hAccepts⟩
        cases hSigned.symm.trans hReq
        obtain ⟨t, hAttempt⟩ := attemptJob_accepts.2 hAccepts
        exact ⟨k, (sent, seen), t, hTries, hAttempt⟩

end Single

section Chain

variable (digest : Sha256) (mac : Hmac) (D : NatsNodeDispatcher)
variable (x : Exchange PipelineJobRequest PipelineJobResult) (request : ChainDispatchRequest)
variable (freshId : Uuid) (cache : JobNonceCache)

def SendsPipeline (k : Nat) (sent : PipelineJobRequest) : Prop :=
  ∃ req, D.signed (PipelineJobRequest.sign digest mac) (x.stamp 0)
      (TalosWorkflow.dispatchChain request freshId {}) = .ok req ∧
    Tries (D.attemptChain digest mac x) request.maxRetries.toNat req k sent

variable {digest mac D x request freshId cache}

theorem attemptChain_answers {k : Nat} {sent : PipelineJobRequest}
    {answer : Nat × Except String PipelineJobResult} :
    (∃ t, D.attemptChain digest mac x k sent = .done (.ok answer) t) ↔
      answer.1 = k ∧ x.deliver k sent = .response answer.2 := by
  rw [attemptChain]
  cases hDelivery : x.deliver k sent with
  | timedOut => simp
  | failed e => simp
  | response parsed =>
      constructor
      · rintro ⟨t, h⟩
        cases h
        exact ⟨rfl, rfl⟩
      · rintro ⟨hk, hReply⟩
        cases hReply
        exact ⟨sent, by rw [← hk]⟩

theorem attemptChain_retry {k : Nat} {s t : PipelineJobRequest} {giveUp : String}
    (h : D.attemptChain digest mac x k s = .retry giveUp t) :
    t = D.resigned (PipelineJobRequest.sign digest mac) (x.stamp (k + 1)) s := by
  rw [attemptChain] at h
  split at h
  · cases h
  · cases h
    rfl
  · cases h

theorem SendsPipeline.jobId {k : Nat} {sent : PipelineJobRequest}
    (h : D.SendsPipeline digest mac x request freshId k sent) :
    sent.jobId = request.jobId.getD freshId := by
  obtain ⟨req, hSigned, hTries⟩ := h
  have hFirst := signed_same PipelineJobRequest.jobId hSigned fun _ _ _ _ => rfl
  have hSame : sent.jobId = req.jobId := by
    induction hTries with
    | first => rfl
    | again hEarlier hLeft hRetry ih =>
        rw [attemptChain_retry hRetry, ← ih]
        exact resigned_same PipelineJobRequest.jobId fun _ _ _ _ => rfl
  exact hSame.trans hFirst

theorem acceptedPipelineResult_ok_iff {result : PipelineJobResult} :
    (D.acceptedPipelineResult digest mac x request freshId cache).1 = .ok result ↔
      ∃ k sent, D.SendsPipeline digest mac x request freshId k sent ∧
        x.deliver k sent = .response (.ok result) ∧
          (D.verifyPipelineResult digest mac x k result cache).1 = .ok () := by
  rw [acceptedPipelineResult]
  cases hSigned : D.signed (PipelineJobRequest.sign digest mac) (x.stamp 0)
      (TalosWorkflow.dispatchChain request freshId {}) with
  | error e =>
      constructor
      · intro h
        cases h
      · rintro ⟨k, sent, ⟨req, hReq, -⟩, -⟩
        cases hSigned.symm.trans hReq
  | ok req =>
      constructor
      · intro h
        simp only at h
        split at h
        · cases h
        · cases h
        · rename_i k reply hAnswer
          split at h
          · cases h
          · rename_i hVerify
            cases h
            obtain ⟨j, sent, t, hTries, hAttempt⟩ := retrying_ok_iff.1 hAnswer
            obtain ⟨rfl, hReply⟩ := attemptChain_answers.1 ⟨t, hAttempt⟩
            exact ⟨_, sent, ⟨req, hSigned, hTries⟩, hReply, congrArg Prod.fst hVerify⟩
      · rintro ⟨k, sent, ⟨req', hReq, hTries⟩, hReply, hVerify⟩
        cases hSigned.symm.trans hReq
        obtain ⟨t, hAttempt⟩ := attemptChain_answers.2 ⟨(rfl : (k, Except.ok result).1 = k), hReply⟩
        have hAnswer := retrying_ok_iff.2 ⟨k, sent, t, hTries, hAttempt⟩
        simp only [hAnswer]
        split
        · rename_i hError
          rw [hError] at hVerify
          cases hVerify
        · rfl

end Chain

section Issued

/-- What a worker has signed, with what it drew for it. -/
structure Issued (Result : Type) where
  body : Result
  ts : UInt64
  random : BitVec 128

/-- The transport may lose, delay and misdirect, but the results that it delivers were issued. -/
def DeliversIssued {Request Result : Type}
    (sign : List UInt8 → UInt64 → BitVec 128 → Result → Result) (key : List UInt8)
    (issued : Set (Issued Result)) (deliver : Nat → Request → Delivery Result) : Prop :=
  ∀ k sent result, deliver k sent = .response (.ok result) →
    ∃ i ∈ issued, result = sign key i.ts i.random i.body

/-- A result of this time is within the window of some attempt. -/
def FreshInTime {Request Result : Type} (x : Exchange Request Result) (retries : Nat)
    (ts : UInt64) : Prop :=
  ∃ k ≤ retries, WithinWindow resultMaxAgeSecs ((x.checkedAt k).getD 0) ts

/-- The transport that finds no responder until attempt `k`, and answers that one. -/
def answersAt {Request Result : Type} (k : Nat) (result : Result) :
    Nat → Request → Delivery Result :=
  fun j _ => if j = k then .response (.ok result) else .failed "no responders"

theorem answersAt_self {Request Result : Type} {k : Nat} {result : Result} {sent : Request} :
    answersAt k result k sent = .response (.ok result) := if_pos rfl

theorem answersAt_of_lt {Request Result : Type} {j k : Nat} {result : Result} {sent : Request}
    (h : j < k) : answersAt k result j sent = .failed "no responders" := if_neg h.ne

theorem answersAt_issued {Request Result : Type}
    {sign : List UInt8 → UInt64 → BitVec 128 → Result → Result} {key : List UInt8}
    {issued : Set (Issued Result)} {i : Issued Result} (h : i ∈ issued) (k : Nat) :
    DeliversIssued sign key issued
      (answersAt k (sign key i.ts i.random i.body) : Nat → Request → Delivery Result) := by
  intro j sent result hDelivers
  rw [answersAt] at hDelivers
  split at hDelivers
  · cases hDelivers
    exact ⟨i, h, rfl⟩
  · cases hDelivers

end Issued

section Binding

variable {digest : Sha256} {mac : Hmac} {D : NatsNodeDispatcher} {cache : JobNonceCache}
variable {key : List UInt8} {freshId : Uuid}

theorem signed_of_stamp {Request : Type}
    (sign : List UInt8 → UInt64 → BitVec 128 → Request → Request)
    {stamp : Option (UInt64 × BitVec 128)} (hKey : D.workerSharedKey = some key)
    (hStamp : stamp.isSome = true) (req : Request) :
    ∃ req', D.signed sign stamp req = .ok req' := by
  obtain ⟨⟨ts, random⟩, rfl⟩ := Option.isSome_iff_exists.1 hStamp
  simp only [signed, hKey]
  exact ⟨_, rfl⟩

theorem verifyJobResult_keyed {x : Exchange JobRequest JobResult} {k : Nat} {result : JobResult}
    (hKey : D.workerSharedKey = some key) :
    D.verifyJobResult digest mac x k result cache =
      (SignedMessage.jobResult result).verify digest mac resultMaxAgeSecs (x.verification key k)
        cache := by
  unfold verifyJobResult
  rw [hKey]
  rfl

theorem verifyPipelineResult_keyed {y : Exchange PipelineJobRequest PipelineJobResult} {k : Nat}
    {result : PipelineJobResult} (hKey : D.workerSharedKey = some key) :
    D.verifyPipelineResult digest mac y k result cache =
      (SignedMessage.pipelineJobResult result).verify digest mac resultMaxAgeSecs
        (y.verification key k) cache := by
  unfold verifyPipelineResult
  rw [hKey]
  rfl

/-- A transport that loses the first `k` messages lets the loop get to attempt `k`. -/
theorem sends_answersAt {x : Exchange JobRequest JobResult} {job : DispatchJob} {k : Nat}
    {result : JobResult} (hKey : D.workerSharedKey = some key)
    (hStamp : (x.stamp 0).isSome = true) (hRetries : k ≤ job.maxRetries.toNat) :
    ∃ sent, D.Sends digest mac { x with deliver := answersAt k result } job freshId cache k sent
      cache := by
  obtain ⟨req, hSigned⟩ := signed_of_stamp (JobRequest.sign digest mac) hKey hStamp
    (TalosWorkflow.dispatch job freshId {})
  have hLost : ∀ j < k, ∀ s, s.2 = cache → ∃ giveUp t, D.attemptJob digest mac
      { x with deliver := answersAt k result } job j s = .retry giveUp t ∧ t.2 = cache := by
    intro j hj s hSeen
    simp only [attemptJob, answersAt_of_lt hj]
    exact ⟨_, _, rfl, hSeen⟩
  obtain ⟨⟨sent, seen⟩, hTries, rfl⟩ :=
    exists_tries (fun s : JobRequest × JobNonceCache => s.2 = cache)
      (rfl : (req, cache).2 = cache) hLost hRetries
  exact ⟨sent, req, hSigned, hTries⟩

theorem sendsPipeline_answersAt {y : Exchange PipelineJobRequest PipelineJobResult}
    {request : ChainDispatchRequest} {k : Nat} {result : PipelineJobResult}
    (hKey : D.workerSharedKey = some key) (hStamp : (y.stamp 0).isSome = true)
    (hRetries : k ≤ request.maxRetries.toNat) :
    ∃ sent, D.SendsPipeline digest mac { y with deliver := answersAt k result } request freshId k
      sent := by
  obtain ⟨req, hSigned⟩ := signed_of_stamp (PipelineJobRequest.sign digest mac) hKey hStamp
    (TalosWorkflow.dispatchChain request freshId {})
  have hLost : ∀ j < k, ∀ s, True → ∃ giveUp t, D.attemptChain digest mac
      { y with deliver := answersAt k result } j s = .retry giveUp t ∧ True := by
    intro j hj s _
    simp only [attemptChain, answersAt_of_lt hj]
    exact ⟨_, _, rfl, trivial⟩
  obtain ⟨sent, hTries, -⟩ := exists_tries (fun _ => True) trivial hLost hRetries
  exact ⟨sent, req, hSigned, hTries⟩

/-- Some transport that delivers issued results has this one accepted exactly if it reports success
and is fresh in time. -/
theorem accepts_issued_iff {x : Exchange JobRequest JobResult} {job : DispatchJob}
    {issued : Set (Issued JobResult)} {result : JobResult} (hKey : D.workerSharedKey = some key)
    (hStamp : (x.stamp 0).isSome = true) :
    (∃ deliver cache, DeliversIssued (JobResult.sign digest mac) key issued deliver ∧
      (D.acceptedResult digest mac { x with deliver } job freshId cache).1 = .ok result) ↔
        ∃ i ∈ issued, result = i.body.sign digest mac key i.ts i.random ∧
          i.body.isSuccess = true ∧ FreshInTime x job.maxRetries.toNat i.ts := by
  simp only [acceptedResult_ok_iff, verifyJobResult_keyed hKey]
  constructor
  · rintro ⟨deliver, cache, hIssued, k, sent, seen, hSends, hReply, hVerified, hSuccess⟩
    obtain ⟨i, hIn, rfl⟩ := hIssued k sent result hReply
    obtain ⟨req, -, hTries⟩ := hSends
    exact ⟨i, hIn, rfl, hSuccess, k, hTries.le, SignedMessage.withinWindow_of_verify rfl hVerified⟩
  · rintro ⟨i, hIn, rfl, hSuccess, k, hRetries, hWindow⟩
    let result := i.body.sign digest mac key i.ts i.random
    obtain ⟨sent, hSends⟩ : ∃ sent, D.Sends digest mac { x with deliver := answersAt k result } job
        freshId .new k sent .new := sends_answersAt hKey hStamp hRetries
    have hCheck : (SignedMessage.jobResult result).check digest mac resultMaxAgeSecs
        (x.verification key k) = .ok i.ts :=
      JobResult.verifyNoReplay_sign (checkFreshness_ok.2 hWindow)
    exact ⟨_, .new, answersAt_issued hIn k, k, sent, .new, hSends, answersAt_self,
      SignedMessage.verify_new hCheck, hSuccess⟩

theorem accepts_issuedPipeline_iff {y : Exchange PipelineJobRequest PipelineJobResult}
    {request : ChainDispatchRequest} {issued : Set (Issued PipelineJobResult)}
    {result : PipelineJobResult} (hKey : D.workerSharedKey = some key)
    (hStamp : (y.stamp 0).isSome = true) :
    (∃ deliver cache, DeliversIssued (PipelineJobResult.sign digest mac) key issued deliver ∧
      (D.acceptedPipelineResult digest mac { y with deliver } request freshId cache).1 =
        .ok result) ↔
        ∃ i ∈ issued, result = i.body.sign digest mac key i.ts i.random ∧
          FreshInTime y request.maxRetries.toNat i.ts := by
  simp only [acceptedPipelineResult_ok_iff, verifyPipelineResult_keyed hKey]
  constructor
  · rintro ⟨deliver, cache, hIssued, k, sent, hSends, hReply, hVerified⟩
    obtain ⟨i, hIn, rfl⟩ := hIssued k sent result hReply
    obtain ⟨req, -, hTries⟩ := hSends
    exact ⟨i, hIn, rfl, k, hTries.le, SignedMessage.withinWindow_of_verify rfl hVerified⟩
  · rintro ⟨i, hIn, rfl, k, hRetries, hWindow⟩
    let result := i.body.sign digest mac key i.ts i.random
    obtain ⟨sent, hSends⟩ : ∃ sent, D.SendsPipeline digest mac
        { y with deliver := answersAt k result } request freshId k sent :=
      sendsPipeline_answersAt hKey hStamp hRetries
    have hCheck : (SignedMessage.pipelineJobResult result).check digest mac resultMaxAgeSecs
        (y.verification key k) = .ok i.ts :=
      PipelineJobResult.verifyNoReplay_sign (checkFreshness_ok.2 hWindow)
    exact ⟨_, .new, answersAt_issued hIn k, k, sent, hSends, answersAt_self,
      SignedMessage.verify_new hCheck⟩

/-- Under every transport that delivers issued results, only results of the dispatched job are
accepted exactly when no successful result of another job is fresh in time. Chains accept results
of every status. -/
theorem accepted_result_bound_iff (digest : Sha256) (mac : Hmac) (D : NatsNodeDispatcher)
    (key : List UInt8) (hKey : D.workerSharedKey = some key) (freshId : Uuid)
    (x : Exchange JobRequest JobResult) (job : DispatchJob) (hJobStamp : (x.stamp 0).isSome = true)
    (y : Exchange PipelineJobRequest PipelineJobResult) (request : ChainDispatchRequest)
    (hChainStamp : (y.stamp 0).isSome = true)
    (issued : Set (Issued JobResult)) (issuedPipelines : Set (Issued PipelineJobResult)) :
    ((∀ deliver cache, DeliversIssued (JobResult.sign digest mac) key issued deliver →
        ∀ result, (D.acceptedResult digest mac { x with deliver } job freshId cache).1 =
          .ok result → result.jobId = (TalosWorkflow.dispatch job freshId {}).jobId) ↔
      ∀ i ∈ issued, i.body.isSuccess = true → FreshInTime x job.maxRetries.toNat i.ts →
        i.body.jobId = (TalosWorkflow.dispatch job freshId {}).jobId) ∧
    ((∀ deliver cache,
        DeliversIssued (PipelineJobResult.sign digest mac) key issuedPipelines deliver →
        ∀ result, (D.acceptedPipelineResult digest mac { y with deliver } request freshId cache).1 =
          .ok result → result.jobId = (TalosWorkflow.dispatchChain request freshId {}).jobId) ↔
      ∀ i ∈ issuedPipelines, FreshInTime y request.maxRetries.toNat i.ts →
        i.body.jobId = (TalosWorkflow.dispatchChain request freshId {}).jobId) := by
  constructor
  · constructor
    · intro h i hIn hSuccess hFresh
      obtain ⟨deliver, cache, hIssued, hAccepted⟩ :=
        (accepts_issued_iff hKey hJobStamp).2 ⟨i, hIn, rfl, hSuccess, hFresh⟩
      exact h deliver cache hIssued (i.body.sign digest mac key i.ts i.random) hAccepted
    · intro h deliver cache hIssued result hAccepted
      obtain ⟨i, hIn, rfl, hSuccess, hFresh⟩ := (accepts_issued_iff hKey hJobStamp).1
        ⟨deliver, cache, hIssued, hAccepted⟩
      exact h i hIn hSuccess hFresh
  · constructor
    · intro h i hIn hFresh
      obtain ⟨deliver, cache, hIssued, hAccepted⟩ :=
        (accepts_issuedPipeline_iff hKey hChainStamp).2 ⟨i, hIn, rfl, hFresh⟩
      exact h deliver cache hIssued (i.body.sign digest mac key i.ts i.random) hAccepted
    · intro h deliver cache hIssued result hAccepted
      obtain ⟨i, hIn, rfl, hFresh⟩ := (accepts_issuedPipeline_iff hKey hChainStamp).1
        ⟨deliver, cache, hIssued, hAccepted⟩
      exact h i hIn hFresh

def sampleJob : DispatchJob where
  executionId := 0
  nodeId := 0
  moduleId := 0
  jobId := some 1
  userId := some 0
  actorId := none
  moduleUri := "redis:wasm:0"
  wasmBytes := none
  expectedWasmHash := none
  capabilityWorld := none
  integrationName := none
  inputPayload := .object []
  timeoutSecs := 30
  maxFuel := 1000000
  allowedHosts := []
  allowedMethods := []
  allowedSecrets := []
  allowedSqlOperations := []
  allowTier2Exposure := false
  encryptedSecretsCiphertext := []
  encryptedSecretsNonce := []
  priority := 100
  dryRun := false
  maxLlmTier := .tier2
  maxRetries := 0
  backoffMs := 500
  retryCondition := none
  retryDelayExpr := none
  emitRetryEvents := false

def sampleChain : ChainDispatchRequest where
  workflowExecutionId := 0
  userId := none
  jobId := some 1
  steps := []
  shareSandbox := true
  maxLlmTier := .tier2
  totalTimeoutSecs := 30
  maxRetries := 1
  backoffMs := 500
  retryCondition := none
  retryDelayExpr := none

def resultOfOtherJob : JobResult :=
  JobResult.sign sampleDigest sampleHmac [1] 1700000000 0
    { jobId := 2, status := .success, outputPayload := .null, logs := [], executionTimeMs := 0
      signature := [], resultNonce := "" }

/-- The transport answers with the result of job 2, within its second. -/
def misdelivered : Exchange JobRequest JobResult where
  deliver _ _ := .response (.ok resultOfOtherJob)
  stamp _ := some (1700000000, 0)
  checkedAt _ := some 1700000000
  recordedAt _ := some 1700000000

def keyedDispatcher : NatsNodeDispatcher where
  workerSharedKey := some [1]
  retryClassifier := ⟨fun _ => "unknown", fun _ => true⟩
  tryEvalBool _ _ := none

theorem keyedDispatcher_key : keyedDispatcher.workerSharedKey = some [1] := rfl

def settledAt (Request Reply : Type) (now : UInt64) : Exchange Request Reply where
  deliver _ _ := .timedOut
  stamp _ := some (now, 0)
  checkedAt _ := some now
  recordedAt _ := some now

/-- Job 1 has succeeded; job 2 has too, but long ago, and has just failed. -/
def issuedResults : Set (Issued JobResult) :=
  {⟨{ resultOfOtherJob with jobId := 1 }, 1700000000, 0⟩, ⟨resultOfOtherJob, 1600000000, 1⟩,
    ⟨{ resultOfOtherJob with status := .failed }, 1700000000, 2⟩}

def issuedPipelines : Set (Issued PipelineJobResult) :=
  {⟨{ jobId := 2, overallStatus := .failed, stepResults := [], finalOutput := .null
      totalTimeMs := 0, signature := [], resultNonce := "" }, 1700000000, 3⟩}

/-- Of these results job 1 accepts its own only, while the pipeline with its id accepts the failure
of another one. -/
theorem accepted_result_bound_iff_issued :
    (∀ deliver cache,
      DeliversIssued (JobResult.sign sampleDigest sampleHmac) [1] issuedResults deliver →
        ∀ result, (keyedDispatcher.acceptedResult sampleDigest sampleHmac
          { settledAt JobRequest JobResult 1700000000 with deliver } sampleJob 0 cache).1 =
            .ok result → result.jobId = (TalosWorkflow.dispatch sampleJob 0 {}).jobId) ∧
    ¬ ∀ deliver cache, DeliversIssued (PipelineJobResult.sign sampleDigest sampleHmac) [1]
      issuedPipelines deliver →
        ∀ result, (keyedDispatcher.acceptedPipelineResult sampleDigest sampleHmac
          { settledAt PipelineJobRequest PipelineJobResult 1700000000 with deliver } sampleChain 0
            cache).1 = .ok result →
            result.jobId = (TalosWorkflow.dispatchChain sampleChain 0 {}).jobId := by
  obtain ⟨hJobs, hPipelines⟩ := accepted_result_bound_iff sampleDigest sampleHmac keyedDispatcher
    [1] keyedDispatcher_key 0 (settledAt _ _ 1700000000) sampleJob rfl (settledAt _ _ 1700000000)
    sampleChain rfl issuedResults issuedPipelines
  constructor
  · refine hJobs.2 ?_
    rintro i (rfl | rfl | rfl) hSuccess ⟨k, -, hWindow⟩
    · decide
    · exact absurd hWindow (show ¬ WithinWindow 300 1700000000 1600000000 by decide)
    · cases hSuccess
  · intro hBound
    have hForeign := hPipelines.1 hBound _ rfl ⟨0, Nat.zero_le _, by decide⟩
    revert hForeign
    decide

/-- The result of job 2 is accepted for job 1. -/
theorem foreign_result_accepted :
    (keyedDispatcher.acceptedResult sampleDigest sampleHmac misdelivered sampleJob 0 .new).1 =
        .ok resultOfOtherJob ∧
      resultOfOtherJob.jobId ≠ (TalosWorkflow.dispatch sampleJob 0 {}).jobId := by
  constructor
  · rw [acceptedResult_ok_iff]
    refine ⟨0, _, .new, ⟨_, rfl, .first⟩, rfl, ?_, rfl⟩
    have hCheck : SignedMessage.check sampleDigest sampleHmac resultMaxAgeSecs
        (misdelivered.verification [1] 0) (.jobResult resultOfOtherJob) = .ok 1700000000 :=
      JobResult.verifyNoReplay_sign (by decide)
    rw [verifyJobResult_keyed keyedDispatcher_key]
    exact SignedMessage.verify_new hCheck
  · decide

end Binding

end NatsNodeDispatcher

end TalosWorkflow
