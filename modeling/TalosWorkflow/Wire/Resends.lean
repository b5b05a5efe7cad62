import TalosWorkflow.Replay.Binding
import TalosWorkflow.Wire.Acceptance

/-!
# Resending from the bytes

The dispatcher keeps the bytes of a request, and before a retry reads the
request from them to sign it anew.
-/

namespace TalosWorkflow

namespace WireFormat

variable (W : WireFormat)

def parseDelivery {α : Type} (read : Json → Option α) : Delivery (List UInt8) → Delivery α
  | .response (.ok bytes) => .response (W.fromSlice read bytes)
  | .response (.error e) => .response (.error e)
  | .failed message => .failed message
  | .timedOut => .timedOut

/-- A transport of bytes as a transport of messages. -/
def typed {Request Reply : Type} (write : Request → Json) (read : Json → Option Reply)
    (x : Exchange (List UInt8) (List UInt8)) : Exchange Request Reply where
  deliver := fun k req => W.parseDelivery read (x.deliver k (write req).toVec)
  stamp := x.stamp
  checkedAt := x.checkedAt
  recordedAt := x.recordedAt

end WireFormat

section Resending

variable (W : WireFormat) (digest : Sha256) (mac : Hmac)

/-- The bytes are read, signed anew and written again. -/
def resignPayload {Request : Type} (read : Json → Option Request) (write : Request → Json)
    (sign : UInt64 → BitVec 128 → Request → Request) (stamp : Option (UInt64 × BitVec 128))
    (payload : List UInt8) : Option (List UInt8) :=
  match W.fromSlice read payload with
  | .ok req => stamp.map fun (ts, random) => (write (sign ts random req)).toVec
  | .error _ => none

def resignPayloadForRetry (key : List UInt8) :
    Option (UInt64 × BitVec 128) → List UInt8 → Option (List UInt8) :=
  resignPayload W (JobRequest.ofJson W.toUuidFormat) JobRequest.toJson
    (JobRequest.sign digest mac key)

def resignPipelinePayloadForRetry (key : List UInt8) :
    Option (UInt64 × BitVec 128) → List UInt8 → Option (List UInt8) :=
  resignPayload W (PipelineJobRequest.ofJson W.toUuidFormat) PipelineJobRequest.toJson
    (PipelineJobRequest.sign digest mac key)

namespace NatsNodeDispatcher

variable (D : NatsNodeDispatcher)

/-- The payload of the next attempt: signed anew where there is a key and that succeeds. -/
def nextPayload
    (resign : List UInt8 → Option (UInt64 × BitVec 128) → List UInt8 → Option (List UInt8))
    (stamp : Option (UInt64 × BitVec 128)) (payload : List UInt8) : List UInt8 :=
  match D.workerSharedKey with
  | none => payload
  | some key => (resign key stamp payload).getD payload

section Single

variable (x : Exchange (List UInt8) (List UInt8)) (job : DispatchJob)

def verifyReply (k : Nat) (result : JobResult) (cache : JobNonceCache) :
    Except String Unit × JobNonceCache :=
  match D.workerSharedKey with
  | some key => result.verify digest mac resultMaxAgeSecs (x.verification key k) cache
  | none => (.ok (), cache)

/-- What a result leads to once its verification has answered. -/
def concludeReply (k : Nat) (payload again : List UInt8) (result : JobResult) :
    Except String Unit × JobNonceCache → Attempt (List UInt8 × JobNonceCache) String JobResult
  | (.error e, cache) =>
      .done (.error ("Job result signature verification failed: " ++ e)) (payload, cache)
  | (.ok (), cache) =>
      if result.isSuccess then .done (.ok result) (payload, cache)
      else
        match D.retryBlocked job result with
        | some message => .done (.error message) (payload, cache)
        | none =>
            .retry ("Job failed after " ++ toString (k + 1) ++ " attempts: " ++
              result.errorMessage ++ result.diagSuffix) (again, cache)

/-- One turn of `execute_job_with_retry` over the bytes. -/
def attemptPayload (k : Nat) : List UInt8 × JobNonceCache →
    Attempt (List UInt8 × JobNonceCache) String JobResult
  | (payload, cache) =>
      let again := D.nextPayload (resignPayloadForRetry W digest mac) (x.stamp (k + 1)) payload
      match W.parseDelivery (JobResult.ofJson W.toUuidFormat) (x.deliver k payload) with
      | .timedOut => .done (.error "Job execution timed out") (payload, cache)
      | .failed e =>
          .retry ("Job dispatch failed after " ++ toString (k + 1) ++ " attempts: " ++ e)
            (again, cache)
      | .response (.error e) =>
          .done (.error ("Failed to parse job result: " ++ e)) (payload, cache)
      | .response (.ok result) =>
          D.concludeReply job k payload again result (D.verifyReply digest mac x k result cache)

/-- `dispatch` with the request as the bytes that are sent. -/
def dispatchPayload (freshId : Uuid) (cache : JobNonceCache) :
    Except String Json × JobNonceCache :=
  match D.signed (JobRequest.sign digest mac) (x.stamp 0) (TalosWorkflow.dispatch job freshId {}) with
  | .error e => (.error ("Failed to sign job request: " ++ e), cache)
  | .ok req =>
      let answer := retrying (D.attemptPayload W digest mac x job) job.maxRetries.toNat 0
        (req.toJson.toVec, cache)
      (answer.1.map JobResult.outputPayload, answer.2.2)

end Single

section Chain

variable (x : Exchange (List UInt8) (List UInt8)) (request : ChainDispatchRequest)

/-- One turn of `dispatch_with_retry`, which keeps to the bytes on both sides. -/
def attemptPipelinePayload (k : Nat) (payload : List UInt8) :
    Attempt (List UInt8) String (Nat × Except String (List UInt8)) :=
  match x.deliver k payload with
  | .timedOut => .done (.error "Job execution timed out") payload
  | .failed e =>
      .retry ("Job dispatch failed after " ++ toString (k + 1) ++ " attempts: " ++ e)
        (D.nextPayload (resignPipelinePayloadForRetry W digest mac) (x.stamp (k + 1)) payload)
  | .response response => .done (.ok (k, response)) payload

def verifyPipelineReply (k : Nat) (result : PipelineJobResult) (cache : JobNonceCache) :
    Except String Unit × JobNonceCache :=
  match D.workerSharedKey with
  | some key => result.verify digest mac resultMaxAgeSecs (x.verification key k) cache
  | none => (.ok (), cache)

/-- `dispatch_chain` with the request as the bytes that are sent. -/
def dispatchChainPayload (freshId : Uuid) (cache : JobNonceCache) :
    Except String (List PipelineStepResult × Json × JobStatus) × JobNonceCache :=
  match D.signed (PipelineJobRequest.sign digest mac) (x.stamp 0)
    (TalosWorkflow.dispatchChain request freshId {}) with
  | .error e => (.error ("Failed to sign pipeline request: " ++ e), cache)
  | .ok req =>
      match (retrying (D.attemptPipelinePayload W digest mac x) request.maxRetries.toNat 0
        req.toJson.toVec).1 with
      | .error e => (.error e, cache)
      | .ok (k, response) =>
          match response.bind (W.fromSlice (PipelineJobResult.ofJson W.toUuidFormat)) with
          | .error e => (.error ("Failed to parse pipeline result: " ++ e), cache)
          | .ok result =>
              match D.verifyPipelineReply digest mac x k result cache with
              | (.error e, cache) =>
                  (.error ("Pipeline result signature verification failed: " ++ e), cache)
              | (.ok (), cache) =>
                  (.ok (result.stepResults, result.finalOutput, result.overallStatus), cache)

end Chain

end NatsNodeDispatcher

end Resending

section Refinement

variable {W : WireFormat} {digest : Sha256} {mac : Hmac} {D : NatsNodeDispatcher}
  {x : Exchange (List UInt8) (List UInt8)} {job : DispatchJob}

/-- A value that is read as it was written, where so many arrays and objects may still be opened. -/
def Json.SurvivesIn (W : WireFormat) (depth : Nat) (j : Json) : Prop :=
  j.IsValue ∧ j.ReadableIn W.keepsFloat depth

theorem JobRequest.fromSlice_toVec {req : JobRequest} (h : req.inputPayload.SurvivesIn W 126) :
    W.fromSlice (JobRequest.ofJson W.toUuidFormat) req.toJson.toVec = .ok req :=
  (W.fromSlice_toVec (JobRequest.readable_toJson h.2)).2 (JobRequest.ofJson_toJson _ h.1)

theorem PipelineJobRequest.fromSlice_toVec {req : PipelineJobRequest}
    (h : ∀ step ∈ req.steps, step.config.SurvivesIn W 124) :
    W.fromSlice (PipelineJobRequest.ofJson W.toUuidFormat) req.toJson.toVec = .ok req :=
  (W.fromSlice_toVec (PipelineJobRequest.readable_toJson fun step hStep => (h step hStep).2)).2
    (PipelineJobRequest.ofJson_toJson _ fun step hStep => (h step hStep).1)

theorem inputPayload_sign (key : List UInt8) (ts : UInt64) (random : BitVec 128) (req : JobRequest) :
    (JobRequest.sign digest mac key ts random req).inputPayload = req.inputPayload := rfl

theorem steps_sign (key : List UInt8) (ts : UInt64) (random : BitVec 128)
    (req : PipelineJobRequest) :
    (PipelineJobRequest.sign digest mac key ts random req).steps = req.steps := rfl

namespace NatsNodeDispatcher

theorem nextPayload_write {Request : Type} {read : Json → Option Request}
    {write : Request → Json} {sign : List UInt8 → UInt64 → BitVec 128 → Request → Request}
    {req : Request} (hRead : W.fromSlice read (write req).toVec = .ok req)
    (stamp : Option (UInt64 × BitVec 128)) :
    D.nextPayload (fun key => resignPayload W read write (sign key)) stamp (write req).toVec =
      (write (D.resigned sign stamp req)).toVec := by
  unfold nextPayload resigned signed
  cases D.workerSharedKey with
  | none => rfl
  | some key =>
      simp only [resignPayload, hRead]
      cases stamp with
      | none => rfl
      | some drawn => rfl

/-- The bytes of a request beside the nonces that have been seen. -/
def withPayload (s : JobRequest × JobNonceCache) : List UInt8 × JobNonceCache :=
  (s.1.toJson.toVec, s.2)

theorem concludeReply_toVec (k : Nat) (req again : JobRequest) (result : JobResult)
    (verified : Except String Unit × JobNonceCache) :
    D.concludeReply job k req.toJson.toVec again.toJson.toVec result verified =
      (D.concludeResult job k req again result verified).mapState withPayload := by
  obtain ⟨answer, cache⟩ := verified
  cases answer with
  | error e => rfl
  | ok _ =>
      rw [concludeReply, concludeResult]
      split
      · rfl
      · cases D.retryBlocked job result with
        | none => rfl
        | some message => rfl

theorem attemptPayload_toVec (k : Nat) (s : JobRequest × JobNonceCache)
    (hValue : s.1.inputPayload.SurvivesIn W 126) :
    D.attemptPayload W digest mac x job k (withPayload s) =
      (D.attemptJob digest mac (W.typed JobRequest.toJson (JobResult.ofJson W.toUuidFormat) x) job
        k s).mapState withPayload := by
  obtain ⟨req, cache⟩ := s
  have hNext : D.nextPayload (resignPayloadForRetry W digest mac) (x.stamp (k + 1))
      req.toJson.toVec =
        (D.resigned (JobRequest.sign digest mac) (x.stamp (k + 1)) req).toJson.toVec :=
    nextPayload_write (JobRequest.fromSlice_toVec hValue) _
  rw [withPayload, attemptPayload, attemptJob]
  simp only [hNext, WireFormat.typed]
  cases W.parseDelivery (JobResult.ofJson W.toUuidFormat) (x.deliver k req.toJson.toVec) with
  | timedOut => rfl
  | failed e => rfl
  | response parsed =>
      cases parsed with
      | error e => rfl
      | ok result => exact concludeReply_toVec k _ _ result _

theorem retrying_payload {req : JobRequest} (hValue : req.inputPayload.SurvivesIn W 126) (left : Nat)
    (cache : JobNonceCache) :
    retrying (D.attemptPayload W digest mac x job) left 0 (withPayload (req, cache)) =
      Prod.map id withPayload (retrying (D.attemptJob digest mac
        (W.typed JobRequest.toJson (JobResult.ofJson W.toUuidFormat) x) job) left 0 (req, cache)) := by
  have hMap : Prod.map (Except.map id) id
      (retrying (D.attemptPayload W digest mac x job) left 0 (withPayload (req, cache))) =
        Prod.map id withPayload (retrying (D.attemptJob digest mac
          (W.typed JobRequest.toJson (JobResult.ofJson W.toUuidFormat) x) job) left 0
            (req, cache)) := by
    refine retrying_map (p := fun s : JobRequest × JobNonceCache => s.1.inputPayload.SurvivesIn W 126)
      (fun k s hState => ?_) (fun k s giveUp t hState hRetry => ?_) left 0 (req, cache) hValue
    · rw [Attempt.mapAnswer_id]
      exact attemptPayload_toVec k s hState
    · rw [attemptJob_retry hRetry, resigned_same _ inputPayload_sign]
      exact hState
  rwa [Except.map_id, Prod.map_id, id] at hMap

section Chain

variable {request : ChainDispatchRequest}

theorem attemptPipelinePayload_toVec (k : Nat) (req : PipelineJobRequest)
    (hValues : ∀ step ∈ req.steps, step.config.SurvivesIn W 124) :
    (D.attemptPipelinePayload W digest mac x k req.toJson.toVec).mapAnswer
        (Prod.map id fun response =>
          response.bind (W.fromSlice (PipelineJobResult.ofJson W.toUuidFormat))) =
      (D.attemptChain digest mac (W.typed PipelineJobRequest.toJson
        (PipelineJobResult.ofJson W.toUuidFormat) x) k req).mapState
          fun req => req.toJson.toVec := by
  have hNext : D.nextPayload (resignPipelinePayloadForRetry W digest mac) (x.stamp (k + 1))
      req.toJson.toVec =
        (D.resigned (PipelineJobRequest.sign digest mac) (x.stamp (k + 1)) req).toJson.toVec :=
    nextPayload_write (PipelineJobRequest.fromSlice_toVec hValues) _
  rw [attemptPipelinePayload, attemptChain]
  simp only [hNext, WireFormat.typed]
  cases x.deliver k req.toJson.toVec with
  | timedOut => rfl
  | failed e => rfl
  | response parsed =>
      cases parsed with
      | error e => rfl
      | ok doc => rfl

theorem retrying_pipelinePayload {req : PipelineJobRequest}
    (hValues : ∀ step ∈ req.steps, step.config.SurvivesIn W 124) (left : Nat) :
    (retrying (D.attemptChain digest mac (W.typed PipelineJobRequest.toJson
        (PipelineJobResult.ofJson W.toUuidFormat) x)) left 0 req).1 =
      (retrying (D.attemptPipelinePayload W digest mac x) left 0 req.toJson.toVec).1.map
        (Prod.map id fun response =>
          response.bind (W.fromSlice (PipelineJobResult.ofJson W.toUuidFormat))) := by
  refine (congrArg Prod.fst (retrying_map
    (p := fun req : PipelineJobRequest => ∀ step ∈ req.steps, step.config.SurvivesIn W 124)
    (fun k req hState => attemptPipelinePayload_toVec k req hState)
    (fun k req giveUp t hState hRetry => ?_) left 0 req hValues)).symm
  rw [attemptChain_retry hRetry, resigned_same _ steps_sign]
  exact hState

end Chain

variable {request : ChainDispatchRequest} {freshId : Uuid} {cache : JobNonceCache}

theorem dispatchPayload_eq (hJob : job.inputPayload.SurvivesIn W 126) :
    D.dispatchPayload W digest mac x job freshId cache =
      D.dispatch digest mac (W.typed JobRequest.toJson (JobResult.ofJson W.toUuidFormat) x) job
        freshId cache := by
  have hStamp : (W.typed JobRequest.toJson (JobResult.ofJson W.toUuidFormat) x).stamp = x.stamp := rfl
  unfold dispatchPayload dispatch acceptedResult
  rw [hStamp]
  cases hSigned : D.signed (JobRequest.sign digest mac) (x.stamp 0)
      (TalosWorkflow.dispatch job freshId {}) with
  | error e => rfl
  | ok req =>
      have hValue : req.inputPayload.SurvivesIn W 126 := by
        rw [signed_same _ hSigned inputPayload_sign]
        exact hJob
      exact congrArg (fun answer => (answer.1.map JobResult.outputPayload, answer.2.2))
        (retrying_payload hValue job.maxRetries.toNat cache)

theorem dispatchChainPayload_eq
    (hSteps : ∀ step ∈ request.steps, step.inputPayload.SurvivesIn W 124) :
    D.dispatchChainPayload W digest mac x request freshId cache =
      D.dispatchChain digest mac (W.typed PipelineJobRequest.toJson
        (PipelineJobResult.ofJson W.toUuidFormat) x) request freshId cache := by
  have hStamp : (W.typed PipelineJobRequest.toJson (PipelineJobResult.ofJson W.toUuidFormat)
    x).stamp = x.stamp := rfl
  unfold dispatchChainPayload dispatchChain acceptedPipelineResult
  rw [hStamp]
  cases hSigned : D.signed (PipelineJobRequest.sign digest mac) (x.stamp 0)
      (TalosWorkflow.dispatchChain request freshId {}) with
  | error e => rfl
  | ok req =>
      have hValues : ∀ step ∈ req.steps, step.config.SurvivesIn W 124 := by
        rw [signed_same _ hSigned steps_sign]
        intro step hStep
        obtain ⟨member, hMember, rfl⟩ := List.mem_map.1 hStep
        exact hSteps member hMember
      simp only [retrying_pipelinePayload hValues]
      cases (retrying (D.attemptPipelinePayload W digest mac x) request.maxRetries.toNat 0
          req.toJson.toVec).1 with
      | error e => rfl
      | ok answer =>
          obtain ⟨k, response⟩ := answer
          simp only [Except.map, Prod.map, id]
          cases response.bind (W.fromSlice (PipelineJobResult.ofJson W.toUuidFormat)) with
          | error e => rfl
          | ok result =>
              have hVerify : D.verifyPipelineResult digest mac (W.typed PipelineJobRequest.toJson
                  (PipelineJobResult.ofJson W.toUuidFormat) x) k result cache =
                  D.verifyPipelineReply digest mac x k result cache := rfl
              simp only [hVerify]
              cases D.verifyPipelineReply digest mac x k result cache with
              | mk verified seen =>
                  cases verified with
                  | error e => rfl
                  | ok _ => rfl

end NatsNodeDispatcher

/-- When the parser keeps the floats of the payloads and opens all that they nest, the dispatcher
that resends from the bytes is the one that resends from the message: every transport is sent the
same bytes and the same is made of what it answers, for jobs and for pipelines. -/
theorem resends_from_bytes (W : WireFormat) (digest : Sha256) (mac : Hmac)
    (D : NatsNodeDispatcher) (x : Exchange (List UInt8) (List UInt8)) (job : DispatchJob)
    (request : ChainDispatchRequest) (freshId : Uuid) (cache : JobNonceCache)
    (hJob : job.inputPayload.SurvivesIn W 126)
    (hSteps : ∀ step ∈ request.steps, step.inputPayload.SurvivesIn W 124) :
    D.dispatchPayload W digest mac x job freshId cache =
        D.dispatch digest mac (W.typed JobRequest.toJson (JobResult.ofJson W.toUuidFormat) x) job
          freshId cache ∧
      D.dispatchChainPayload W digest mac x request freshId cache =
        D.dispatchChain digest mac (W.typed PipelineJobRequest.toJson
          (PipelineJobResult.ofJson W.toUuidFormat) x) request freshId cache :=
  ⟨NatsNodeDispatcher.dispatchPayload_eq hJob, NatsNodeDispatcher.dispatchChainPayload_eq hSteps⟩

/-- The first request is lost on the way; nobody answers the second. -/
def lostThenSilent : Exchange (List UInt8) (List UInt8) where
  deliver k _ := if k = 0 then .failed "connection closed" else .timedOut
  stamp k := some (1700000000, BitVec.ofNat 128 (k + 5))
  checkedAt _ := none
  recordedAt _ := none

def patientJob : DispatchJob := { NatsNodeDispatcher.sampleJob with maxRetries := 2 }

def patientChain : ChainDispatchRequest :=
  ⟨0, none, none, [patientJob], true, .tier2, 30, 1, 500, none, none⟩

theorem resends_from_bytes_lost :
    NatsNodeDispatcher.keyedDispatcher.dispatchPayload hyphenatedWire sampleDigest sampleHmac
        lostThenSilent patientJob 0 .new =
      NatsNodeDispatcher.keyedDispatcher.dispatch sampleDigest sampleHmac
        (hyphenatedWire.typed JobRequest.toJson (JobResult.ofJson hyphenated) lostThenSilent)
        patientJob 0 .new ∧
    NatsNodeDispatcher.keyedDispatcher.dispatchChainPayload hyphenatedWire sampleDigest sampleHmac
        lostThenSilent patientChain 0 .new =
      NatsNodeDispatcher.keyedDispatcher.dispatchChain sampleDigest sampleHmac
        (hyphenatedWire.typed PipelineJobRequest.toJson (PipelineJobResult.ofJson hyphenated)
          lostThenSilent) patientChain 0 .new := by
  refine resends_from_bytes hyphenatedWire _ _ NatsNodeDispatcher.keyedDispatcher lostThenSilent
    patientJob patientChain 0 .new ?_ ?_
  · exact ⟨⟨List.Pairwise.nil, trivial⟩, Json.readableIn_object.2 (List.forall_mem_nil _)⟩
  · intro step hStep
    obtain rfl : step = patientJob := List.mem_singleton.1 hStep
    exact ⟨⟨List.Pairwise.nil, trivial⟩, Json.readableIn_object.2 (List.forall_mem_nil _)⟩

end Refinement

end TalosWorkflow
