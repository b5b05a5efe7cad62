import TalosWorkflow.Jobs
import TalosWorkflow.Library.Retry
import TalosWorkflow.Replay.NonceCache

/-!
# The NATS dispatcher

How a signed message is sent, again if need be, and which reply is accepted for
it. The pauses between attempts and the events about them are left out.
-/

namespace TalosWorkflow

/-- What comes back for a request; the bytes of a response are given by what they parse to. -/
inductive Delivery (α : Type) where
  | response (parsed : Except String α)
  | failed (message : String)
  | timedOut

structure RetryClassifier where
  classify : String → String
  isTransient : String → Bool

structure NatsNodeDispatcher where
  workerSharedKey : Option (List UInt8)
  retryClassifier : RetryClassifier
  /-- `try_eval_bool`. -/
  tryEvalBool : String → Json → Option Bool

/-- The transport and the clocks during one dispatch. Signing reads the clock and draws random
bytes, and fails on a clock before the epoch. -/
structure Exchange (Request Reply : Type) where
  deliver : Nat → Request → Delivery Reply
  stamp : Nat → Option (UInt64 × BitVec 128)
  checkedAt : Nat → ClockReading
  recordedAt : Nat → ClockReading

def Exchange.verification {Request Reply : Type} (x : Exchange Request Reply) (key : List UInt8)
    (k : Nat) : Verification :=
  ⟨key, x.checkedAt k, x.recordedAt k⟩

namespace JobResult

def payloadSuccessFalse (result : JobResult) : Bool :=
  (result.outputPayload.get "success").bind Json.asBool = some false

def isSuccess (result : JobResult) : Bool :=
  result.status = .success && !result.payloadSuccessFalse

def payloadError (result : JobResult) : Option String :=
  (result.outputPayload.get "error").bind Json.asStr

def errorMessage (result : JobResult) : String :=
  result.payloadError.getD result.outputPayload.text

def diagSuffix (result : JobResult) : String :=
  match result.outputPayload.get "diag" with
  | some diag => " | diag: " ++ diag.text
  | none => ""

end JobResult

section Dispatch

variable (digest : Sha256) (mac : Hmac)

/-- Results are verified with a window of five minutes. -/
def resultMaxAgeSecs : UInt64 := 300

namespace NatsNodeDispatcher

variable (D : NatsNodeDispatcher)

/-- Without a key the message stays unsigned. -/
def signed {Request : Type} (sign : List UInt8 → UInt64 → BitVec 128 → Request → Request)
    (stamp : Option (UInt64 × BitVec 128)) (req : Request) : Except String Request :=
  match D.workerSharedKey, stamp with
  | none, _ => .ok req
  | some key, some (ts, random) => .ok (sign key ts random req)
  | some _, none => .error "system time error: second time provided was later than self"

/-- Before a retry the message is signed anew, and sent unchanged where that fails. -/
def resigned {Request : Type} (sign : List UInt8 → UInt64 → BitVec 128 → Request → Request)
    (stamp : Option (UInt64 × BitVec 128)) (req : Request) : Request :=
  match D.signed sign stamp req with
  | .ok req => req
  | .error _ => req

section Single

variable (x : Exchange JobRequest JobResult) (job : DispatchJob)

def verifyJobResult (k : Nat) (result : JobResult) (cache : JobNonceCache) :
    Except String Unit × JobNonceCache :=
  match D.workerSharedKey with
  | some key => result.verify digest mac resultMaxAgeSecs (x.verification key k) cache
  | none => (.ok (), cache)

/-- Why a failed job is not retried although retries may be left. -/
def retryBlocked (result : JobResult) : Option String :=
  match job.retryCondition with
  | some condition =>
      if (D.tryEvalBool condition result.outputPayload).getD true then none
      else some ("Job failed (retry_condition not met): " ++ result.errorMessage)
  | none =>
      let error := result.payloadError.getD ""
      let classification := D.retryClassifier.classify error
      if 0 < job.maxRetries ∧ D.retryClassifier.isTransient classification = false then
        some ("Job failed (non-transient: " ++ classification ++ "): " ++ error)
      else none

/-- What a result leads to once its verification has answered. -/
def concludeResult (k : Nat) (req again : JobRequest) (result : JobResult) :
    Except String Unit × JobNonceCache → Attempt (JobRequest × JobNonceCache) String JobResult
  | (.error e, cache) =>
      .done (.error ("Job result signature verification failed: " ++ e)) (req, cache)
  | (.ok (), cache) =>
      if result.isSuccess then .done (.ok result) (req, cache)
      else
        match D.retryBlocked job result with
        | some message => .done (.error message) (req, cache)
        | none =>
            .retry ("Job failed after " ++ toString (k + 1) ++ " attempts: " ++
              result.errorMessage ++ result.diagSuffix) (again, cache)

/-- One turn of `execute_job_with_retry`. -/
def attemptJob (k : Nat) : JobRequest × JobNonceCache →
    Attempt (JobRequest × JobNonceCache) String JobResult
  | (req, cache) =>
      let again := D.resigned (JobRequest.sign digest mac) (x.stamp (k + 1)) req
      match x.deliver k req with
      | .timedOut => .done (.error "Job execution timed out") (req, cache)
      | .failed e =>
          .retry ("Job dispatch failed after " ++ toString (k + 1) ++ " attempts: " ++ e)
            (again, cache)
      | .response (.error e) => .done (.error ("Failed to parse job result: " ++ e)) (req, cache)
      | .response (.ok result) =>
          D.concludeResult job k req again result (D.verifyJobResult digest mac x k result cache)

def acceptedResult (freshId : Uuid) (cache : JobNonceCache) :
    Except String JobResult × JobNonceCache :=
  match D.signed (JobRequest.sign digest mac) (x.stamp 0) (TalosWorkflow.dispatch job freshId {}) with
  | .error e => (.error ("Failed to sign job request: " ++ e), cache)
  | .ok req =>
      let answer := retrying (D.attemptJob digest mac x job) job.maxRetries.toNat 0 (req, cache)
      (answer.1, answer.2.2)

def dispatch (freshId : Uuid) (cache : JobNonceCache) : Except String Json × JobNonceCache :=
  let answer := D.acceptedResult digest mac x job freshId cache
  (answer.1.map JobResult.outputPayload, answer.2)

end Single

section Chain

variable (x : Exchange PipelineJobRequest PipelineJobResult) (request : ChainDispatchRequest)

/-- One turn of `dispatch_with_retry`: any response ends the loop. -/
def attemptChain (k : Nat) (req : PipelineJobRequest) :
    Attempt PipelineJobRequest String (Nat × Except String PipelineJobResult) :=
  match x.deliver k req with
  | .timedOut => .done (.error "Job execution timed out") req
  | .failed e =>
      .retry ("Job dispatch failed after " ++ toString (k + 1) ++ " attempts: " ++ e)
        (D.resigned (PipelineJobRequest.sign digest mac) (x.stamp (k + 1)) req)
  | .response parsed => .done (.ok (k, parsed)) req

def verifyPipelineResult (k : Nat) (result : PipelineJobResult) (cache : JobNonceCache) :
    Except String Unit × JobNonceCache :=
  match D.workerSharedKey with
  | some key => result.verify digest mac resultMaxAgeSecs (x.verification key k) cache
  | none => (.ok (), cache)

/-- A pipeline result is accepted whatever its status. -/
def acceptedPipelineResult (freshId : Uuid) (cache : JobNonceCache) :
    Except String PipelineJobResult × JobNonceCache :=
  match D.signed (PipelineJobRequest.sign digest mac) (x.stamp 0)
    (TalosWorkflow.dispatchChain request freshId {}) with
  | .error e => (.error ("Failed to sign pipeline request: " ++ e), cache)
  | .ok req =>
      match (retrying (D.attemptChain digest mac x) request.maxRetries.toNat 0 req).1 with
      | .error e => (.error e, cache)
      | .ok (_, .error e) => (.error ("Failed to parse pipeline result: " ++ e), cache)
      | .ok (k, .ok result) =>
          match D.verifyPipelineResult digest mac x k result cache with
          | (.error e, cache) =>
              (.error ("Pipeline result signature verification failed: " ++ e), cache)
          | (.ok (), cache) => (.ok result, cache)

/-- The steps with their statuses, the final output and the overall status. -/
def dispatchChain (freshId : Uuid) (cache : JobNonceCache) :
    Except String (List PipelineStepResult × Json × JobStatus) × JobNonceCache :=
  let answer := D.acceptedPipelineResult digest mac x request freshId cache
  (answer.1.map fun result => (result.stepResults, result.finalOutput, result.overallStatus),
    answer.2)

end Chain

end NatsNodeDispatcher

end Dispatch

end TalosWorkflow
