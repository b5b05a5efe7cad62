import TalosWorkflow.Replay.NonceCache
import TalosWorkflow.Signing.Results

/-!
# Messages under one key

Five types of messages are signed with the shared key. Their texts start with
different words: an identifier or a marker, and behind an identifier another
one or a status. How a 32-bit float is displayed is a parameter.
-/

namespace TalosWorkflow

/-- A 32-bit float, by its bits. -/
structure F32 where
  bits : BitVec 32
  deriving DecidableEq

structure WorkerHeartbeat where
  workerId : Uuid
  capabilities : List String
  cpuUsagePct : F32
  signature : List UInt8
  heartbeatNonce : String

section Heartbeats

variable (display : F32 → List Char) (mac : Hmac) (maxAgeSecs : UInt64)

namespace WorkerHeartbeat

def signingText (beat : WorkerHeartbeat) : List Char :=
  [':'].intercalate
    ["heartbeat".toList, beat.workerId.chars, beat.heartbeatNonce.toList, display beat.cpuUsagePct,
      [','].intercalate (beat.capabilities.map String.toList)]

def signingPayload (beat : WorkerHeartbeat) : List UInt8 :=
  utf8 (String.ofList (beat.signingText display))

def sign (key : List UInt8) (ts : UInt64) (random : BitVec 128) (beat : WorkerHeartbeat) :
    WorkerHeartbeat :=
  let beat := { beat with heartbeatNonce := freshNonce ts random }
  { beat with signature := mac key (beat.signingPayload display) }

def check (beat : WorkerHeartbeat) (v : Verification) : Except String UInt64 :=
  checkSigned "heartbeat_nonce" beat.heartbeatNonce parseNonce mac v.key
    (beat.signingPayload display) beat.signature (v.checkedAt.getD 0) maxAgeSecs

def verify (beat : WorkerHeartbeat) (v : Verification) :
    JobNonceCache → Except String Unit × JobNonceCache :=
  verifyOnce maxAgeSecs "heartbeat_nonce" beat.heartbeatNonce (beat.check display mac maxAgeSecs v) v

end WorkerHeartbeat

end Heartbeats

inductive KeyedMessage where
  | signed (message : SignedMessage)
  | heartbeat (beat : WorkerHeartbeat)

inductive MessageType where
  | jobRequest
  | jobResult
  | pipelineJobRequest
  | pipelineJobResult
  | workerHeartbeat
  deriving DecidableEq

def SignedMessage.messageType : SignedMessage → MessageType
  | .jobRequest _ => .jobRequest
  | .jobResult _ => .jobResult
  | .pipelineJobRequest _ => .pipelineJobRequest
  | .pipelineJobResult _ => .pipelineJobResult

def SignedMessage.signingText (digest : Sha256) : SignedMessage → List Char
  | .jobRequest req => req.signingText digest
  | .jobResult result => result.signingText digest
  | .pipelineJobRequest req => req.signingText digest
  | .pipelineJobResult result => result.signingText digest

namespace KeyedMessage

def messageType : KeyedMessage → MessageType
  | .signed message => message.messageType
  | .heartbeat _ => .workerHeartbeat

variable (display : F32 → List Char) (digest : Sha256)

def signingText : KeyedMessage → List Char
  | .signed message => message.signingText digest
  | .heartbeat beat => beat.signingText display

def signingPayload (message : KeyedMessage) : List UInt8 :=
  utf8 (String.ofList (message.signingText display digest))

def opening : KeyedMessage → List Char × List Char
  | .signed (.jobRequest req) => (req.jobId.chars, req.workflowExecutionId.chars)
  | .signed (.jobResult result) => (result.jobId.chars, result.status.statusStr.toList)
  | .signed (.pipelineJobRequest req) => ("pipeline".toList, req.jobId.chars)
  | .signed (.pipelineJobResult result) => ("pipeline_result".toList, result.jobId.chars)
  | .heartbeat beat => ("heartbeat".toList, beat.workerId.chars)

end KeyedMessage

def MessageType.ofOpening (opening : List Char × List Char) : MessageType :=
  if opening.1 = "pipeline".toList then .pipelineJobRequest
  else if opening.1 = "pipeline_result".toList then .pipelineJobResult
  else if opening.1 = "heartbeat".toList then .workerHeartbeat
  else if opening.2 = JobStatus.success.statusStr.toList ∨
      opening.2 = JobStatus.failed.statusStr.toList ∨
      opening.2 = JobStatus.timedOut.statusStr.toList then .jobResult
  else .jobRequest

section Separation

theorem Uuid.chars_ne {w : List Char} (h : (w.filter (· ≠ '-')).length ≠ 32) (id : Uuid) :
    id.chars ≠ w := by
  rintro rfl
  rw [Uuid.filter_chars, length_hexDigits] at h
  exact h rfl

namespace KeyedMessage

variable {display : F32 → List Char} {digest : Sha256} {message message' : KeyedMessage}

theorem ofOpening_chars (id : Uuid) (second : List Char) :
    MessageType.ofOpening (id.chars, second) =
      if second = JobStatus.success.statusStr.toList ∨ second = JobStatus.failed.statusStr.toList ∨
        second = JobStatus.timedOut.statusStr.toList then .jobResult else .jobRequest := by
  have hPipeline : id.chars ≠ "pipeline".toList := id.chars_ne (by decide)
  have hResult : id.chars ≠ "pipeline_result".toList := id.chars_ne (by decide)
  have hBeat : id.chars ≠ "heartbeat".toList := id.chars_ne (by decide)
  rw [MessageType.ofOpening, if_neg hPipeline, if_neg hResult, if_neg hBeat]

theorem chars_ne_statusStr (id : Uuid) (status : JobStatus) :
    id.chars ≠ status.statusStr.toList := by
  apply Uuid.chars_ne
  cases status <;> decide

theorem ofOpening_opening (message : KeyedMessage) :
    MessageType.ofOpening message.opening = message.messageType := by
  cases message with
  | signed message =>
      cases message with
      | jobRequest req =>
          refine (ofOpening_chars _ _).trans (if_neg ?_)
          rintro (h | h | h) <;> exact chars_ne_statusStr _ _ h
      | jobResult result =>
          refine (ofOpening_chars _ _).trans (if_pos ?_)
          cases result.status with
          | success => exact .inl rfl
          | failed => exact .inr (.inl rfl)
          | timedOut => exact .inr (.inr rfl)
      | pipelineJobRequest req => exact if_pos rfl
      | pipelineJobResult result =>
          have hFirst : "pipeline_result".toList ≠ "pipeline".toList := by decide
          exact (if_neg hFirst).trans (if_pos rfl)
  | heartbeat beat =>
      have hFirst : "heartbeat".toList ≠ "pipeline".toList := by decide
      have hSecond : "heartbeat".toList ≠ "pipeline_result".toList := by decide
      exact (if_neg hFirst).trans ((if_neg hSecond).trans (if_pos rfl))

theorem plainField_opening (message : KeyedMessage) :
    message.opening.1 ∈ plainField ∧ message.opening.2 ∈ plainField := by
  have hPipeline : "pipeline".toList ∈ plainField := plainField_of_notMem (by decide)
  have hResult : "pipeline_result".toList ∈ plainField := plainField_of_notMem (by decide)
  have hBeat : "heartbeat".toList ∈ plainField := plainField_of_notMem (by decide)
  cases message with
  | signed message =>
      cases message with
      | jobRequest req => exact ⟨plainField_chars _, plainField_chars _⟩
      | jobResult result => exact ⟨plainField_chars _, plainField_status _⟩
      | pipelineJobRequest req => exact ⟨hPipeline, plainField_chars _⟩
      | pipelineJobResult result => exact ⟨hResult, plainField_chars _⟩
  | heartbeat beat => exact ⟨hBeat, plainField_chars _⟩

theorem signingText_opening (display : F32 → List Char) (digest : Sha256)
    (message : KeyedMessage) : ∃ rest, rest ≠ [] ∧ message.signingText display digest =
      [':'].intercalate (message.opening.1 :: message.opening.2 :: rest) := by
  cases message with
  | signed message =>
      cases message with
      | jobRequest req =>
          rw [signingText, SignedMessage.signingText, JobRequest.signingText]
          refine ⟨_, ?_, rfl⟩
          exact List.cons_ne_nil _ _
      | jobResult result =>
          rw [signingText, SignedMessage.signingText, JobResult.signingText]
          refine ⟨_, ?_, rfl⟩
          exact List.cons_ne_nil _ _
      | pipelineJobRequest req =>
          rw [signingText, SignedMessage.signingText, PipelineJobRequest.signingText]
          refine ⟨_, ?_, rfl⟩
          exact List.cons_ne_nil _ _
      | pipelineJobResult result =>
          rw [signingText, SignedMessage.signingText, PipelineJobResult.signingText]
          refine ⟨_, ?_, rfl⟩
          exact List.cons_ne_nil _ _
  | heartbeat beat =>
      rw [signingText, WorkerHeartbeat.signingText]
      refine ⟨_, ?_, rfl⟩
      exact List.cons_ne_nil _ _

theorem messageType_of_signingText
    (h : message.signingText display digest = message'.signingText display digest) :
    message.messageType = message'.messageType := by
  obtain ⟨rest, hRest, hText⟩ := signingText_opening display digest message
  obtain ⟨rest', hRest', hText'⟩ := signingText_opening display digest message'
  obtain ⟨hFirst, hSecond⟩ := plainField_opening message
  obtain ⟨hFirst', hSecond'⟩ := plainField_opening message'
  rw [hText, hText'] at h
  obtain ⟨hHead, hTail⟩ := head_inj delimited_plainField hFirst hFirst' (List.cons_ne_nil _ _)
    (List.cons_ne_nil _ _) h
  obtain ⟨hNext, -⟩ := head_inj delimited_plainField hSecond hSecond' hRest hRest' hTail
  rw [← ofOpening_opening message, ← ofOpening_opening message', Prod.ext hHead hNext]

/-- Messages of different types have different payloads, so the signature of the one is not valid
for the other, as long as the code does not collide on the two. -/
theorem domain_separation (display : F32 → List Char) (digest : Sha256)
    (message message' : KeyedMessage) (hType : message.messageType ≠ message'.messageType) :
    message.signingPayload display digest ≠ message'.signingPayload display digest ∧
      ∀ (mac : Hmac) (key : List UInt8),
        (mac key (message'.signingPayload display digest) =
            mac key (message.signingPayload display digest) →
          message'.signingPayload display digest = message.signingPayload display digest) →
        checkSignature mac key (message'.signingPayload display digest)
          (mac key (message.signingPayload display digest)) ≠ .ok () := by
  have hPayload : message.signingPayload display digest ≠
      message'.signingPayload display digest := by
    intro h
    exact hType (messageType_of_signingText (String.ofList_injective (utf8_injective h)))
  refine ⟨hPayload, ?_⟩
  intro mac key hMac hAccepted
  exact hPayload (hMac (checkSignature_ok.1 hAccepted)).symm

/-- The true tags of two messages under the key 7, told by the first byte. -/
def knownHmac : Hmac := fun _ payload =>
  if payload.head? = some 104 then
    [211, 46, 51, 25, 58, 123, 225, 32, 217, 150, 194, 102, 252, 92, 18, 11, 125, 207, 214, 73, 20,
      174, 9, 213, 231, 95, 4, 229, 150, 194, 181, 208]
  else
    [129, 207, 12, 183, 229, 211, 242, 120, 111, 33, 108, 135, 145, 97, 251, 32, 67, 229, 196, 154,
      16, 146, 2, 98, 212, 17, 195, 149, 132, 246, 114, 69]

def plainHeartbeat : WorkerHeartbeat where
  workerId := 9
  capabilities := ["wasm"]
  cpuUsagePct := ⟨0⟩
  signature := []
  heartbeatNonce := "1700000000:00"

theorem domain_separation_heartbeat :
    (KeyedMessage.heartbeat plainHeartbeat).signingPayload (fun _ => ['0']) JobRequest.knownDigest ≠
      (KeyedMessage.signed (.jobResult plainResult)).signingPayload (fun _ => ['0'])
        JobRequest.knownDigest ∧
    checkSignature knownHmac [7]
      ((KeyedMessage.signed (.jobResult plainResult)).signingPayload (fun _ => ['0'])
        JobRequest.knownDigest)
      (knownHmac [7] ((KeyedMessage.heartbeat plainHeartbeat).signingPayload (fun _ => ['0'])
        JobRequest.knownDigest)) ≠ .ok () := by
  obtain ⟨hPayload, hSignature⟩ := domain_separation (fun _ => ['0']) JobRequest.knownDigest
    (.heartbeat plainHeartbeat) (.signed (.jobResult plainResult)) (by decide)
  have hBeat : ((KeyedMessage.heartbeat plainHeartbeat).signingPayload (fun _ => ['0'])
      JobRequest.knownDigest).head? = some 104 := by
    rw [signingPayload, utf8_ofList]
    rfl
  have hResult : ((KeyedMessage.signed (.jobResult plainResult)).signingPayload (fun _ => ['0'])
      JobRequest.knownDigest).head? = some 48 := by
    rw [signingPayload, utf8_ofList]
    rfl
  refine ⟨hPayload, hSignature knownHmac [7] fun h => absurd h ?_⟩
  rw [knownHmac, knownHmac, hBeat, hResult]
  decide

end KeyedMessage

end Separation

end TalosWorkflow
