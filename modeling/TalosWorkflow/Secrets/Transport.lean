import TalosWorkflow.Secrets.Dispatches
import TalosWorkflow.Wire.Resends

/-!
# Secrets on their way to the worker

A job carries its secrets as one text under AES-256-GCM. The worker that holds
the key reads the map that was merged for the job, whichever path has built the
job, and in whatever order the map was listed.
-/

namespace TalosWorkflow

/-- What `Aes256Gcm` is known for, without associated data. -/
structure Aes256Gcm where
  encrypt (key nonce plaintext : List UInt8) : Option (List UInt8)
  decrypt (key nonce ciphertext : List UInt8) : Option (List UInt8)
  decrypt_encrypt : ∀ {key nonce plaintext ciphertext}, encrypt key nonce plaintext =
    some ciphertext → decrypt key nonce ciphertext = some plaintext
  /-- The tag follows the text. -/
  length_encrypt : ∀ {key nonce plaintext ciphertext}, encrypt key nonce plaintext =
    some ciphertext → ciphertext.length = plaintext.length + 16
  encrypt_eq_none_iff : ∀ {key nonce plaintext}, key.length = 32 → nonce.length = 12 →
    (encrypt key nonce plaintext = none ↔ 2 ^ 36 < plaintext.length)

namespace Secrets

/-- A map of strings, in the order in which it is listed. -/
def toJson (secrets : Secrets) : Json :=
  .object (secrets.entries.map fun entry => (entry.1, .string entry.2))

/-- The last of several values for one key stays. -/
def ofJson (j : Json) : Option Secrets := do
  let fields ← j.asObject
  let entries ← fields.mapM fun field => field.2.asStr.map fun value =>
    (⟨field.1, value⟩ : Sigma fun _ : String => String)
  return entries.foldl (fun table entry => table.insert entry.1 entry.2) ∅

end Secrets

/-- The texts of documents: a map of strings is read as it was written. -/
structure TextFormat extends UuidFormat where
  schemaError : Json → String
  fromUtf8 : List UInt8 → Except String Json
  fromUtf8_secrets : ∀ secrets : Secrets, fromUtf8 (utf8 secrets.toJson.text) = .ok secrets.toJson

namespace TextFormat

/-- A document as a value of the type that is asked for. -/
def fromValue {α : Type} (T : TextFormat) (read : Json → Option α) (doc : Json) :
    Except String α :=
  match read doc with
  | some a => .ok a
  | none => .error (T.schemaError doc)

end TextFormat

namespace EncryptedSecrets

def keyLengthError (key : List UInt8) : String :=
  s!"WORKER_SHARED_KEY must be 32 bytes, got {key.length}"

def encrypt (A : Aes256Gcm) (nonce : List UInt8) (secrets : Secrets) (key : List UInt8) :
    Except String EncryptedSecrets :=
  if key.length ≠ 32 then .error (keyLengthError key)
  else
    match A.encrypt key nonce (utf8 secrets.toJson.text) with
    | some ciphertext => .ok { ciphertext, nonce }
    | none => .error "encrypt secrets: aead::Error"

def decrypt (A : Aes256Gcm) (T : TextFormat) (sealed : EncryptedSecrets) (key : List UInt8) :
    Except String Secrets :=
  if key.length ≠ 32 then .error (keyLengthError key)
  else if sealed.nonce.length ≠ 12 then .error "invalid nonce length"
  else
    match A.decrypt key sealed.nonce sealed.ciphertext with
    | none => .error "decryption failed — wrong key or tampered ciphertext"
    | some plaintext =>
        (T.fromUtf8 plaintext >>= T.fromValue Secrets.ofJson).mapError ("deserialize secrets: " ++ ·)

def isEmpty (sealed : EncryptedSecrets) : Bool := sealed.ciphertext.isEmpty

end EncryptedSecrets

/-- What is drawn for a seal: the order in which the map is listed, and the nonce. -/
structure SealDraws where
  listed : Secrets → Secrets
  listed_perm : ∀ secrets, (listed secrets).entries.Perm secrets.entries
  nonce : Secrets → List UInt8
  length_nonce : ∀ secrets, (nonce secrets).length = 12

/-- Nothing is encrypted for the empty map. -/
def aesGcmSecretEnvelope (A : Aes256Gcm) (draws : SealDraws) : SecretEnvelope where
  sealSecrets secrets key :=
    if secrets.entries = [] then .ok ([], [])
    else
      (EncryptedSecrets.encrypt A (draws.nonce secrets) (draws.listed secrets) key).map
        fun sealed => (sealed.ciphertext, sealed.nonce)

section RoundTrip

variable {A : Aes256Gcm} {T : TextFormat} {draws : SealDraws} {key : List UInt8} {secrets : Secrets}

theorem Secrets.mapM_entries (entries : List (Sigma fun _ : String => String)) :
    (entries.map fun entry => (entry.1, Json.string entry.2)).mapM (fun field =>
      field.2.asStr.map fun value => (⟨field.1, value⟩ : Sigma fun _ : String => String)) =
        some entries := by
  induction entries with
  | nil => rfl
  | cons entry rest ih =>
      rw [List.map_cons, List.mapM_cons, ih]
      rfl

theorem Secrets.ofJson_toJson (secrets : Secrets) :
    ∃ read, ofJson secrets.toJson = some read ∧ ∀ path, read.lookup path = secrets.lookup path := by
  refine ⟨_, bind_of_eq_some rfl (bind_of_eq_some (mapM_entries secrets.entries) rfl), ?_⟩
  intro path
  rw [lookup_foldl_insert secrets.nodupKeys, AList.lookup_empty, Option.or_none]
  rfl

theorem EncryptedSecrets.encrypt_eq_ok {nonce : List UInt8} {sealed : EncryptedSecrets}
    (h : encrypt A nonce secrets key = .ok sealed) : key.length = 32 ∧ ∃ ciphertext,
      A.encrypt key nonce (utf8 secrets.toJson.text) = some ciphertext ∧
        sealed = { ciphertext, nonce } := by
  unfold encrypt at h
  split at h
  · cases h
  · rename_i hKey
    split at h
    · rename_i ciphertext hCiphertext
      cases h
      exact ⟨not_not.1 hKey, ciphertext, hCiphertext, rfl⟩
    · cases h

theorem EncryptedSecrets.encrypt_eq_error {nonce : List UInt8} {e : String}
    (hNonce : nonce.length = 12) (h : encrypt A nonce secrets key = .error e) :
    key.length ≠ 32 ∨ 2 ^ 36 < (utf8 secrets.toJson.text).length := by
  unfold encrypt at h
  split at h
  · exact .inl ‹_›
  · rename_i hKey
    split at h
    · cases h
    · rename_i hNone
      exact .inr ((A.encrypt_eq_none_iff (not_not.1 hKey) hNonce).1 hNone)

theorem EncryptedSecrets.decrypt_encrypt {nonce : List UInt8} {sealed : EncryptedSecrets}
    (hNonce : nonce.length = 12) (h : encrypt A nonce secrets key = .ok sealed) :
    ∃ read, sealed.decrypt A T key = .ok read ∧
      ∀ path, read.lookup path = secrets.lookup path := by
  obtain ⟨hKey, ciphertext, hCiphertext, rfl⟩ := encrypt_eq_ok h
  obtain ⟨read, hRead, hSame⟩ := secrets.ofJson_toJson
  refine ⟨read, ?_, hSame⟩
  rw [decrypt, if_neg (not_not.2 hKey), if_neg (not_not.2 hNonce), A.decrypt_encrypt hCiphertext]
  simp only [T.fromUtf8_secrets, bind, Except.bind, TextFormat.fromValue, hRead]
  rfl

/-- A seal is never taken for the empty map, and passes the structural check. -/
theorem EncryptedSecrets.encrypt_valid {nonce : List UInt8} {sealed : EncryptedSecrets}
    (hNonce : nonce.length = 12) (h : encrypt A nonce secrets key = .ok sealed) :
    sealed.isEmpty = false ∧ validSealOutput sealed.ciphertext sealed.nonce = true := by
  obtain ⟨-, ciphertext, hCiphertext, rfl⟩ := encrypt_eq_ok h
  have hLength := A.length_encrypt hCiphertext
  have hSome : ciphertext.isEmpty = false := by
    cases ciphertext with
    | nil => cases hLength
    | cons _ _ => rfl
  have hDrawn : nonce.isEmpty = false := by
    cases nonce with
    | nil => cases hNonce
    | cons _ _ => rfl
  refine ⟨hSome, ?_⟩
  simp only [validSealOutput, hSome, hDrawn, hNonce]
  rfl

/-- The worker that holds the key opens these secrets, or sees that it gets none: there are none,
the key does not fit, or their text is too long. -/
structure Delivered (A : Aes256Gcm) (T : TextFormat) (draws : SealDraws) (key : List UInt8)
    (secrets : Secrets) (received : EncryptedSecrets) : Prop where
  isEmpty_iff : received.isEmpty = true ↔ secrets.entries = [] ∨ key.length ≠ 32 ∨
    2 ^ 36 < (utf8 (draws.listed secrets).toJson.text).length
  opened : received.isEmpty = false → ∃ read, received.decrypt A T key = .ok read ∧
    ∀ path, read.lookup path = secrets.lookup path

theorem delivered_forwarded (hSome : secrets.entries ≠ []) :
    Delivered A T draws key secrets
      (forwarded ((aesGcmSecretEnvelope A draws).sealSecrets secrets key)) := by
  have hNonce := draws.length_nonce secrets
  simp only [aesGcmSecretEnvelope, if_neg hSome]
  cases hSealed : EncryptedSecrets.encrypt A (draws.nonce secrets) (draws.listed secrets) key with
  | error e =>
      refine ⟨iff_of_true rfl (.inr (EncryptedSecrets.encrypt_eq_error hNonce hSealed)), ?_⟩
      exact fun hFull => by cases hFull
  | ok sealed =>
      obtain ⟨hFull, hValid⟩ := EncryptedSecrets.encrypt_valid hNonce hSealed
      have hForwarded : forwarded (.ok (sealed.ciphertext, sealed.nonce)) = sealed :=
        forwarded_sound (validSealOutput_iff.1 hValid)
      change Delivered A T draws key secrets (forwarded (.ok (sealed.ciphertext, sealed.nonce)))
      rw [hForwarded]
      refine ⟨iff_of_false (by rw [hFull]; exact Bool.false_ne_true) ?_, fun _ => ?_⟩
      · obtain ⟨hKey, ciphertext, hCiphertext, -⟩ := EncryptedSecrets.encrypt_eq_ok hSealed
        rintro (hNone | hWrong | hLong)
        · exact hSome hNone
        · exact hWrong hKey
        · rw [(A.encrypt_eq_none_iff hKey hNonce).2 hLong] at hCiphertext
          cases hCiphertext
      · obtain ⟨read, hRead, hSame⟩ := EncryptedSecrets.decrypt_encrypt (T := T) hNonce hSealed
        refine ⟨read, hRead, fun path => (hSame path).trans ?_⟩
        exact AList.perm_lookup (draws.listed_perm secrets)

end RoundTrip

section Jobs

namespace ParallelWorkflowEngine

variable {H : Host} {E : ParallelWorkflowEngine H} {d : DispatchContext} {A : Aes256Gcm}
  {T : TextFormat} {draws : SealDraws} {resolver : SecretsResolver} {key : List UInt8}

theorem sealedFor_delivered (hEnvelope : E.secretEnvelope = aesGcmSecretEnvelope A draws)
    (hResolver : E.secretsResolver = some resolver) (hKey : d.workerSharedKey = some key)
    (a : SecretsArguments) :
    Delivered A T draws key (a.secrets resolver E.userId E.maxLlmTier) (E.sealedFor d a) := by
  rw [sealedFor_eq E d hResolver hKey, hEnvelope]
  split
  · rename_i hNone
    exact ⟨iff_of_true rfl (.inl hNone), fun hFull => by cases hFull⟩
  · exact delivered_forwarded ‹_›

theorem delivered_of_sealedFor (hEnvelope : E.secretEnvelope = aesGcmSecretEnvelope A draws)
    (hResolver : E.secretsResolver = some resolver) (hKey : d.workerSharedKey = some key)
    {a : SecretsArguments} {job : DispatchJob}
    (hJob : ⟨job.encryptedSecretsCiphertext, job.encryptedSecretsNonce⟩ = E.sealedFor d a) :
    Delivered A T draws key (a.secrets resolver E.userId E.maxLlmTier)
      ⟨job.encryptedSecretsCiphertext, job.encryptedSecretsNonce⟩ := by
  rw [hJob]
  exact sealedFor_delivered hEnvelope hResolver hKey a

theorem chainSteps_fetched {nodeIds : List Uuid} {jobs : List DispatchJob}
    (h : E.chainSteps d nodeIds = .ok jobs) :
    List.Forall₂ (fun nodeId job => ∃ userId artifact,
      E.fetchStep d.executionId nodeId = .ok (userId, artifact) ∧
        job = E.chainStepJob d userId nodeId artifact) nodeIds jobs := by
  induction nodeIds generalizing jobs with
  | nil =>
      cases h
      exact .nil
  | cons nodeId rest ih =>
      simp only [chainSteps, bind, Except.bind] at h
      split at h
      · cases h
      · rename_i step hStep
        split at h
        · cases h
        · cases h
          exact .cons ⟨step.1, step.2, hStep, rfl⟩ (ih ‹_›)

theorem runPipelineChainDispatch_fetched {head : NodeIndex} {rest : List NodeIndex}
    {chainInput : Json} {request : ChainDispatchRequest}
    (h : E.runPipelineChainDispatch d head rest chainInput = .ok request) :
    List.Forall₂ (fun idx job => ∃ userId artifact input,
      E.fetchStep d.executionId (E.nodeId idx) = .ok (userId, artifact) ∧
        job = { E.chainStepJob d userId (E.nodeId idx) artifact with inputPayload := input })
      (head :: rest) request.steps := by
  simp only [runPipelineChainDispatch, bind, Except.bind] at h
  split at h
  · cases h
  · rename_i jobs hJobs
    split at h
    · cases h
    · cases h
      have hSteps := List.forall₂_map_left_iff.1 (chainSteps_fetched hJobs)
      cases hSteps with
      | cons hFirst hRest =>
          obtain ⟨userId, artifact, hFetch, rfl⟩ := hFirst
          refine .cons ⟨userId, artifact, _, hFetch, rfl⟩ (hRest.imp ?_)
          rintro idx job ⟨userId, artifact, hFetch, rfl⟩
          exact ⟨userId, artifact, _, hFetch, rfl⟩

/-- Each message that is sent for a job, whatever path has built the job, brings the worker the
secrets that were merged for it. -/
structure SecretsReachWorker (E : ParallelWorkflowEngine H) (d : DispatchContext) (A : Aes256Gcm)
    (T : TextFormat) (draws : SealDraws) (resolver : SecretsResolver) (key : List UInt8)
    (freshId : Uuid) (stamp : Stamp) : Prop where
  single : ∀ nodeId inputs job, E.runSingleNodeDispatch d nodeId inputs = .ok job →
    job.inputPayload.IsValue → ∃ artifact req, E.fetchModule d nodeId = .ok artifact ∧
      JobRequest.ofJson T.toUuidFormat (dispatch job freshId stamp).toJson = some req ∧
        Delivered A T draws key ((E.singleArguments nodeId artifact).secrets resolver E.userId
          E.maxLlmTier) req.encryptedSecrets
  body : ∀ bodyId moduleId artifact iteration current, (E.loopInput d bodyId iteration
    current).IsValue → ∃ req, JobRequest.ofJson T.toUuidFormat (dispatch (E.loopJob d bodyId
      moduleId artifact iteration current) freshId stamp).toJson = some req ∧
        Delivered A T draws key ((E.loopArguments moduleId).secrets resolver E.userId
          E.maxLlmTier) req.encryptedSecrets
  chain : ∀ head rest chainInput request,
    E.runPipelineChainDispatch d head rest chainInput = .ok request →
      (∀ job ∈ request.steps, job.inputPayload.IsValue) → ∃ req,
        PipelineJobRequest.ofJson T.toUuidFormat (dispatchChain request freshId stamp).toJson =
          some req ∧
        List.Forall₂ (fun idx step => ∃ userId artifact,
          E.fetchStep d.executionId (E.nodeId idx) = .ok (userId, artifact) ∧
            Delivered A T draws key ((chainArguments (E.nodeId idx) artifact).secrets resolver
              E.userId E.maxLlmTier) step.encryptedSecrets) (head :: rest) req.steps

end ParallelWorkflowEngine

open ParallelWorkflowEngine in
/-- Secrets survive the way to the worker that shares the key: as single job, loop body and chain
step they are read as they were merged. -/
theorem secrets_reach_worker {H : Host} (E : ParallelWorkflowEngine H) (d : DispatchContext)
    (A : Aes256Gcm) (T : TextFormat) (draws : SealDraws) (resolver : SecretsResolver)
    (key : List UInt8) (hEnvelope : E.secretEnvelope = aesGcmSecretEnvelope A draws)
    (hResolver : E.secretsResolver = some resolver) (hKey : d.workerSharedKey = some key)
    (freshId : Uuid) (stamp : Stamp) :
    E.SecretsReachWorker d A T draws resolver key freshId stamp where
  single nodeId inputs job hJob hValue := by
    obtain ⟨artifact, hFetch, -, rfl⟩ := runSingleNodeDispatch_ok hJob
    exact ⟨artifact, _, hFetch, JobRequest.ofJson_toJson _ hValue, delivered_of_sealedFor hEnvelope
      hResolver hKey (singleJob_secrets E d nodeId artifact inputs)⟩
  body bodyId moduleId artifact iteration current hValue :=
    ⟨_, JobRequest.ofJson_toJson _ hValue, delivered_of_sealedFor hEnvelope hResolver hKey
      (loopJob_secrets E d bodyId artifact moduleId iteration current)⟩
  chain head rest chainInput request hRequest hValues := by
    refine ⟨_, PipelineJobRequest.ofJson_toJson _ fun step hStep => ?_, ?_⟩
    · obtain ⟨job, hJob, rfl⟩ := List.mem_map.1 hStep
      exact hValues job hJob
    · refine List.forall₂_map_right_iff.2 ((runPipelineChainDispatch_fetched hRequest).imp ?_)
      rintro idx job ⟨userId, artifact, input, hFetch, rfl⟩
      exact ⟨userId, artifact, hFetch, delivered_of_sealedFor hEnvelope hResolver hKey
        (chainStepJob_secrets E d (E.nodeId idx) artifact userId)⟩

end Jobs

section Samples

def sharedKey : List UInt8 := List.replicate 32 0

def drawnNonce : List UInt8 := List.replicate 12 0

def grantedText : List UInt8 := utf8 "\x7b\"key\":\"value\"\x7d"

def grantedCiphertext : List UInt8 :=
  [181, 133, 43, 88, 52, 66, 81, 76, 113, 47, 169, 166, 223, 209, 224, 188, 17, 148, 70, 58, 218,
    234, 83, 223, 40, 66, 190, 236, 203, 139, 145]

/-- It encrypts the granted secret; any other text gets a tag of zeros. -/
def sampleAes : Aes256Gcm where
  encrypt key nonce plaintext :=
    if 2 ^ 36 < plaintext.length then none
    else if key = sharedKey ∧ nonce = drawnNonce ∧ plaintext = grantedText then
      some grantedCiphertext
    else some (plaintext ++ List.replicate 16 0)
  decrypt key nonce ciphertext :=
    if key = sharedKey ∧ nonce = drawnNonce ∧ ciphertext = grantedCiphertext then some grantedText
    else some (ciphertext.take (ciphertext.length - 16))
  decrypt_encrypt := by
    intro key nonce plaintext ciphertext h
    split at h
    · cases h
    · split at h
      · rename_i hGranted
        cases h
        obtain ⟨rfl, rfl, rfl⟩ := hGranted
        exact if_pos ⟨rfl, rfl, rfl⟩
      · cases h
        rw [if_neg]
        · simp
        · rintro ⟨-, -, hSame⟩
          have hLast := congrArg List.getLast? hSame
          rw [List.getLast?_append_of_ne_nil _ (by decide)] at hLast
          exact absurd hLast (by decide)
  length_encrypt := by
    intro key nonce plaintext ciphertext h
    split at h
    · cases h
    · split at h
      · rename_i hGranted
        cases h
        rw [hGranted.2.2]
        decide
      · cases h
        rw [List.length_append, List.length_replicate]
  encrypt_eq_none_iff := by
    intro key nonce plaintext _ _
    split
    · exact iff_of_true rfl ‹_›
    · split
      · exact iff_of_false (Option.some_ne_none _) ‹_›
      · exact iff_of_false (Option.some_ne_none _) ‹_›

def sampleDraws : SealDraws := ⟨id, fun _ => .refl _, fun _ => drawnNonce, fun _ => by decide⟩

/-- Where messages are read from their bytes, maps of strings are too. -/
def WireFormat.textFormat (W : WireFormat) (schemaError : Json → String) : TextFormat where
  toUuidFormat := W.toUuidFormat
  schemaError := schemaError
  fromUtf8 := W.fromSlice some
  fromUtf8_secrets secrets := by
    refine (W.fromSlice_toVec (Json.readableIn_object.2 ?_)).2 rfl
    exact List.forall_mem_map.2 fun entry _ => Json.readableIn_string entry.2

noncomputable def textFormat : TextFormat := hyphenatedWire.textFormat fun _ => "missing field"

/-- The granted module, with what its secret takes to reach the worker. -/
def grantingEngine : ParallelWorkflowEngine (bareHost true) :=
  { grantedEngine with
    moduleFetcher := some ⟨fun _ _ => .ok grantedArtifact⟩
    secretEnvelope := aesGcmSecretEnvelope sampleAes sampleDraws
    secretsResolver := some (probingResolver none ["stripe/key"])
    userId := some 5 }

def sharingDispatch : DispatchContext := ⟨9, 0, some sharedKey, ∅, none, none, none, 0, 0⟩

theorem grantingEngine_secrets :
    ((grantingEngine.singleArguments 1 grantedArtifact).secrets (probingResolver none ["stripe/key"])
      (some 5) .tier2).entries = [⟨"key", "value"⟩] := by decide

/-- The worker reads the granted secret. -/
theorem secrets_reach_worker_granted : ∃ (job : DispatchJob) (req : JobRequest) (read : Secrets),
    grantingEngine.runSingleNodeDispatch sharingDispatch 1 .null = .ok job ∧
      JobRequest.ofJson hyphenated (dispatch job 0 {}).toJson = some req ∧
        req.encryptedSecrets.decrypt sampleAes textFormat sharedKey = .ok read ∧
          read.lookup "key" = some "value" := by
  have hReach := secrets_reach_worker grantingEngine sharingDispatch sampleAes textFormat
    sampleDraws (probingResolver none ["stripe/key"]) sharedKey rfl rfl rfl 0 {}
  obtain ⟨artifact, req, hFetch, hRead, hDelivered⟩ := hReach.single 1 .null _ rfl
    ⟨.nil, trivial⟩
  cases hFetch
  have hFull : req.encryptedSecrets.isEmpty = false := by
    rw [← Bool.not_eq_true, hDelivered.isEmpty_iff]
    rintro (hNone | hWrong | hLong)
    · exact absurd (grantingEngine_secrets.symm.trans hNone) (by decide)
    · exact hWrong (by decide)
    · have hText : (Json.object [("key", .string "value")]).text.toUTF8.size = 15 := by decide
      have hListed := congrArg (fun entries => (Json.object (entries.map fun entry =>
        (entry.1, Json.string entry.2))).text.toUTF8.size) grantingEngine_secrets
      exact absurd (hLong.trans_eq (hListed.trans hText)) (by decide)
  obtain ⟨read, hOpened, hSame⟩ := hDelivered.opened hFull
  exact ⟨_, req, read, rfl, hRead, hOpened, (hSame "key").trans
    (congrArg (List.dlookup "key") grantingEngine_secrets)⟩

end Samples

end TalosWorkflow
