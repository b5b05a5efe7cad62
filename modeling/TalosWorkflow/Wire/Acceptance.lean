import TalosWorkflow.Signing.Domains
import TalosWorkflow.Wire.Bytes
import TalosWorkflow.Wire.RoundTrips

/-!
# Accepted documents

Which documents are read as messages, and what a message that has been read is
like. It is written and read again without a change when the parser keeps its
floats and opens all that it nests.
-/

namespace TalosWorkflow

open Record

namespace Json

theorem fieldsAreValues_iff {fields : List (String × Json)} :
    FieldsAreValues fields ↔ ∀ field ∈ fields, field.2.IsValue := by
  induction fields with
  | nil => simp [FieldsAreValues]
  | cons field fields ih =>
      obtain ⟨key, value⟩ := field
      rw [FieldsAreValues, ih, List.forall_mem_cons]

theorem fieldsAreValues_collect {fields : List (String × Json)} (h : FieldsAreValues fields) :
    FieldsAreValues (OrderedMap.collect fields) := by
  have hFold : ∀ map : List (String × Json), (∀ field ∈ map, field.2.IsValue) →
      ∀ field ∈ fields.foldl (fun map entry => OrderedMap.insert entry.1 entry.2 map) map,
        field.2.IsValue := by
    induction fields with
    | nil => exact fun map hMap => hMap
    | cons first rest ih =>
        rw [fieldsAreValues_iff, List.forall_mem_cons] at h
        intro map hMap
        refine ih (fieldsAreValues_iff.2 h.2) _ fun field hField => ?_
        obtain rfl | hOld := OrderedMap.mem_insert hField
        · exact h.1
        · exact hMap field hOld
  exact fieldsAreValues_iff.2 (hFold [] fun field hField => by cases hField)

mutual

theorem isValue_asValue : (j : Json) → j.asValue.IsValue
  | .array items => areValues_asValues items
  | .object fields =>
      ⟨OrderedMap.ordered_collect _, fieldsAreValues_collect (fieldsAreValues_asFields fields)⟩
  | .null | .bool _ | .number _ | .string _ => trivial

theorem areValues_asValues : (items : List Json) → AreValues (asValues items)
  | [] => trivial
  | item :: items => ⟨isValue_asValue item, areValues_asValues items⟩

theorem fieldsAreValues_asFields : (fields : List (String × Json)) →
    FieldsAreValues (asFields fields)
  | [] => trivial
  | (_, value) :: fields => ⟨isValue_asValue value, fieldsAreValues_asFields fields⟩

end

theorem exists_of_asListOf {α : Type} {read : Json → Option α} {j : Json} {items : List α}
    (h : asListOf read j = some items) : ∀ item ∈ items, ∃ doc, read doc = some item := by
  obtain ⟨docs, -, hItems⟩ := Option.bind_eq_some_iff.1 h
  clear h
  induction docs generalizing items with
  | nil =>
      cases hItems
      intro item hItem
      cases hItem
  | cons doc docs ih =>
      simp only [List.mapM_cons, Option.bind_eq_bind, Option.bind_eq_some_iff] at hItems
      obtain ⟨first, hFirst, rest, hRest, hItems⟩ := hItems
      cases hItems
      intro item hItem
      obtain rfl | hOther := List.mem_cons.1 hItem
      · exact ⟨doc, hFirst⟩
      · exact ih hRest item hOther

end Json

theorem isValue_of_required {key : String} {entries : List (String × Json)} {value : Json}
    (h : required (some ∘ Json.asValue) key entries = some value) : value.IsValue := by
  obtain ⟨found, -, hFound⟩ := Option.bind_eq_some_iff.1 h
  obtain ⟨j, -, hRead⟩ := Option.bind_eq_some_iff.1 hFound
  cases hRead
  exact j.isValue_asValue

theorem exists_of_required {α : Type} {read : Json → Option α} {key : String}
    {entries : List (String × Json)} {items : List α}
    (h : required (Json.asListOf read) key entries = some items) :
    ∀ item ∈ items, ∃ doc, read doc = some item := by
  obtain ⟨found, -, hFound⟩ := Option.bind_eq_some_iff.1 h
  obtain ⟨j, -, hRead⟩ := Option.bind_eq_some_iff.1 hFound
  exact Json.exists_of_asListOf hRead

/-- Every required field is given, and no field that is read is given twice. -/
def GivesOnce (keys requiredKeys : List String) (entries : List (String × Json)) : Prop :=
  (∀ key ∈ requiredKeys, ∃ value, once key entries = some (some value)) ∧
    ∀ key ∈ keys, ∃ found, once key entries = some found

section Accepted

variable {U : UuidFormat} {entries : List (String × Json)} {doc : Json}

theorem JobRequest.accepted {req : JobRequest} (h : ofJson U (.object entries) = some req) :
    GivesOnce keys requiredKeys entries ∧ req.inputPayload.IsValue := by
  obtain ⟨_, hJob, h⟩ := Option.bind_eq_some_iff.1 h
  obtain ⟨_, hExecution, h⟩ := Option.bind_eq_some_iff.1 h
  obtain ⟨_, hUri, h⟩ := Option.bind_eq_some_iff.1 h
  obtain ⟨_, hPayload, h⟩ := Option.bind_eq_some_iff.1 h
  obtain ⟨_, hSecrets, h⟩ := Option.bind_eq_some_iff.1 h
  obtain ⟨_, hTimeout, h⟩ := Option.bind_eq_some_iff.1 h
  obtain ⟨_, hPriority, h⟩ := Option.bind_eq_some_iff.1 h
  obtain ⟨_, hDeadline, h⟩ := Option.bind_eq_some_iff.1 h
  obtain ⟨_, hToken, h⟩ := Option.bind_eq_some_iff.1 h
  obtain ⟨_, hHosts, h⟩ := Option.bind_eq_some_iff.1 h
  obtain ⟨_, hMethods, h⟩ := Option.bind_eq_some_iff.1 h
  obtain ⟨_, hGrants, h⟩ := Option.bind_eq_some_iff.1 h
  obtain ⟨_, hSql, h⟩ := Option.bind_eq_some_iff.1 h
  obtain ⟨_, hExposure, h⟩ := Option.bind_eq_some_iff.1 h
  obtain ⟨_, hSignature, h⟩ := Option.bind_eq_some_iff.1 h
  obtain ⟨_, hNonce, h⟩ := Option.bind_eq_some_iff.1 h
  obtain ⟨_, hActor, h⟩ := Option.bind_eq_some_iff.1 h
  obtain ⟨_, hWasm, h⟩ := Option.bind_eq_some_iff.1 h
  obtain ⟨_, hWorld, h⟩ := Option.bind_eq_some_iff.1 h
  obtain ⟨_, hIntegration, h⟩ := Option.bind_eq_some_iff.1 h
  obtain ⟨_, hHash, h⟩ := Option.bind_eq_some_iff.1 h
  obtain ⟨_, hFuel, h⟩ := Option.bind_eq_some_iff.1 h
  obtain ⟨_, hUser, h⟩ := Option.bind_eq_some_iff.1 h
  obtain ⟨_, hTier, h⟩ := Option.bind_eq_some_iff.1 h
  obtain ⟨_, hDry, h⟩ := Option.bind_eq_some_iff.1 h
  cases h
  refine ⟨⟨?_, ?_⟩, isValue_of_required hPayload⟩
  · simp only [requiredKeys, List.forall_mem_cons]
    exact ⟨once_of_required hJob, once_of_required hExecution, once_of_required hUri,
      once_of_required hPayload, once_of_required hTimeout, once_of_required hHosts,
      once_of_required hSignature, once_of_required hNonce, List.forall_mem_nil _⟩
  · simp only [keys, List.forall_mem_cons]
    exact ⟨found_of_required hJob, found_of_required hExecution, found_of_required hUri,
      found_of_required hPayload, found_of_defaulted hSecrets, found_of_required hTimeout,
      found_of_defaulted hPriority, found_of_defaulted hDeadline, found_of_defaulted hToken,
      found_of_required hHosts, found_of_defaulted hMethods, found_of_defaulted hGrants,
      found_of_defaulted hSql, found_of_defaulted hExposure, found_of_required hSignature,
      found_of_required hNonce, found_of_defaulted hActor, found_of_defaulted hWasm,
      found_of_defaulted hWorld, found_of_defaulted hIntegration, found_of_defaulted hHash,
      found_of_defaulted hFuel, found_of_defaulted hUser, found_of_defaulted hTier,
      found_of_defaulted hDry, List.forall_mem_nil _⟩

theorem PipelineStep.isValue_config {step : PipelineStep} (h : ofJson U doc = some step) :
    step.config.IsValue := by
  obtain ⟨_, -, h⟩ := Option.bind_eq_some_iff.1 h
  iterate 3 obtain ⟨_, -, h⟩ := Option.bind_eq_some_iff.1 h
  obtain ⟨_, hConfig, h⟩ := Option.bind_eq_some_iff.1 h
  iterate 13 obtain ⟨_, -, h⟩ := Option.bind_eq_some_iff.1 h
  cases h
  exact isValue_of_required hConfig

theorem PipelineJobRequest.accepted {req : PipelineJobRequest}
    (h : ofJson U (.object entries) = some req) :
    GivesOnce keys requiredKeys entries ∧ ∀ step ∈ req.steps, step.config.IsValue := by
  obtain ⟨_, hJob, h⟩ := Option.bind_eq_some_iff.1 h
  obtain ⟨_, hExecution, h⟩ := Option.bind_eq_some_iff.1 h
  obtain ⟨_, hSteps, h⟩ := Option.bind_eq_some_iff.1 h
  obtain ⟨_, hTimeout, h⟩ := Option.bind_eq_some_iff.1 h
  obtain ⟨_, hSandbox, h⟩ := Option.bind_eq_some_iff.1 h
  obtain ⟨_, hSignature, h⟩ := Option.bind_eq_some_iff.1 h
  obtain ⟨_, hNonce, h⟩ := Option.bind_eq_some_iff.1 h
  obtain ⟨_, hUser, h⟩ := Option.bind_eq_some_iff.1 h
  obtain ⟨_, hTier, h⟩ := Option.bind_eq_some_iff.1 h
  cases h
  refine ⟨⟨?_, ?_⟩, fun step hStep => ?_⟩
  · simp only [requiredKeys, List.forall_mem_cons]
    exact ⟨once_of_required hJob, once_of_required hExecution, once_of_required hSteps,
      once_of_required hTimeout, once_of_required hSandbox, once_of_required hSignature,
      once_of_required hNonce, once_of_required hUser, List.forall_mem_nil _⟩
  · simp only [keys, List.forall_mem_cons]
    exact ⟨found_of_required hJob, found_of_required hExecution, found_of_required hSteps,
      found_of_required hTimeout, found_of_required hSandbox, found_of_required hSignature,
      found_of_required hNonce, found_of_required hUser, found_of_defaulted hTier,
      List.forall_mem_nil _⟩
  · obtain ⟨doc, hDoc⟩ := exists_of_required hSteps step hStep
    exact PipelineStep.isValue_config hDoc

theorem JobResult.accepted {result : JobResult} (h : ofJson U (.object entries) = some result) :
    GivesOnce keys requiredKeys entries ∧ result.outputPayload.IsValue := by
  obtain ⟨_, hJob, h⟩ := Option.bind_eq_some_iff.1 h
  obtain ⟨_, hStatus, h⟩ := Option.bind_eq_some_iff.1 h
  obtain ⟨_, hOutput, h⟩ := Option.bind_eq_some_iff.1 h
  obtain ⟨_, hLogs, h⟩ := Option.bind_eq_some_iff.1 h
  obtain ⟨_, hTime, h⟩ := Option.bind_eq_some_iff.1 h
  obtain ⟨_, hSignature, h⟩ := Option.bind_eq_some_iff.1 h
  obtain ⟨_, hNonce, h⟩ := Option.bind_eq_some_iff.1 h
  cases h
  refine ⟨⟨?_, ?_⟩, isValue_of_required hOutput⟩
  · simp only [requiredKeys, List.forall_mem_cons]
    exact ⟨once_of_required hJob, once_of_required hStatus, once_of_required hOutput,
      once_of_required hLogs, once_of_required hTime, List.forall_mem_nil _⟩
  · simp only [keys, List.forall_mem_cons]
    exact ⟨found_of_required hJob, found_of_required hStatus, found_of_required hOutput,
      found_of_required hLogs, found_of_required hTime, found_of_defaulted hSignature,
      found_of_defaulted hNonce, List.forall_mem_nil _⟩

theorem PipelineStepResult.isValue_output {step : PipelineStepResult}
    (h : ofJson U doc = some step) : step.output.IsValue := by
  obtain ⟨_, -, h⟩ := Option.bind_eq_some_iff.1 h
  iterate 2 obtain ⟨_, -, h⟩ := Option.bind_eq_some_iff.1 h
  obtain ⟨_, hOutput, h⟩ := Option.bind_eq_some_iff.1 h
  iterate 2 obtain ⟨_, -, h⟩ := Option.bind_eq_some_iff.1 h
  cases h
  exact isValue_of_required hOutput

theorem PipelineJobResult.accepted {result : PipelineJobResult}
    (h : ofJson U (.object entries) = some result) :
    GivesOnce requiredKeys requiredKeys entries ∧
      (∀ step ∈ result.stepResults, step.output.IsValue) ∧ result.finalOutput.IsValue := by
  obtain ⟨_, hJob, h⟩ := Option.bind_eq_some_iff.1 h
  obtain ⟨_, hStatus, h⟩ := Option.bind_eq_some_iff.1 h
  obtain ⟨_, hSteps, h⟩ := Option.bind_eq_some_iff.1 h
  obtain ⟨_, hOutput, h⟩ := Option.bind_eq_some_iff.1 h
  obtain ⟨_, hTime, h⟩ := Option.bind_eq_some_iff.1 h
  obtain ⟨_, hSignature, h⟩ := Option.bind_eq_some_iff.1 h
  obtain ⟨_, hNonce, h⟩ := Option.bind_eq_some_iff.1 h
  cases h
  refine ⟨⟨?_, ?_⟩, fun step hStep => ?_, isValue_of_required hOutput⟩
  · simp only [requiredKeys, List.forall_mem_cons]
    exact ⟨once_of_required hJob, once_of_required hStatus, once_of_required hSteps,
      once_of_required hOutput, once_of_required hTime, once_of_required hSignature,
      once_of_required hNonce, List.forall_mem_nil _⟩
  · simp only [requiredKeys, List.forall_mem_cons]
    exact ⟨found_of_required hJob, found_of_required hStatus, found_of_required hSteps,
      found_of_required hOutput, found_of_required hTime, found_of_required hSignature,
      found_of_required hNonce, List.forall_mem_nil _⟩
  · obtain ⟨doc, hDoc⟩ := exists_of_required hSteps step hStep
    exact PipelineStepResult.isValue_output hDoc

end Accepted

namespace MessageType

def keys : MessageType → List String
  | .jobRequest => JobRequest.keys
  | .jobResult => JobResult.keys
  | .pipelineJobRequest => PipelineJobRequest.keys
  | .pipelineJobResult => PipelineJobResult.requiredKeys
  | .workerHeartbeat =>
      ["worker_id", "capabilities", "cpu_usage_pct", "signature", "heartbeat_nonce"]

def requiredKeys : MessageType → List String
  | .jobRequest => JobRequest.requiredKeys
  | .jobResult => JobResult.requiredKeys
  | .pipelineJobRequest => PipelineJobRequest.requiredKeys
  | .pipelineJobResult => PipelineJobResult.requiredKeys
  | .workerHeartbeat => ["worker_id", "capabilities", "cpu_usage_pct"]

theorem eq_of_requiredKeys {a b : MessageType} (h : a.requiredKeys ⊆ b.keys) : a = b := by
  cases a <;> cases b <;> first | rfl | exact absurd h (by decide)

end MessageType

namespace SignedMessage

def toJson : SignedMessage → Json
  | .jobRequest req => req.toJson
  | .jobResult result => result.toJson
  | .pipelineJobRequest req => req.toJson
  | .pipelineJobResult result => result.toJson

def keys (message : SignedMessage) : List String := message.messageType.keys

def requiredKeys (message : SignedMessage) : List String := message.messageType.requiredKeys

def keeping (kept : String → Bool) : SignedMessage → SignedMessage
  | .jobRequest req => .jobRequest (req.keeping kept)
  | .jobResult result => .jobResult (result.keeping kept)
  | .pipelineJobRequest req => .pipelineJobRequest (req.keeping kept)
  | .pipelineJobResult result => .pipelineJobResult result

/-- What the message carries for others is a value of `serde_json`. -/
def HasValues : SignedMessage → Prop
  | .jobRequest req => req.inputPayload.IsValue
  | .jobResult result => result.outputPayload.IsValue
  | .pipelineJobRequest req => ∀ step ∈ req.steps, step.config.IsValue
  | .pipelineJobResult result =>
      (∀ step ∈ result.stepResults, step.output.IsValue) ∧ result.finalOutput.IsValue

/-- The document is accepted as this message, by the reader of its type. -/
def ReadFrom (U : UuidFormat) (doc : Json) : SignedMessage → Prop
  | .jobRequest req => JobRequest.ofJson U doc = some req
  | .jobResult result => JobResult.ofJson U doc = some result
  | .pipelineJobRequest req => PipelineJobRequest.ofJson U doc = some req
  | .pipelineJobResult result => PipelineJobResult.ofJson U doc = some result

/-- What the message carries for others is read from its bytes as it was written: the parser keeps
its floats and opens its arrays and objects. -/
def Readable (keepsFloat : FloatLexeme → Prop) : SignedMessage → Prop
  | .jobRequest req => req.inputPayload.ReadableIn keepsFloat 126
  | .jobResult result => result.outputPayload.ReadableIn keepsFloat 126
  | .pipelineJobRequest req => ∀ step ∈ req.steps, step.config.ReadableIn keepsFloat 124
  | .pipelineJobResult result =>
      (∀ step ∈ result.stepResults, step.output.ReadableIn keepsFloat 124) ∧
        result.finalOutput.ReadableIn keepsFloat 126

def toVec (message : SignedMessage) : List UInt8 := message.toJson.toVec

/-- The bytes are accepted as this message, by the reader of its type. -/
def ReadBy (W : WireFormat) (bytes : List UInt8) : SignedMessage → Prop
  | .jobRequest req => W.fromSlice (JobRequest.ofJson W.toUuidFormat) bytes = .ok req
  | .jobResult result => W.fromSlice (JobResult.ofJson W.toUuidFormat) bytes = .ok result
  | .pipelineJobRequest req =>
      W.fromSlice (PipelineJobRequest.ofJson W.toUuidFormat) bytes = .ok req
  | .pipelineJobResult result =>
      W.fromSlice (PipelineJobResult.ofJson W.toUuidFormat) bytes = .ok result

variable {U : UuidFormat} {W : WireFormat} {message other : SignedMessage} {kept : String → Bool}
  {fields entries : List (String × Json)} {doc : Json}

theorem readable_toJson {keepsFloat : FloatLexeme → Prop} (h : message.Readable keepsFloat) :
    message.toJson.Readable keepsFloat := by
  cases message with
  | jobRequest req => exact JobRequest.readable_toJson h
  | jobResult result => exact JobResult.readable_toJson h
  | pipelineJobRequest req => exact PipelineJobRequest.readable_toJson h
  | pipelineJobResult result => exact PipelineJobResult.readable_toJson h.1 h.2

theorem readBy_toVec_iff (h : doc.Readable W.keepsFloat) :
    message.ReadBy W doc.toVec ↔ message.ReadFrom W.toUuidFormat doc := by
  cases message <;> exact W.fromSlice_toVec h

theorem readFrom_toJson (hValues : message.HasValues) : message.ReadFrom U message.toJson := by
  cases message with
  | jobRequest req => exact JobRequest.ofJson_toJson U hValues
  | jobResult result => exact JobResult.ofJson_toJson U hValues
  | pipelineJobRequest req => exact PipelineJobRequest.ofJson_toJson U hValues
  | pipelineJobResult result => exact PipelineJobResult.ofJson_toJson U hValues.1 hValues.2

theorem accepted (h : message.ReadFrom U (.object entries)) :
    GivesOnce message.keys message.requiredKeys entries ∧ message.HasValues := by
  cases message with
  | jobRequest req => exact JobRequest.accepted h
  | jobResult result => exact JobResult.accepted h
  | pipelineJobRequest req => exact PipelineJobRequest.accepted h
  | pipelineJobResult result => exact PipelineJobResult.accepted h

theorem exists_fields (message : SignedMessage) :
    ∃ fields, message.toJson = .object fields ∧ ∀ entry ∈ fields, entry.1 ∈ message.keys := by
  cases message with
  | jobRequest req =>
      refine ⟨_, rfl, ?_⟩
      simp only [List.forall_mem_append, List.forall_mem_cons, forall_mem_optionalField]
      simp [keys, messageType, MessageType.keys, JobRequest.keys]
  | jobResult result =>
      refine ⟨_, rfl, ?_⟩
      simp [keys, messageType, MessageType.keys, JobResult.keys]
  | pipelineJobRequest req =>
      refine ⟨_, rfl, ?_⟩
      simp [keys, messageType, MessageType.keys, PipelineJobRequest.keys]
  | pipelineJobResult result =>
      refine ⟨_, rfl, ?_⟩
      simp [keys, messageType, MessageType.keys, PipelineJobResult.requiredKeys]

theorem messageType_of_readFrom (h : other.ReadFrom U message.toJson) :
    other.messageType = message.messageType := by
  obtain ⟨fields, hFields, hKeys⟩ := exists_fields message
  rw [hFields] at h
  apply MessageType.eq_of_requiredKeys
  intro key hKey
  obtain ⟨value, hOnce⟩ := (accepted h).1.1 key hKey
  obtain ⟨entry, hEntry, rfl⟩ := exists_of_once hOnce
  exact hKeys entry hEntry

theorem readFrom_inj (h : message.ReadFrom U doc) (h' : other.ReadFrom U doc)
    (hType : other.messageType = message.messageType) : other = message := by
  cases message <;> cases other <;> cases hType <;>
    exact congrArg _ (Option.some.inj (h'.symm.trans h))

end SignedMessage

/-- A message is read from its own bytes, which no reader takes for another message, of this or of
another type; so the text on the wire says which message it is. -/
theorem wire_round_trip (W : WireFormat) (message : SignedMessage) (hValues : message.HasValues)
    (hReadable : message.Readable W.keepsFloat) :
    message.ReadBy W message.toVec ∧
      (∀ other : SignedMessage, other.ReadBy W message.toVec → other = message) ∧
      ∀ other : SignedMessage, other.HasValues → other.toVec = message.toVec →
        other = message := by
  have hSelf : message.ReadFrom W.toUuidFormat message.toJson :=
    SignedMessage.readFrom_toJson hValues
  have hOnly : ∀ other : SignedMessage, other.ReadFrom W.toUuidFormat message.toJson →
      other = message :=
    fun other h =>
      SignedMessage.readFrom_inj hSelf h (SignedMessage.messageType_of_readFrom h)
  have hBytes := SignedMessage.readable_toJson hReadable
  refine ⟨(SignedMessage.readBy_toVec_iff hBytes).2 hSelf, fun other hOther => ?_,
    fun other hOther hText => ?_⟩
  · exact hOnly other ((SignedMessage.readBy_toVec_iff hBytes).1 hOther)
  · have hDoc : other.toJson = message.toJson := Json.text_injective (utf8_injective hText)
    exact hOnly other (hDoc ▸ SignedMessage.readFrom_toJson hOther)

def hyphenated : UuidFormat := ⟨Uuid.parseHyphenated, Uuid.parseHyphenated_text⟩

theorem hasValues_plainJob : (SignedMessage.jobRequest JobRequest.plainJob).HasValues :=
  ⟨List.Pairwise.nil, trivial⟩

open Classical in
/-- Bytes that are no text of a document have no value; no float is relied on. -/
noncomputable def hyphenatedWire : WireFormat where
  toUuidFormat := hyphenated
  keepsFloat _ := False
  fromSlice read bytes :=
    if h : ∃ doc : Json, doc.toVec = bytes then
      match read h.choose with
      | some a => .ok a
      | none => .error "missing field"
    else .error "expected value"
  fromSlice_toVec := by
    intro α read doc a _
    have h : ∃ other : Json, other.toVec = doc.toVec := ⟨doc, rfl⟩
    rw [dif_pos h, Json.text_injective (utf8_injective h.choose_spec)]
    cases read doc with
    | none => simp
    | some b => simp

theorem readable_plainJob {keepsFloat : FloatLexeme → Prop} :
    (SignedMessage.jobRequest JobRequest.plainJob).Readable keepsFloat :=
  Json.readableIn_object.2 (List.forall_mem_nil _)

theorem wire_round_trip_plainJob :
    (SignedMessage.jobRequest JobRequest.plainJob).ReadBy hyphenatedWire
      (SignedMessage.jobRequest JobRequest.plainJob).toVec :=
  (wire_round_trip hyphenatedWire (.jobRequest JobRequest.plainJob) hasValues_plainJob
    readable_plainJob).1

variable (U : UuidFormat)

/-- A message that an older or a newer sender has written: the fields that it leaves out have their
defaults, what it adds is ignored, and the order of the fields does not matter. -/
theorem older_document_read (message : SignedMessage) (hValues : message.HasValues)
    (fields entries : List (String × Json)) (kept : String → Bool)
    (hFields : message.toJson = .object fields)
    (hEntries : Restates message.keys message.requiredKeys kept fields entries) :
    (message.keeping kept).ReadFrom U (.object entries) := by
  cases message with
  | jobRequest req => exact JobRequest.ofJson_restated U hFields hEntries hValues
  | jobResult result => exact JobResult.ofJson_restated U hFields hEntries hValues
  | pipelineJobRequest req => exact PipelineJobRequest.ofJson_restated U hFields hEntries hValues
  | pipelineJobResult result =>
      exact PipelineJobResult.ofJson_restated U hFields hEntries hValues.1 hValues.2

/-- Only the required fields of a job, from the last to the first and behind a field of a later
version. -/
def oldestJob : List (String × Json) :=
  [("trace_id", .null), ("job_nonce", .string "1700000000:00"), ("signature", .array []),
    ("allowed_hosts", stringArray ["a", "b"]), ("timeout_ms", unsigned 30000),
    ("input_payload", .object []), ("module_uri", .string "redis:wasm:3"),
    ("workflow_execution_id", .string (Uuid.text 2)), ("job_id", .string (Uuid.text 1))]

theorem restates_oldestJob : Restates JobRequest.keys JobRequest.requiredKeys
    (fun key => decide (key ∈ JobRequest.requiredKeys))
    (JobRequest.plainJob.toJson.asObject.getD []) oldestJob where
  subset := by decide
  keeps := fun key hKey => decide_eq_true hKey
  perm := by
    refine ⟨[("trace_id", .null)], by decide, ?_⟩
    exact (List.reverse_perm _).symm

theorem older_document_read_oldestJob :
    SignedMessage.ReadFrom hyphenated (.object oldestJob)
      ((SignedMessage.jobRequest JobRequest.plainJob).keeping
        fun key => decide (key ∈ JobRequest.requiredKeys)) ∧
    (JobRequest.plainJob.keeping fun key => decide (key ∈ JobRequest.requiredKeys)).dryRun =
      false :=
  ⟨older_document_read hyphenated (.jobRequest JobRequest.plainJob) hasValues_plainJob _ oldestJob _
    rfl restates_oldestJob, rfl⟩

/-- What is accepted is well formed: every required field is there, none is there twice, and the
message is read from its own bytes as it is, if the parser keeps its floats and opens all that it
nests. -/
theorem accepted_document (W : WireFormat) (message : SignedMessage)
    (entries : List (String × Json))
    (hRead : message.ReadFrom W.toUuidFormat (.object entries)) :
    GivesOnce message.keys message.requiredKeys entries ∧ message.HasValues ∧
      (message.Readable W.keepsFloat → message.ReadBy W message.toVec) := by
  obtain ⟨hOnce, hValues⟩ := SignedMessage.accepted hRead
  refine ⟨hOnce, hValues, fun hReadable => ?_⟩
  exact (SignedMessage.readBy_toVec_iff (SignedMessage.readable_toJson hReadable)).2
    (SignedMessage.readFrom_toJson hValues)

theorem accepted_document_oldestJob :
    GivesOnce JobRequest.keys JobRequest.requiredKeys oldestJob ∧
      (SignedMessage.jobRequest (JobRequest.plainJob.keeping
        fun key => decide (key ∈ JobRequest.requiredKeys))).ReadBy hyphenatedWire
          (SignedMessage.jobRequest (JobRequest.plainJob.keeping
            fun key => decide (key ∈ JobRequest.requiredKeys))).toVec := by
  have hRead := JobRequest.ofJson_restated hyphenated rfl restates_oldestJob hasValues_plainJob
  obtain ⟨hOnce, -, hAgain⟩ := accepted_document hyphenatedWire (.jobRequest _) oldestJob hRead
  exact ⟨hOnce, hAgain readable_plainJob⟩

end TalosWorkflow
