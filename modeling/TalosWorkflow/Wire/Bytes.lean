import TalosWorkflow.Wire.Messages

/-!
# Documents as bytes

Documents are written as their compact texts. The parser reads integers exactly
but not every float, and opens at most 127 arrays and objects inside each other;
what it makes of other texts is left open.
-/

namespace TalosWorkflow

namespace Json

/-- `to_vec`. -/
def toVec (j : Json) : List UInt8 := utf8 j.text

section Reading

variable (keepsFloat : FloatLexeme → Prop)

mutual

/-- Read inside of an array or object, of which `depth` more may be opened. -/
def ReadableIn : Nat → Json → Prop
  | _, .null | _, .bool _ | _, .string _ => True
  | _, .number (.posInt _) | _, .number (.negInt _) => True
  | _, .number (.float lexeme) => keepsFloat lexeme
  | depth, .array items => 0 < depth ∧ ItemsReadableIn (depth - 1) items
  | depth, .object fields => 0 < depth ∧ FieldsReadableIn (depth - 1) fields

def ItemsReadableIn : Nat → List Json → Prop
  | _, [] => True
  | depth, item :: items => ReadableIn depth item ∧ ItemsReadableIn depth items

def FieldsReadableIn : Nat → List (String × Json) → Prop
  | _, [] => True
  | depth, (_, value) :: fields => ReadableIn depth value ∧ FieldsReadableIn depth fields

end

/-- The parser starts from 128, and refuses the array or object that brings it to zero. -/
def Readable : Json → Prop := ReadableIn keepsFloat 127

variable {keepsFloat} {depth : Nat}

theorem itemsReadableIn_iff {items : List Json} :
    ItemsReadableIn keepsFloat depth items ↔ ∀ item ∈ items, ReadableIn keepsFloat depth item := by
  induction items with
  | nil => simp [ItemsReadableIn]
  | cons item items ih => rw [ItemsReadableIn, ih, List.forall_mem_cons]

theorem fieldsReadableIn_iff {fields : List (String × Json)} :
    FieldsReadableIn keepsFloat depth fields ↔
      ∀ field ∈ fields, ReadableIn keepsFloat depth field.2 := by
  induction fields with
  | nil => simp [FieldsReadableIn]
  | cons field fields ih =>
      obtain ⟨key, value⟩ := field
      rw [FieldsReadableIn, ih, List.forall_mem_cons]

@[simp] theorem readableIn_string (s : String) : ReadableIn keepsFloat depth (.string s) := by
  simp [ReadableIn]

@[simp] theorem readableIn_bool (b : Bool) : ReadableIn keepsFloat depth (.bool b) := by
  simp [ReadableIn]

@[simp] theorem readableIn_null : ReadableIn keepsFloat depth .null := by simp [ReadableIn]

@[simp] theorem readableIn_unsigned (n : UInt64) : ReadableIn keepsFloat depth (unsigned n) := by
  simp [unsigned, ReadableIn]

@[simp] theorem readableIn_array {items : List Json} :
    ReadableIn keepsFloat (depth + 1) (.array items) ↔
      ∀ item ∈ items, ReadableIn keepsFloat depth item := by
  simp [ReadableIn, itemsReadableIn_iff]

@[simp] theorem readableIn_object {fields : List (String × Json)} :
    ReadableIn keepsFloat (depth + 1) (.object fields) ↔
      ∀ field ∈ fields, ReadableIn keepsFloat depth field.2 := by
  simp [ReadableIn, fieldsReadableIn_iff]

@[simp] theorem readableIn_byteArray (bytes : List UInt8) :
    ReadableIn keepsFloat (depth + 1) (byteArray bytes) :=
  readableIn_array.2 (List.forall_mem_map.2 fun b _ => readableIn_unsigned b.toUInt64)

@[simp] theorem readableIn_stringArray (items : List String) :
    ReadableIn keepsFloat (depth + 1) (stringArray items) :=
  readableIn_array.2 (List.forall_mem_map.2 fun s _ => readableIn_string s)

@[simp] theorem forall_readableIn_optionalField {key : String} {value : Option Json} :
    (∀ field ∈ optionalField key value, ReadableIn keepsFloat depth field.2) ↔
      ∀ v ∈ value, ReadableIn keepsFloat depth v := by
  cases value with
  | none => simp [optionalField]
  | some value => simp [optionalField]

end Reading

end Json

/-- `serde_json` as it is known: it reads the text of a readable document as that document. -/
structure WireFormat extends UuidFormat where
  keepsFloat : FloatLexeme → Prop
  /-- `from_slice`. -/
  fromSlice : {α : Type} → (Json → Option α) → List UInt8 → Except String α
  fromSlice_toVec : ∀ {α : Type} {read : Json → Option α} {doc : Json} {a : α},
    doc.Readable keepsFloat → (fromSlice read doc.toVec = .ok a ↔ read doc = some a)

section Messages

open Json

variable {keepsFloat : FloatLexeme → Prop} {depth : Nat}

@[simp] theorem EncryptedSecrets.readableIn_toJson (secrets : EncryptedSecrets) :
    ReadableIn keepsFloat (depth + 2) secrets.toJson := by
  simp [EncryptedSecrets.toJson]

theorem JobRequest.readable_toJson {req : JobRequest}
    (h : ReadableIn keepsFloat 126 req.inputPayload) : req.toJson.Readable keepsFloat := by
  rw [JobRequest.toJson, Readable, readableIn_object]
  simp only [List.forall_mem_append, List.forall_mem_cons, forall_readableIn_optionalField]
  simp [h]

theorem JobResult.readable_toJson {result : JobResult}
    (h : ReadableIn keepsFloat 126 result.outputPayload) : result.toJson.Readable keepsFloat := by
  rw [JobResult.toJson, Readable, readableIn_object]
  simp [h, JobStatus.toJson]

theorem PipelineStep.readableIn_toJson {step : PipelineStep}
    (h : ReadableIn keepsFloat 124 step.config) : ReadableIn keepsFloat 125 step.toJson := by
  rw [PipelineStep.toJson, readableIn_object]
  simp only [List.forall_mem_append, List.forall_mem_cons, forall_readableIn_optionalField]
  cases step.wasmBytes <;> simp [h]

theorem PipelineJobRequest.readable_toJson {req : PipelineJobRequest}
    (h : ∀ step ∈ req.steps, ReadableIn keepsFloat 124 step.config) :
    req.toJson.Readable keepsFloat := by
  have hSteps : ReadableIn keepsFloat 126 (.array (req.steps.map PipelineStep.toJson)) :=
    readableIn_array.2 (List.forall_mem_map.2 fun step hStep =>
      PipelineStep.readableIn_toJson (h step hStep))
  rw [PipelineJobRequest.toJson, Readable, readableIn_object]
  simp only [List.forall_mem_cons, hSteps]
  simp

theorem PipelineStepResult.readableIn_toJson {step : PipelineStepResult}
    (h : ReadableIn keepsFloat 124 step.output) : ReadableIn keepsFloat 125 step.toJson := by
  rw [PipelineStepResult.toJson, readableIn_object]
  cases step.error <;> simp [h, JobStatus.toJson]

theorem PipelineJobResult.readable_toJson {result : PipelineJobResult}
    (hSteps : ∀ step ∈ result.stepResults, ReadableIn keepsFloat 124 step.output)
    (hFinal : ReadableIn keepsFloat 126 result.finalOutput) :
    result.toJson.Readable keepsFloat := by
  have hResults : ReadableIn keepsFloat 126
      (.array (result.stepResults.map PipelineStepResult.toJson)) :=
    readableIn_array.2 (List.forall_mem_map.2 fun step hStep =>
      PipelineStepResult.readableIn_toJson (hSteps step hStep))
  rw [PipelineJobResult.toJson, Readable, readableIn_object]
  simp only [List.forall_mem_cons, hResults, hFinal]
  simp [JobStatus.toJson]

end Messages

end TalosWorkflow
