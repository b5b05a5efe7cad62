import TalosWorkflow.Replies
import TalosWorkflow.Signing.Jobs

/-!
# What the signature of a result commits to

The output, the logs and the steps of a result are hashed. Lines of a log are
joined with newlines, so they are told apart when none contains one. The time
that a single step took is not in the text.
-/

namespace TalosWorkflow

section Statuses

theorem statusStr_injective {a b : JobStatus} (h : a.statusStr.toList = b.statusStr.toList) :
    a = b := by
  cases a <;> cases b <;> first | rfl | exact absurd h (by decide)

theorem plainField_status (status : JobStatus) : status.statusStr.toList ∈ plainField := by
  cases status <;> exact plainField_of_notMem (by decide)

end Statuses

/-- Lines as a worker splits them; a single empty line reads like no line. -/
def SplitLines (logs : List String) : Prop := logs ≠ [""] ∧ ∀ line ∈ logs, '\n' ∉ line.toList

theorem eq_of_joined_lines {logs logs' : List String} (h : SplitLines logs)
    (h' : SplitLines logs') (hText : "\n".intercalate logs = "\n".intercalate logs') :
    logs = logs' := by
  have hWords : ∀ lines, SplitLines lines → (∀ w ∈ lines.map String.toList, '\n' ∉ w) ∧
      lines.map String.toList ≠ [[]] := by
    rintro lines ⟨hNot, hFree⟩
    constructor
    · intro w hw
      obtain ⟨line, hLine, rfl⟩ := List.mem_map.1 hw
      exact hFree line hLine
    · intro hEmpty
      exact hNot (List.map_injective_iff.2 (fun _ _ => String.toList_injective) hEmpty)
  have hJoin := congrArg String.toList hText
  rw [String.toList_intercalate, String.toList_intercalate] at hJoin
  apply List.map_injective_iff.2 (fun _ _ => String.toList_injective)
  exact words_inj (hWords logs h).1 (hWords logs' h').1 (hWords logs h).2 (hWords logs' h').2 hJoin

namespace JobResult

def hashed (result : JobResult) : List (List UInt8) :=
  [utf8 result.outputPayload.text, utf8 ("\n".intercalate result.logs)]

structure SameResult (result result' : JobResult) : Prop where
  jobId : result.jobId = result'.jobId
  status : result.status = result'.status
  resultNonce : result.resultNonce = result'.resultNonce
  outputPayload : result.outputPayload = result'.outputPayload
  executionTimeMs : result.executionTimeMs = result'.executionTimeMs
  logText : "\n".intercalate result.logs = "\n".intercalate result'.logs
  logs : SplitLines result.logs → SplitLines result'.logs → result.logs = result'.logs

def fieldClasses : List (Set (List Char)) :=
  [plainField, plainField, stampedField, plainField, plainField, plainField]

theorem delimited_fieldClasses : ∀ words ∈ fieldClasses, Delimited ':' words := by
  simp only [fieldClasses, List.forall_mem_cons]
  simp [delimited_plainField, delimited_stampedField]

variable {digest : Sha256} {result result' : JobResult}

theorem same_result_of_signingPayload (hNonce : (nonceTimestamp result.resultNonce).isSome)
    (hNonce' : (nonceTimestamp result'.resultNonce).isSome)
    (hFree : CollisionFree digest result.hashed result'.hashed)
    (h : result.signingPayload digest = result'.signingPayload digest) :
    SameResult result result' := by
  have hText := String.ofList_injective (utf8_injective h)
  have hFields := fields_inj delimited_fieldClasses ?_ ?_ hText
  · simp only [List.cons.injEq, and_true] at hFields
    obtain ⟨hJob, hStatus, hStamp, hOutput, hTime, hLogs⟩ := hFields
    have hOutputBytes := hFree _ List.mem_cons_self _ List.mem_cons_self
      (digest_eq_of_hexDigest digest hOutput)
    have hLogBytes := hFree _ (List.mem_cons_of_mem _ List.mem_cons_self) _
      (List.mem_cons_of_mem _ List.mem_cons_self) (digest_eq_of_hexDigest digest hLogs)
    have hLogText := utf8_injective hLogBytes
    exact {
      jobId := Uuid.chars_injective hJob
      status := statusStr_injective hStatus
      resultNonce := String.toList_injective hStamp
      outputPayload := Json.text_injective (utf8_injective hOutputBytes)
      executionTimeMs := UInt64.toNat_inj.1 (repr_toList_injective hTime)
      logText := hLogText
      logs := fun hLines hLines' => eq_of_joined_lines hLines hLines' hLogText }
  all_goals
    simp only [fieldClasses, List.forall₂_cons, List.forall₂_nil_left_iff, plainField_chars,
      plainField_status, stampedField_of_nonce hNonce, stampedField_of_nonce hNonce',
      plainField_hexDigest, plainField_repr, and_self]

end JobResult

namespace PipelineStepResult

def hashed (step : PipelineStepResult) : List (List UInt8) :=
  utf8 step.output.text :: (step.error.map utf8).toList

/-- Equal in all but the time the step took. -/
structure SameStep (step step' : PipelineStepResult) : Prop where
  moduleId : step.moduleId = step'.moduleId
  status : step.status = step'.status
  output : step.output = step'.output
  error : step.error = step'.error

def fieldClasses : List (Set (List Char)) := List.replicate 4 {w | w.count '|' = 0}

theorem delimited_fieldClasses : ∀ words ∈ fieldClasses, Delimited '|' words := by
  intro words hWords
  rw [(List.mem_replicate.1 hWords).2]
  exact delimited_count '|' 0

variable {digest : Sha256} {step step' : PipelineStepResult} {error error' : Option String}

def errorField (digest : Sha256) : Option String → List Char
  | some e => hexDigest digest (utf8 e)
  | none => "none".toList

theorem errorField_injective
    (hFree : CollisionFree digest (error.map utf8).toList (error'.map utf8).toList)
    (h : errorField digest error = errorField digest error') : error = error' := by
  cases error with
  | some e =>
      cases error' with
      | some e' =>
          have hBytes := hFree (utf8 e) List.mem_cons_self (utf8 e') List.mem_cons_self
            (digest_eq_of_hexDigest digest h)
          rw [utf8_injective hBytes]
      | none => exact absurd h (hexDigest_ne_none _)
  | none =>
      cases error' with
      | some e' => exact absurd h.symm (hexDigest_ne_none _)
      | none => rfl

theorem line_eq (digest : Sha256) (step : PipelineStepResult) :
    step.line digest = ['|'].intercalate [step.moduleId.chars, step.status.statusStr.toList,
      hexDigest digest (utf8 step.output.text), errorField digest step.error] := by
  rw [line]
  cases step.error <;> rfl

/-- The words of a line are made of hyphens, hexadecimal digits and small letters. -/
theorem notMem_words {c : Char} (hHex : isHexChar c = false) (hDash : c ≠ '-')
    (hStatus : ∀ status : JobStatus, c ∉ status.statusStr.toList) (hNone : c ∉ "none".toList)
    (digest : Sha256) (step : PipelineStepResult) :
    ∀ w ∈ [step.moduleId.chars, step.status.statusStr.toList,
      hexDigest digest (utf8 step.output.text), errorField digest step.error], c ∉ w := by
  have hError : c ∉ errorField digest step.error := by
    cases step.error with
    | some e => exact notMem_hexDigits hHex
    | none => exact hNone
  simp only [List.forall_mem_cons]
  exact ⟨notMem_chars hHex hDash _, hStatus _, notMem_hexDigits hHex, hError,
    fun _ h => absurd h List.not_mem_nil⟩

theorem newline_notMem_line (digest : Sha256) (step : PipelineStepResult) :
    '\n' ∉ step.line digest := by
  have hWords := notMem_words (c := '\n') (by decide) (by decide)
    (by intro status; cases status <;> decide) (by decide) digest step
  intro h
  rw [line_eq] at h
  have hJoin := List.mem_append_left ['|'] h
  rw [intercalate_append_sep (List.cons_ne_nil _ _), List.mem_flatMap] at hJoin
  obtain ⟨w, hWord, hIn⟩ := hJoin
  rw [List.mem_append, List.mem_singleton] at hIn
  obtain hIn | hBar := hIn
  · exact hWords w hWord hIn
  · cases hBar

theorem line_ne_nil (digest : Sha256) (step : PipelineStepResult) : step.line digest ≠ [] := by
  rw [line_eq, List.intercalate_cons_cons]
  simp

theorem same_step_of_line (hFree : CollisionFree digest step.hashed step'.hashed)
    (h : step.line digest = step'.line digest) : SameStep step step' := by
  rw [line_eq, line_eq] at h
  have hPlain : ∀ step : PipelineStepResult, List.Forall₂ (fun words u => u ∈ words) fieldClasses
      [step.moduleId.chars, step.status.statusStr.toList,
        hexDigest digest (utf8 step.output.text), errorField digest step.error] := by
    intro step
    have hWords := notMem_words (c := '|') (by decide) (by decide)
      (by intro status; cases status <;> decide) (by decide) digest step
    simp only [List.forall_mem_cons] at hWords
    obtain ⟨hModule, hStatus, hOutput, hError, -⟩ := hWords
    exact .cons (List.count_eq_zero.2 hModule) (.cons (List.count_eq_zero.2 hStatus)
      (.cons (List.count_eq_zero.2 hOutput) (.cons (List.count_eq_zero.2 hError) .nil)))
  have hFields := fields_inj delimited_fieldClasses (hPlain step) (hPlain step') h
  simp only [List.cons.injEq, and_true] at hFields
  obtain ⟨hModule, hStatus, hOutput, hError⟩ := hFields
  have hOutputBytes := hFree _ List.mem_cons_self _ List.mem_cons_self
    (digest_eq_of_hexDigest digest hOutput)
  have hErrors : CollisionFree digest (step.error.map utf8).toList (step'.error.map utf8).toList :=
    fun a ha b hb => hFree a (List.mem_cons_of_mem _ ha) b (List.mem_cons_of_mem _ hb)
  exact {
    moduleId := Uuid.chars_injective hModule
    status := statusStr_injective hStatus
    output := Json.text_injective (utf8_injective hOutputBytes)
    error := errorField_injective hErrors hError }

theorem same_steps_of_lines {steps steps' : List PipelineStepResult}
    (hFree : CollisionFree digest (steps.flatMap hashed) (steps'.flatMap hashed))
    (h : steps.map (line digest) = steps'.map (line digest)) :
    List.Forall₂ SameStep steps steps' := by
  induction steps generalizing steps' with
  | nil =>
      rw [List.map_nil, eq_comm, List.map_eq_nil_iff] at h
      rw [h]
      exact .nil
  | cons step steps ih =>
      cases steps' with
      | nil => cases h
      | cons step' steps' =>
          obtain ⟨hLine, hRest⟩ := List.cons.inj h
          rw [List.flatMap_cons, List.flatMap_cons] at hFree
          constructor
          · refine same_step_of_line (fun a ha b hb => ?_) hLine
            exact hFree a (List.mem_append_left _ ha) b (List.mem_append_left _ hb)
          · refine ih (fun a ha b hb => ?_) hRest
            exact hFree a (List.mem_append_right _ ha) b (List.mem_append_right _ hb)

end PipelineStepResult

namespace PipelineJobResult

def stepText (digest : Sha256) (result : PipelineJobResult) : List Char :=
  ['\n'].intercalate (result.stepResults.map (PipelineStepResult.line digest))

def hashed (digest : Sha256) (result : PipelineJobResult) : List (List UInt8) :=
  utf8 result.finalOutput.text :: utf8 (String.ofList (result.stepText digest)) ::
    result.stepResults.flatMap PipelineStepResult.hashed

structure SameResult (result result' : PipelineJobResult) : Prop where
  jobId : result.jobId = result'.jobId
  overallStatus : result.overallStatus = result'.overallStatus
  resultNonce : result.resultNonce = result'.resultNonce
  totalTimeMs : result.totalTimeMs = result'.totalTimeMs
  finalOutput : result.finalOutput = result'.finalOutput
  stepResults : List.Forall₂ PipelineStepResult.SameStep result.stepResults result'.stepResults

def fieldClasses : List (Set (List Char)) :=
  [plainField, plainField, plainField, stampedField, plainField, plainField, plainField]

theorem delimited_fieldClasses : ∀ words ∈ fieldClasses, Delimited ':' words := by
  simp only [fieldClasses, List.forall_mem_cons]
  simp [delimited_plainField, delimited_stampedField]

variable {digest : Sha256} {result result' : PipelineJobResult}

theorem lines_of_stepText (h : result.stepText digest = result'.stepText digest) :
    result.stepResults.map (PipelineStepResult.line digest) =
      result'.stepResults.map (PipelineStepResult.line digest) := by
  have hLines : ∀ result : PipelineJobResult,
      ∀ l ∈ result.stepResults.map (PipelineStepResult.line digest), '\n' ∉ l := by
    intro result l hl
    obtain ⟨step, -, rfl⟩ := List.mem_map.1 hl
    exact PipelineStepResult.newline_notMem_line digest step
  have hSome : ∀ result : PipelineJobResult,
      result.stepResults.map (PipelineStepResult.line digest) ≠ [[]] := by
    intro result hNil
    have hIn : [] ∈ result.stepResults.map (PipelineStepResult.line digest) :=
      hNil ▸ List.mem_cons_self
    obtain ⟨step, -, hLine⟩ := List.mem_map.1 hIn
    exact PipelineStepResult.line_ne_nil digest step hLine
  exact words_inj (hLines result) (hLines result') (hSome result) (hSome result') h

theorem same_result_of_signingPayload (hNonce : (nonceTimestamp result.resultNonce).isSome)
    (hNonce' : (nonceTimestamp result'.resultNonce).isSome)
    (hFree : CollisionFree digest (result.hashed digest) (result'.hashed digest))
    (h : result.signingPayload digest = result'.signingPayload digest) :
    SameResult result result' := by
  have hText := String.ofList_injective (utf8_injective h)
  have hMarker : "pipeline_result".toList ∈ plainField := plainField_of_notMem (by decide)
  have hFields := fields_inj delimited_fieldClasses ?_ ?_ hText
  · simp only [List.cons.injEq, and_true, true_and] at hFields
    obtain ⟨hJob, hStatus, hStamp, hTime, hOutput, hSteps⟩ := hFields
    have hOutputBytes := hFree _ List.mem_cons_self _ List.mem_cons_self
      (digest_eq_of_hexDigest digest hOutput)
    have hStepBytes := hFree _ (List.mem_cons_of_mem _ List.mem_cons_self) _
      (List.mem_cons_of_mem _ List.mem_cons_self) (digest_eq_of_hexDigest digest hSteps)
    have hLines := lines_of_stepText (String.ofList_injective (utf8_injective hStepBytes))
    have hInner : CollisionFree digest (result.stepResults.flatMap PipelineStepResult.hashed)
        (result'.stepResults.flatMap PipelineStepResult.hashed) :=
      fun a ha b hb => hFree a (List.mem_cons_of_mem _ (List.mem_cons_of_mem _ ha)) b
        (List.mem_cons_of_mem _ (List.mem_cons_of_mem _ hb))
    exact {
      jobId := Uuid.chars_injective hJob
      overallStatus := statusStr_injective hStatus
      resultNonce := String.toList_injective hStamp
      totalTimeMs := UInt64.toNat_inj.1 (repr_toList_injective hTime)
      finalOutput := Json.text_injective (utf8_injective hOutputBytes)
      stepResults := PipelineStepResult.same_steps_of_lines hInner hLines }
  all_goals
    simp only [fieldClasses, List.forall₂_cons, List.forall₂_nil_left_iff, hMarker, plainField_chars,
      plainField_status, stampedField_of_nonce hNonce, stampedField_of_nonce hNonce',
      plainField_hexDigest, plainField_repr, and_self]

end PipelineJobResult

/-- Results with one signing payload agree, but for the split of the logs into lines and the times
of single steps. -/
theorem results_committed (digest : Sha256) :
    (∀ result result' : JobResult, (nonceTimestamp result.resultNonce).isSome →
      (nonceTimestamp result'.resultNonce).isSome →
      CollisionFree digest result.hashed result'.hashed →
      result.signingPayload digest = result'.signingPayload digest →
        JobResult.SameResult result result') ∧
    ∀ result result' : PipelineJobResult, (nonceTimestamp result.resultNonce).isSome →
      (nonceTimestamp result'.resultNonce).isSome →
      CollisionFree digest (result.hashed digest) (result'.hashed digest) →
      result.signingPayload digest = result'.signingPayload digest →
        PipelineJobResult.SameResult result result' :=
  ⟨fun _ _ hNonce hNonce' hFree h =>
    JobResult.same_result_of_signingPayload hNonce hNonce' hFree h,
    fun _ _ hNonce hNonce' hFree h =>
      PipelineJobResult.same_result_of_signingPayload hNonce hNonce' hFree h⟩

section Samples

def plainResult : JobResult where
  jobId := 1
  status := .success
  outputPayload := .object []
  logs := []
  executionTimeMs := 12
  signature := []
  resultNonce := "1700000000:00"

def plainPipelineResult : PipelineJobResult where
  jobId := 1
  overallStatus := .success
  stepResults := [⟨5, .success, .object [], 7, none⟩]
  finalOutput := .object []
  totalTimeMs := 12
  signature := []
  resultNonce := "1700000000:00"

/-- The step is said to have taken another time. -/
def retimedPipelineResult : PipelineJobResult :=
  { plainPipelineResult with stepResults := [⟨5, .success, .object [], 7000, none⟩] }

theorem eq_of_knownDigest {bytes : List UInt8}
    (h : JobRequest.knownDigest bytes = JobRequest.knownDigest [123, 125]) : bytes = [123, 125] := by
  rw [JobRequest.knownDigest] at h
  split at h
  · exact absurd h (by decide)
  · split at h
    · assumption
    · exact absurd h (by decide)

theorem collisionFree_plainPipelineResult :
    CollisionFree JobRequest.knownDigest (plainPipelineResult.hashed JobRequest.knownDigest)
      (retimedPipelineResult.hashed JobRequest.knownDigest) := by
  have hOutput : utf8 (Json.object []).text = [123, 125] := by decide
  have hHashed : ∀ bytes ∈ plainPipelineResult.hashed JobRequest.knownDigest, bytes = [123, 125] ∨
      bytes = utf8 (String.ofList (plainPipelineResult.stepText JobRequest.knownDigest)) := by
    intro bytes hBytes
    simpa [PipelineJobResult.hashed, plainPipelineResult, PipelineStepResult.hashed, hOutput,
      or_comm, or_left_comm] using hBytes
  have hRetimed : retimedPipelineResult.hashed JobRequest.knownDigest =
      plainPipelineResult.hashed JobRequest.knownDigest := rfl
  rw [hRetimed]
  intro a ha b hb hSame
  obtain rfl | rfl := hHashed a ha
  · exact (eq_of_knownDigest hSame.symm).symm
  · obtain rfl | rfl := hHashed b hb
    · exact eq_of_knownDigest hSame
    · rfl

theorem results_committed_plain :
    JobResult.SameResult plainResult { plainResult with signature := [1] } ∧
      PipelineJobResult.SameResult plainPipelineResult retimedPipelineResult := by
  have hHashed : plainResult.hashed = [[123, 125], []] := by decide
  have hFree : CollisionFree JobRequest.knownDigest plainResult.hashed plainResult.hashed := by
    have hAll : ∀ a ∈ [[123, 125], []], ∀ b ∈ [[123, 125], []],
        JobRequest.knownDigest a = JobRequest.knownDigest b → a = b := by decide
    simpa only [CollisionFree, hHashed] using hAll
  obtain ⟨hJob, hPipeline⟩ := results_committed JobRequest.knownDigest
  exact ⟨hJob plainResult { plainResult with signature := [1] } (by decide) (by decide) hFree rfl,
    hPipeline plainPipelineResult retimedPipelineResult (by decide) (by decide)
      collisionFree_plainPipelineResult rfl⟩

/-- One line of a log against two, and a step of seven milliseconds against one of seven seconds. -/
theorem distinct_results_share_payload :
    (∃ result result' : JobResult, (nonceTimestamp result.resultNonce).isSome ∧
      (nonceTimestamp result'.resultNonce).isSome ∧
      (∀ digest, result.signingPayload digest = result'.signingPayload digest) ∧
      result.logs ≠ result'.logs) ∧
    ∃ result result' : PipelineJobResult, (nonceTimestamp result.resultNonce).isSome ∧
      (nonceTimestamp result'.resultNonce).isSome ∧
      (∀ digest, result.signingPayload digest = result'.signingPayload digest) ∧
      result.stepResults.map (·.executionTimeMs) ≠ result'.stepResults.map (·.executionTimeMs) := by
  refine ⟨⟨{ plainResult with logs := ["a\nb"] }, { plainResult with logs := ["a", "b"] }, by decide,
    by decide, ?_, by decide⟩, plainPipelineResult, retimedPipelineResult, by decide, by decide,
    fun _ => rfl, by decide⟩
  intro digest
  have hJoin : "\n".intercalate ["a", "b"] = "\n".intercalate ["a\nb"] := by decide
  simp only [JobResult.signingPayload, JobResult.signingText, hJoin]

end Samples

end TalosWorkflow
