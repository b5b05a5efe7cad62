import TalosWorkflow.Protocol

/-!
# Replies of workers

Results of single jobs and of pipelines, and the texts that are signed.
-/

namespace TalosWorkflow

inductive JobStatus where
  | success
  | failed
  | timedOut
  deriving DecidableEq

def JobStatus.statusStr : JobStatus → String
  | .success => "success"
  | .failed => "failed"
  | .timedOut => "timedout"

structure JobResult where
  jobId : Uuid
  status : JobStatus
  outputPayload : Json
  logs : List String
  executionTimeMs : UInt64
  signature : List UInt8
  resultNonce : String
  deriving DecidableEq

structure PipelineStepResult where
  moduleId : Uuid
  status : JobStatus
  output : Json
  executionTimeMs : UInt64
  error : Option String
  deriving DecidableEq

structure PipelineJobResult where
  jobId : Uuid
  overallStatus : JobStatus
  stepResults : List PipelineStepResult
  finalOutput : Json
  totalTimeMs : UInt64
  signature : List UInt8
  resultNonce : String
  deriving DecidableEq

section Signing

variable (digest : Sha256)

namespace JobResult

variable (result : JobResult)

def signingText : List Char :=
  [':'].intercalate
    [result.jobId.chars, result.status.statusStr.toList,
      result.resultNonce.toList,
      hexDigest digest (utf8 result.outputPayload.text),
      result.executionTimeMs.toNat.repr.toList,
      hexDigest digest (utf8 ("\n".intercalate result.logs))]

def signingPayload : List UInt8 := utf8 (String.ofList (result.signingText digest))

end JobResult

namespace PipelineStepResult

variable (step : PipelineStepResult)

/-- The line of a step in the text that is hashed for all of them. -/
def line : List Char :=
  ['|'].intercalate
    [step.moduleId.chars, step.status.statusStr.toList,
      hexDigest digest (utf8 step.output.text),
      match step.error with
      | some e => hexDigest digest (utf8 e)
      | none => "none".toList]

end PipelineStepResult

namespace PipelineJobResult

variable (result : PipelineJobResult)

def signingText : List Char :=
  [':'].intercalate
    ["pipeline_result".toList, result.jobId.chars, result.overallStatus.statusStr.toList,
      result.resultNonce.toList,
      result.totalTimeMs.toNat.repr.toList,
      hexDigest digest (utf8 result.finalOutput.text),
      hexDigest digest (utf8 (String.ofList
        (['\n'].intercalate (result.stepResults.map (PipelineStepResult.line digest)))))]

def signingPayload : List UInt8 := utf8 (String.ofList (result.signingText digest))

end PipelineJobResult

end Signing

end TalosWorkflow
