import TalosWorkflow.Library.Shuffle
import TalosWorkflow.Pipelines.Sequential

/-!
# The rows of module executions

Every dispatch of a module writes rows to a store of module executions, and the
dispatches of any number of engines write to it side by side. A row tells the
story of one step, as the dispatcher has answered for that step.
-/

namespace TalosWorkflow

variable {H : Host}

/-- What the dispatcher answers for one step. -/
structure StepReport extends ChainStepResult where
  executionTimeMs : UInt64

/-- The calls of the store, each with the id of its row, and those of the hook that follow them. -/
inductive AuditCall where
  | recordStarted (id moduleId userId workflowExecutionId : Uuid) (input : Json)
      (triggerType : String) (raceSafeStatus : Bool)
  | recordCompleted (id : Uuid) (status : String) (output : Json) (durationMs : Nat)
      (errorMessage : Option String)
  | onPipelineStepCompleted (id : Uuid) (actorId : Option Uuid) (stepOutput : Json)
  deriving DecidableEq

def AuditCall.id : AuditCall → Uuid
  | .recordStarted id .. | .recordCompleted id .. | .onPipelineStepCompleted id .. => id

def StepStatus.rowStatus : StepStatus → String
  | .success => "completed"
  | .timedOut => "timeout"
  | .failed => "failed"

def maxDurationMs : Nat := 2 ^ 31 - 1

/-- The ids that a store knows its modules by, and the user recorded where there is none. -/
structure AuditContext (H : Host) where
  resolveModuleId : H.ModuleExecutionStore → Uuid → Uuid
  freshUser : Uuid

namespace ParallelWorkflowEngine

variable (E : ParallelWorkflowEngine H) (A : AuditContext H)

def startedCall (store : H.ModuleExecutionStore) (d : DispatchContext) (row moduleId : Uuid)
    (input : Json) (raceSafeStatus : Bool) : AuditCall :=
  .recordStarted row (A.resolveModuleId store moduleId) (E.userId.getD A.freshUser) d.executionId
    input "webhook" raceSafeStatus

/-- The row of a module on its own has the id of its job, and is left as it was started. -/
def singleCalls (d : DispatchContext) (nodeId : Uuid) (inputs : Json) : List AuditCall :=
  match E.moduleExecutionStore, E.runSingleNodeDispatch d nodeId inputs with
  | some store, .ok _ =>
      [E.startedCall A store d d.freshJobId (E.resolveModuleId nodeId) inputs true]
  | _, _ => []

/-- The hook is told of successful steps only, and of their output as it is. -/
def completedCalls (row : Uuid) (report : StepReport) : List AuditCall :=
  .recordCompleted row report.status.rowStatus (E.redactJson report.output)
      (min report.executionTimeMs.toNat maxDurationMs) (report.error.map E.redactStr) ::
    if report.status = .success ∧ E.nodeHook.isSome then
      [.onPipelineStepCompleted row E.actorId report.output]
    else []

def abortedCall (row : Uuid) : AuditCall :=
  .recordCompleted row "failed" .null 0 (some "Pipeline aborted before this step")

section Chains

variable (d : DispatchContext) (chainInput : Json) (nodeIds : List Uuid) (row : Nat → Uuid)

def stepStarted (store : H.ModuleExecutionStore) (nodeId : Uuid) (n : Nat) : AuditCall :=
  E.startedCall A store d (row n) nodeId
    (if n = 0 then .object [("input", chainInput)] else .null) false

/-- Reports beyond the steps of the chain are passed over; steps without one were not run. -/
def closingCalls (reports : List StepReport) : List AuditCall :=
  (reports.zipIdx.flatMap fun report =>
      if report.2 < nodeIds.length then E.completedCalls (row report.2) report.1 else []) ++
    (List.range' reports.length (nodeIds.length - reports.length)).map fun n =>
      abortedCall (row n)

/-- The reports that the rows are closed with, if the dispatcher is asked and answers. -/
def closingReports (outcome : Except String (List StepReport)) : Option (List StepReport) :=
  match E.chainTimeoutSecs d nodeIds, outcome with
  | .ok _, .ok reports => some reports
  | _, _ => none

def chainCalls (outcome : Except String (List StepReport)) : List AuditCall :=
  match E.moduleExecutionStore, E.chainSteps d nodeIds with
  | some store, .ok _ =>
      (nodeIds.zipIdx.map fun node => E.stepStarted A d chainInput row store node.1 node.2) ++
        ((E.closingReports d nodeIds outcome).map (E.closingCalls nodeIds row)).getD []
  | _, _ => []

end Chains

end ParallelWorkflowEngine

/-- A dispatch of a module on its own or of a chain. The ids of a chain's rows and the answer of its
dispatcher are fixed for one dispatch. -/
inductive AuditedDispatch (H : Host) where
  | single (E : ParallelWorkflowEngine H) (d : DispatchContext) (nodeId : Uuid) (inputs : Json)
  | chain (E : ParallelWorkflowEngine H) (d : DispatchContext) (nodeIds : List Uuid)
      (chainInput : Json) (row : Nat → Uuid) (outcome : Except String (List StepReport))

namespace AuditedDispatch

variable (A : AuditContext H)

def calls : AuditedDispatch H → List AuditCall
  | .single E d nodeId inputs => E.singleCalls A d nodeId inputs
  | .chain E d nodeIds chainInput row outcome => E.chainCalls A d chainInput nodeIds row outcome

def size : AuditedDispatch H → Nat
  | .single .. => 1
  | .chain _ _ nodeIds .. => nodeIds.length

def row : AuditedDispatch H → Nat → Uuid
  | .single _ d .., _ => d.freshJobId
  | .chain _ _ _ _ row _, n => row n

def rows (D : AuditedDispatch H) : List Uuid := (List.range D.size).map D.row

/-- What becomes of one row: it is started, and closed with the report of its own step. -/
def rowCalls : AuditedDispatch H → Nat → List AuditCall
  | .single E d nodeId inputs, _ => E.singleCalls A d nodeId inputs
  | .chain E d nodeIds chainInput row outcome, n =>
      match E.moduleExecutionStore, E.chainSteps d nodeIds with
      | some store, .ok _ =>
          (nodeIds[n]?.map fun nodeId => E.stepStarted A d chainInput row store nodeId n).toList ++
            match E.closingReports d nodeIds outcome with
            | some reports =>
                match reports[n]? with
                | some report => E.completedCalls (row n) report
                | none => [ParallelWorkflowEngine.abortedCall (row n)]
            | none => []
      | _, _ => []

end AuditedDispatch

section Rows

namespace AuditedDispatch

variable {A : AuditContext H}

theorem row_mem_rows (D : AuditedDispatch H) {n : Nat} (h : n < D.size) : D.row n ∈ D.rows :=
  List.mem_map.2 ⟨n, List.mem_range.2 h, rfl⟩

theorem row_inj {D : AuditedDispatch H} (hNodup : D.rows.Nodup) {m n : Nat} (hm : m < D.size)
    (hn : n < D.size) (h : D.row m = D.row n) : m = n :=
  List.inj_on_of_nodup_map hNodup (List.mem_range.2 hm) (List.mem_range.2 hn) h

theorem singleCalls_id {E : ParallelWorkflowEngine H} {d : DispatchContext} {nodeId : Uuid}
    {inputs : Json} {call : AuditCall} (h : call ∈ E.singleCalls A d nodeId inputs) :
    call.id = d.freshJobId := by
  unfold ParallelWorkflowEngine.singleCalls at h
  split at h
  · rw [List.mem_singleton.1 h]
    rfl
  · cases h

theorem completedCalls_id {E : ParallelWorkflowEngine H} {row : Uuid} {report : StepReport}
    {call : AuditCall} (h : call ∈ E.completedCalls row report) : call.id = row := by
  obtain rfl | hHook := List.mem_cons.1 h
  · rfl
  · split at hHook
    · rw [List.mem_singleton.1 hHook]
      rfl
    · cases hHook

theorem closingCalls_id {E : ParallelWorkflowEngine H} {nodeIds : List Uuid} {row : Nat → Uuid}
    {reports : List StepReport} {call : AuditCall} (h : call ∈ E.closingCalls nodeIds row reports) :
    ∃ n, n < nodeIds.length ∧ call.id = row n := by
  obtain hReported | hAborted := List.mem_append.1 h
  · obtain ⟨report, -, hIn⟩ := List.mem_flatMap.1 hReported
    split at hIn
    · rename_i hLt
      exact ⟨report.2, hLt, completedCalls_id hIn⟩
    · cases hIn
  · obtain ⟨n, hn, rfl⟩ := List.mem_map.1 hAborted
    rw [List.mem_range'_1] at hn
    exact ⟨n, by omega, rfl⟩

theorem calls_id (D : AuditedDispatch H) {call : AuditCall} (h : call ∈ D.calls A) :
    ∃ n, n < D.size ∧ call.id = D.row n := by
  cases D with
  | single E d nodeId inputs => exact ⟨0, Nat.one_pos, singleCalls_id h⟩
  | chain E d nodeIds chainInput row outcome =>
      simp only [calls, ParallelWorkflowEngine.chainCalls] at h
      split at h
      · obtain hStarted | hClosed := List.mem_append.1 h
        · obtain ⟨node, hNode, rfl⟩ := List.mem_map.1 hStarted
          exact ⟨node.2, List.snd_lt_of_mem_zipIdx hNode, rfl⟩
        · cases hReports : E.closingReports d nodeIds outcome with
          | none =>
              rw [hReports] at hClosed
              cases hClosed
          | some reports =>
              rw [hReports] at hClosed
              exact closingCalls_id hClosed
      · cases h

theorem filter_started {E : ParallelWorkflowEngine H} {d : DispatchContext} {chainInput : Json}
    {nodeIds : List Uuid} {row : Nat → Uuid} {store : H.ModuleExecutionStore}
    {n : Nat} (hSame : ∀ m, m < nodeIds.length → (row m = row n ↔ m = n)) :
    (nodeIds.zipIdx.map fun node => E.stepStarted A d chainInput row store node.1 node.2).filter
        (fun call => call.id = row n) =
      (nodeIds[n]?.map fun nodeId => E.stepStarted A d chainInput row store nodeId n).toList := by
  rw [List.map_eq_flatMap, Shuffle.filter_flatMap_zipIdx n, if_pos (Nat.zero_le n), Nat.sub_zero]
  · cases nodeIds[n]? <;> rfl
  · intro node hNode call hCall
    rw [List.mem_singleton.1 hCall, decide_eq_true_iff]
    exact hSame node.2 (List.snd_lt_of_mem_zipIdx hNode)

theorem filter_closing {E : ParallelWorkflowEngine H} {nodeIds : List Uuid} {row : Nat → Uuid}
    {reports : List StepReport} {n : Nat} (hn : n < nodeIds.length)
    (hSame : ∀ m, m < nodeIds.length → (row m = row n ↔ m = n)) :
    (E.closingCalls nodeIds row reports).filter (fun call => call.id = row n) =
      match reports[n]? with
      | some report => E.completedCalls (row n) report
      | none => [ParallelWorkflowEngine.abortedCall (row n)] := by
  have hAborted : (List.range' reports.length (nodeIds.length - reports.length)).filter
      (fun m => (ParallelWorkflowEngine.abortedCall (row m)).id = row n) =
        if reports.length ≤ n then [n] else [] := by
    have hIs : ∀ m ∈ List.range' reports.length (nodeIds.length - reports.length),
        decide ((ParallelWorkflowEngine.abortedCall (row m)).id = row n) = decide (m = n) := by
      intro m hm
      rw [List.mem_range'_1] at hm
      exact decide_eq_decide.2 (hSame m (by omega))
    rw [List.filter_congr hIs, List.filter_eq, (List.nodup_range' _).count]
    simp only [List.mem_range'_1]
    split
    · rw [if_pos (by omega)]
      rfl
    · rw [if_neg (by omega)]
      rfl
  rw [ParallelWorkflowEngine.closingCalls, List.filter_append, Shuffle.filter_flatMap_zipIdx n,
    if_pos (Nat.zero_le n), Nat.sub_zero, List.filter_map, Function.comp_def, hAborted]
  · cases hReport : reports[n]? with
    | none =>
        rw [if_pos (List.getElem?_eq_none_iff.1 hReport)]
        rfl
    | some report =>
        obtain ⟨hLt, -⟩ := List.getElem?_eq_some_iff.1 hReport
        rw [if_neg (Nat.not_le_of_lt hLt)]
        simp [hn]
  · intro report _ call hCall
    split at hCall
    · rename_i hLt
      rw [completedCalls_id hCall, decide_eq_true_iff]
      exact hSame report.2 hLt
    · cases hCall

theorem filter_calls (D : AuditedDispatch H) (hNodup : D.rows.Nodup) {n : Nat} (hn : n < D.size) :
    (D.calls A).filter (fun call => call.id = D.row n) = D.rowCalls A n := by
  have hSame : ∀ m, m < D.size → (D.row m = D.row n ↔ m = n) := fun m hm =>
    ⟨row_inj hNodup hm hn, fun h => h ▸ rfl⟩
  cases D with
  | single E d nodeId inputs =>
      refine List.filter_eq_self.2 fun call hCall => ?_
      rw [decide_eq_true_iff]
      exact singleCalls_id hCall
  | chain E d nodeIds chainInput row outcome =>
      simp only [calls, rowCalls, ParallelWorkflowEngine.chainCalls, AuditedDispatch.row]
      split
      · rw [List.filter_append]
        refine congrArg₂ (· ++ ·) (filter_started hSame) ?_
        cases E.closingReports d nodeIds outcome with
        | none => rfl
        | some reports => exact filter_closing hn hSame
      · rfl

end AuditedDispatch

end Rows

section Runs

variable {ι : Type} [DecidableEq ι] {A : AuditContext H} {D : ι → AuditedDispatch H}
  {s : Shuffle ι AuditCall}

structure FreshRows (D : ι → AuditedDispatch H) : Prop where
  nodup : ∀ i, (D i).rows.Nodup
  disjoint : ∀ i j, i ≠ j → ∀ id ∈ (D i).rows, id ∉ (D j).rows

omit [DecidableEq ι] in
theorem FreshRows.apart (h : FreshRows D) :
    Shuffle.Apart (fun i => (D i).calls A) fun i call => decide (call.id ∈ (D i).rows) where
  own i call hCall := by
    obtain ⟨n, hn, hId⟩ := (D i).calls_id hCall
    rw [decide_eq_true_iff, hId]
    exact (D i).row_mem_rows hn
  unique i j call hi hj := by
    rw [decide_eq_true_iff] at hi hj
    by_contra hne
    exact h.disjoint i j hne call.id hi hj

/-- What the log holds of a row, and what its dispatch has yet to write to it. -/
theorem row_accounts (h : FreshRows D)
    (hRun : Shuffle.Interleaves (fun i => (D i).calls A) s) {i : ι} {n : Nat} (hn : n < (D i).size) :
    s.entries.filter (fun call => call.id = (D i).row n) ++
        (s.rest i).filter (fun call => call.id = (D i).row n) = (D i).rowCalls A n := by
  have hOwn := hRun.accounts h.apart i
  have hEntries : (s.entries.filter fun call => call.id ∈ (D i).rows).filter
      (fun call => call.id = (D i).row n) =
        s.entries.filter fun call => call.id = (D i).row n := by
    rw [List.filter_filter]
    refine List.filter_congr fun call _ => ?_
    rw [Bool.and_eq_left_iff_imp]
    intro hIs
    rw [decide_eq_true_iff] at hIs ⊢
    rw [hIs]
    exact (D i).row_mem_rows hn
  rw [← (D i).filter_calls (h.nodup i) hn, ← hOwn, List.filter_append, hEntries]

end Runs

/-- However the dispatches of all engines take their turns, the log holds of each row what becomes
of its own step, up to some point, and all of it once the dispatch has ended. Nothing else is in
the log. -/
theorem audit_rows_exact {ι : Type} [DecidableEq ι] (A : AuditContext H)
    (D : ι → AuditedDispatch H) (hRows : FreshRows D) (s : Shuffle ι AuditCall)
    (hRun : Shuffle.Interleaves (fun i => (D i).calls A) s) :
    (∀ i n, n < (D i).size →
      s.entries.filter (fun call => call.id = (D i).row n) <+: (D i).rowCalls A n ∧
        (s.rest i = [] →
          s.entries.filter (fun call => call.id = (D i).row n) = (D i).rowCalls A n)) ∧
      ∀ call ∈ s.entries, ∃ i n, n < (D i).size ∧ call.id = (D i).row n := by
  refine ⟨fun i n hn => ?_, fun call hCall => ?_⟩
  · have hAccounts := row_accounts hRows hRun hn
    refine ⟨⟨_, hAccounts⟩, fun hEnded => ?_⟩
    rwa [hEnded, List.filter_nil, List.append_nil] at hAccounts
  · obtain ⟨i, hIn⟩ := hRun.stems.2 call hCall
    obtain ⟨n, hn, hId⟩ := (D i).calls_id hIn
    exact ⟨i, n, hn, hId⟩

section Sequential

variable {run : Nat → ModuleBehaviour} {jobs : List DispatchJob} {job : DispatchJob}

def stepResult (run : Nat → ModuleBehaviour) (n : Nat) (job : DispatchJob) : ChainStepResult :=
  match (run n).execute job with
  | .ok output => ⟨job.moduleId, .success, output, none⟩
  | .error e => ⟨job.moduleId, .failed, .null, some e⟩

def timed (times : Nat → UInt64) (steps : List ChainStepResult) : List StepReport :=
  steps.zipIdx.map fun step => ⟨step.1, times step.2⟩

theorem sequentialSteps_prefix (run : Nat → ModuleBehaviour) (jobs : List DispatchJob)
    (steps : List ChainStepResult) (last : Json) :
    steps <+: (sequentialSteps run jobs steps last).steps := by
  induction jobs generalizing steps last with
  | nil => exact List.prefix_refl _
  | cons job jobs ih =>
      rw [sequentialSteps]
      split
      · exact (List.prefix_append _ _).trans (ih _ _)
      · exact List.prefix_append _ _

/-- The steps that are dispatched are reported, each with its own result. -/
theorem getElem?_sequentialSteps (run : Nat → ModuleBehaviour) (steps : List ChainStepResult)
    (last : Json) {n : Nat} (hJob : jobs[n]? = some job) :
    (sequentialSteps run jobs steps last).steps[steps.length + n]? =
      if n < (payloadsFrom run steps.length jobs).length then
        some (stepResult run (steps.length + n) job)
      else none := by
  induction jobs generalizing steps last n with
  | nil => cases hJob
  | cons first jobs ih =>
      rw [sequentialSteps, payloadsFrom]
      cases hFirst : (run steps.length).execute first with
      | ok output =>
          cases n with
          | zero =>
              cases hJob
              obtain ⟨more, hMore⟩ := sequentialSteps_prefix run jobs
                (steps ++ [⟨job.moduleId, .success, output, none⟩]) output
              rw [List.length_cons, if_pos (Nat.succ_pos _), Nat.add_zero, stepResult, hFirst]
              simp only [← hMore]
              simp
          | succ n =>
              have hRest := ih (steps ++ [⟨first.moduleId, .success, output, none⟩]) output
                (n := n) hJob
              rw [List.length_append, List.length_singleton, Nat.add_assoc, Nat.add_comm 1] at hRest
              simp only [List.length_cons, Nat.succ_lt_succ_iff]
              exact hRest
      | error e =>
          cases n with
          | zero =>
              cases hJob
              rw [List.length_cons, if_pos (Nat.succ_pos _), Nat.add_zero, stepResult, hFirst]
              simp
          | succ n =>
              rw [if_neg (by simp)]
              simp

/-- What a closed row says is true of its step. -/
inductive Truthful (E : ParallelWorkflowEngine H) (run : Nat → ModuleBehaviour)
    (jobs : List DispatchJob) (n : Nat) (job : DispatchJob) :
    String → Json → Option String → Prop
  | succeeded (output : Json) (hRan : n < (chainPayloads run jobs).length)
      (hOutput : (run n).execute job = .ok output) :
      Truthful E run jobs n job "completed" (E.redactJson output) none
  | failed (e : String) (hRan : n < (chainPayloads run jobs).length)
      (hError : (run n).execute job = .error e) :
      Truthful E run jobs n job "failed" (E.redactJson .null) (some (E.redactStr e))
  | aborted (hNot : (chainPayloads run jobs).length ≤ n) :
      Truthful E run jobs n job "failed" .null (some "Pipeline aborted before this step")

theorem runPipelineChainDispatch_built {E : ParallelWorkflowEngine H} {d : DispatchContext}
    {head : NodeIndex} {rest : List NodeIndex} {chainInput : Json} {request : ChainDispatchRequest}
    (h : E.runPipelineChainDispatch d head rest chainInput = .ok request) :
    (∃ jobs, E.chainSteps d ((head :: rest).map E.nodeId) = .ok jobs) ∧
      ∃ timeout, E.chainTimeoutSecs d ((head :: rest).map E.nodeId) = .ok timeout := by
  simp only [ParallelWorkflowEngine.runPipelineChainDispatch, bind, Except.bind] at h
  split at h
  · cases h
  · rename_i jobs hJobs
    split at h
    · cases h
    · rename_i timeout hTimeout
      exact ⟨⟨jobs, hJobs⟩, timeout, hTimeout⟩

theorem getElem?_timed {times : Nat → UInt64} {n : Nat} (hJob : jobs[n]? = some job) :
    (timed times (sequentialSteps run jobs [] .null).steps)[n]? =
      if n < (chainPayloads run jobs).length then some ⟨stepResult run n job, times n⟩ else none := by
  have hResult := getElem?_sequentialSteps run [] .null hJob
  rw [List.length_nil, Nat.zero_add] at hResult
  rw [timed, List.getElem?_map, List.getElem?_zipIdx, hResult, Nat.zero_add, chainPayloads]
  split
  · rfl
  · rfl

theorem recordCompleted_mem {E : ParallelWorkflowEngine H} {row : Uuid} {report : StepReport}
    {status : String} {output : Json} {ms : Nat} {error : Option String} :
    .recordCompleted row status output ms error ∈ E.completedCalls row report ↔
      status = report.status.rowStatus ∧ output = E.redactJson report.output ∧
        ms = min report.executionTimeMs.toNat maxDurationMs ∧
          error = report.error.map E.redactStr := by
  rw [ParallelWorkflowEngine.completedCalls, List.mem_cons, AuditCall.recordCompleted.injEq,
    eq_self, true_and]
  refine or_iff_left fun hHook => ?_
  split at hHook
  · cases List.mem_singleton.1 hHook
  · cases hHook

theorem truthful_completed {E : ParallelWorkflowEngine H} {row : Uuid} {report : StepReport} {n : Nat}
    (hRan : n < (chainPayloads run jobs).length)
    (hReport : report.toChainStepResult = stepResult run n job) {status : String} {output : Json}
    {ms : Nat} {error : Option String}
    (h : .recordCompleted row status output ms error ∈ E.completedCalls row report) :
    Truthful E run jobs n job status output error := by
  obtain ⟨rfl, rfl, -, rfl⟩ := recordCompleted_mem.1 h
  rw [hReport, stepResult]
  cases hAnswer : (run n).execute job with
  | ok output => exact .succeeded output hRan hAnswer
  | error e => exact .failed e hRan hAnswer

/-- How a row of a chain is closed by the report of the sequential dispatcher. -/
def closedBy (E : ParallelWorkflowEngine H) (run : Nat → ModuleBehaviour) (jobs : List DispatchJob)
    (row : Uuid) (n : Nat) (job : DispatchJob) (time : UInt64) : List AuditCall :=
  if n < (chainPayloads run jobs).length then E.completedCalls row ⟨stepResult run n job, time⟩
  else [ParallelWorkflowEngine.abortedCall row]

theorem closedBy_truthful {E : ParallelWorkflowEngine H} {row : Uuid} {n : Nat} {time : UInt64}
    {status : String} {output : Json} {ms : Nat} {error : Option String}
    (h : .recordCompleted row status output ms error ∈ closedBy E run jobs row n job time) :
    Truthful E run jobs n job status output error := by
  unfold closedBy at h
  split at h
  · rename_i hRan
    exact truthful_completed hRan rfl h
  · rename_i hRan
    cases List.mem_singleton.1 h
    exact .aborted (Nat.le_of_not_lt hRan)

theorem exists_closedBy (E : ParallelWorkflowEngine H) (run : Nat → ModuleBehaviour)
    (jobs : List DispatchJob) (row : Uuid) (n : Nat) (job : DispatchJob) (time : UInt64) :
    ∃ status output ms error,
      .recordCompleted row status output ms error ∈ closedBy E run jobs row n job time := by
  unfold closedBy
  split
  · exact ⟨_, _, _, _, List.mem_cons_self⟩
  · exact ⟨_, _, _, _, List.mem_cons_self⟩

/-- Where there is a store, a row of such a chain is started and closed. -/
theorem rowCalls_sequential {A : AuditContext H} {E : ParallelWorkflowEngine H}
    {d : DispatchContext} {head : NodeIndex} {rest : List NodeIndex} {chainInput : Json}
    {row : Nat → Uuid} {request : ChainDispatchRequest} {times : Nat → UInt64} {n : Nat}
    (hRequest : E.runPipelineChainDispatch d head rest chainInput = .ok request)
    (hJob : request.steps[n]? = some job) :
    (AuditedDispatch.chain E d ((head :: rest).map E.nodeId) chainInput row
        (.ok (timed times (dispatchChainSequential run request).steps))).rowCalls A n =
      match E.moduleExecutionStore with
      | some store =>
          (((head :: rest).map E.nodeId)[n]?.map fun nodeId =>
              E.stepStarted A d chainInput row store nodeId n).toList ++
            closedBy E run request.steps (row n) n job (times n)
      | none => [] := by
  obtain ⟨⟨jobs, hJobs⟩, timeout, hTimeout⟩ := runPipelineChainDispatch_built hRequest
  simp only [AuditedDispatch.rowCalls, ParallelWorkflowEngine.closingReports, hJobs, hTimeout,
    dispatchChainSequential, getElem?_timed hJob]
  cases E.moduleExecutionStore with
  | none => rfl
  | some store =>
      unfold closedBy
      obtain hRan | hNot := Decidable.em (n < (chainPayloads run request.steps).length)
      · simp only [if_pos hRan]
      · simp only [if_neg hNot]

end Sequential

/-- A chain that is dispatched step by step closes each of its rows truthfully, and leaves none open
once it has ended. -/
theorem audit_tells_truth {ι : Type} [DecidableEq ι] (A : AuditContext H)
    (D : ι → AuditedDispatch H) (hRows : FreshRows D) (s : Shuffle ι AuditCall)
    (hRun : Shuffle.Interleaves (fun i => (D i).calls A) s) (run : Nat → ModuleBehaviour)
    (times : Nat → UInt64) (E : ParallelWorkflowEngine H) (d : DispatchContext) (head : NodeIndex)
    (rest : List NodeIndex) (chainInput : Json) (row : Nat → Uuid) (request : ChainDispatchRequest)
    (hRequest : E.runPipelineChainDispatch d head rest chainInput = .ok request) (i : ι)
    (hChain : D i = .chain E d ((head :: rest).map E.nodeId) chainInput row
      (.ok (timed times (dispatchChainSequential run request).steps))) (n : Nat) (job : DispatchJob)
    (hJob : request.steps[n]? = some job) :
    (∀ status output ms error, .recordCompleted (row n) status output ms error ∈ s.entries →
      Truthful E run request.steps n job status output error) ∧
      (E.moduleExecutionStore.isSome → s.rest i = [] →
        ∃ status output ms error, .recordCompleted (row n) status output ms error ∈ s.entries) := by
  obtain ⟨-, hLength, -⟩ := ParallelWorkflowEngine.runPipelineChainDispatch_ok hRequest
  obtain ⟨hLt, -⟩ := List.getElem?_eq_some_iff.1 hJob
  have hn : n < (D i).size := by
    rw [hChain]
    change n < ((head :: rest).map E.nodeId).length
    rw [List.length_map, List.length_cons]
    omega
  have hAccounts := row_accounts hRows hRun hn
  rw [hChain, rowCalls_sequential hRequest hJob] at hAccounts
  constructor
  · intro status output ms error hCall
    have hIn := (congrArg (AuditCall.recordCompleted (row n) status output ms error ∈ ·)
      hAccounts).mp (List.mem_append_left _ (List.mem_filter.2 ⟨hCall, decide_eq_true rfl⟩))
    split at hIn
    · obtain hStarted | hClosed := List.mem_append.1 hIn
      · obtain ⟨nodeId, -, hSame⟩ := Option.map_eq_some_iff.1 (Option.mem_toList.1 hStarted)
        cases hSame
      · exact closedBy_truthful hClosed
    · cases hIn
  · intro hStore hEnded
    obtain ⟨store, hStore⟩ := Option.isSome_iff_exists.1 hStore
    rw [hEnded, List.filter_nil, List.append_nil, hStore] at hAccounts
    obtain ⟨status, output, ms, error, hClosed⟩ :=
      exists_closedBy E run request.steps (row n) n job (times n)
    refine ⟨status, output, ms, error, List.mem_of_mem_filter (p := fun call => call.id = row n) ?_⟩
    refine (congrArg (AuditCall.recordCompleted (row n) status output ms error ∈ ·) hAccounts).mpr ?_
    exact List.mem_append_right _ hClosed

section Samples

def auditedHost : Host :=
  { bareHost true with
    NodeLifecycleHook := Unit
    ModuleExecutionStore := Unit }

def auditedEngine : ParallelWorkflowEngine auditedHost :=
  { ParallelWorkflowEngine.new with
    graph := ⟨[1, 2, 3], [⟨0, 1, {}⟩, ⟨1, 2, {}⟩], by decide⟩
    nodeMeta := nodeTable [(1, moduleNode), (2, moduleNode), (3, moduleNode)]
    moduleFetcher := some sampleFetcher
    moduleExecutionStore := some ()
    nodeHook := some ()
    userId := some 5 }

def auditContext : AuditContext auditedHost := ⟨fun _ id => id, 6⟩

def auditedDispatch : DispatchContext := ⟨9, 20, none, ∅, none, none, none, 0, 0⟩

/-- A module that answers the first step and fails at the next. -/
def failingSecond : Nat → ModuleBehaviour := fun n _ _ _ =>
  if n = 0 then .ok (.bool true) else .error "no input"

def auditedRow (n : Nat) : Uuid := .ofNat 128 (21 + n)

def auditedDispatches : Bool → AuditedDispatch auditedHost
  | false => .single auditedEngine auditedDispatch 1 .null
  | true => .chain auditedEngine auditedDispatch [1, 2, 3] .null auditedRow
      (match auditedEngine.runPipelineChainDispatch auditedDispatch 0 [1, 2] .null with
        | .ok request => .ok (timed (fun _ => 3) (dispatchChainSequential failingSecond request).steps)
        | .error _ => .error "not dispatched")

theorem auditedDispatches_fresh : FreshRows auditedDispatches where
  nodup := by decide +kernel
  disjoint i j hne := by
    rw [← List.forall_iff_forall_mem]
    revert i j
    decide +kernel

theorem auditedRun : ∃ s : Shuffle Bool AuditCall,
    Shuffle.Interleaves (fun i => (auditedDispatches i).calls auditContext) s ∧
      s.rest true = [] ∧ s.entries.map AuditCall.id = [21, 20, 22, 23, 21, 21, 22, 23] := by
  have hEnd : (replay Shuffle.step (fun _ _ => True)
      [true, false, true, true, true, true, true, true]
      (.start fun i => (auditedDispatches i).calls auditContext)).map (fun s =>
        (s.rest true, s.entries.map AuditCall.id)) =
          some ([], [21, 20, 22, 23, 21, 21, 22, 23]) := by decide +kernel
  obtain ⟨s, hReplay, hSame⟩ := Option.map_eq_some_iff.1 hEnd
  obtain ⟨hRest, hIds⟩ := Prod.mk.inj hSame
  exact ⟨s, replay_run hReplay, hRest, hIds⟩

/-- The row of the second step is started and closed with its error. -/
theorem audit_rows_exact_chain : ∃ s : Shuffle Bool AuditCall,
    s.entries.map AuditCall.id = [21, 20, 22, 23, 21, 21, 22, 23] ∧
      s.entries.filter (fun call => call.id = auditedRow 1) =
        [.recordStarted 22 2 5 9 .null "webhook" false,
          .recordCompleted 22 "failed" .null 3 (some "no input")] := by
  obtain ⟨s, hRun, hRest, hIds⟩ := auditedRun
  refine ⟨s, hIds, ?_⟩
  have hExact := audit_rows_exact auditContext auditedDispatches auditedDispatches_fresh s hRun
  refine ((hExact.1 true 1 (by decide)).2 hRest).trans ?_
  decide +kernel

/-- The rows of the chain are closed with what its modules did. -/
theorem audit_tells_truth_chain : ∃ (s : Shuffle Bool AuditCall) (request : ChainDispatchRequest)
    (job : DispatchJob), request.steps[1]? = some job ∧
      ∃ status output ms error, .recordCompleted 22 status output ms error ∈ s.entries ∧
        Truthful auditedEngine failingSecond request.steps 1 job status output error := by
  obtain ⟨s, hRun, hRest, hIds⟩ := auditedRun
  have hSteps : ((auditedEngine.runPipelineChainDispatch auditedDispatch 0 [1, 2] .null).map
      fun request => request.steps.length).toOption = some 3 := by decide +kernel
  cases hRequest : auditedEngine.runPipelineChainDispatch auditedDispatch 0 [1, 2] .null with
  | error e =>
      rw [hRequest] at hSteps
      cases hSteps
  | ok request =>
      rw [hRequest] at hSteps
      have hLength : request.steps.length = 3 := Option.some.inj hSteps
      have hJob : request.steps[1]? = some request.steps[1] := List.getElem?_eq_getElem _
      have hTruth := audit_tells_truth auditContext auditedDispatches auditedDispatches_fresh s hRun
        failingSecond (fun _ => 3) auditedEngine auditedDispatch 0 [1, 2] .null auditedRow request
        hRequest true (by rw [auditedDispatches, hRequest]; rfl) 1 _ hJob
      obtain ⟨status, output, ms, error, hCall⟩ := hTruth.2 rfl hRest
      exact ⟨s, request, _, hJob, status, output, ms, error, hCall, hTruth.1 _ _ _ _ hCall⟩

end Samples

end TalosWorkflow
