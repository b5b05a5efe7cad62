import TalosWorkflow.Policy.DryRun

/-!
# Chains that are dispatched step by step

The default `dispatch_chain` hands out the steps as they were built before any
of them ran. Dispatched one by one, the same nodes are given the merged config,
the output before them and the trigger.
-/

namespace TalosWorkflow

open Multigraph

/-- What modules do: by URI and inline bytes, from the payload to an output or an error. -/
abbrev ModuleBehaviour := String → Option (List UInt8) → Json → Except String Json

def ModuleBehaviour.execute (run : ModuleBehaviour) (job : DispatchJob) : Except String Json :=
  run job.moduleUri job.wasmBytes job.inputPayload

/-- Modules that do at every step of a chain what they do at the others. -/
def ModuleBehaviour.always (run : ModuleBehaviour) : Nat → ModuleBehaviour := fun _ => run

section Sequential

inductive StepStatus where
  | success
  | failed
  | timedOut
  deriving DecidableEq

structure ChainStepResult where
  moduleId : Uuid
  status : StepStatus
  output : Json
  error : Option String
  deriving DecidableEq

structure ChainDispatchResult where
  steps : List ChainStepResult
  finalOutput : Json
  overallStatus : StepStatus
  deriving DecidableEq

variable (run : Nat → ModuleBehaviour)

/-- The modules may answer otherwise at each step. -/
def sequentialSteps : List DispatchJob → List ChainStepResult → Json → ChainDispatchResult
  | [], steps, lastOutput => ⟨steps, lastOutput, .success⟩
  | job :: rest, steps, _ =>
      match (run steps.length).execute job with
      | .ok output =>
          sequentialSteps rest (steps ++ [⟨job.moduleId, .success, output, none⟩]) output
      | .error e => ⟨steps ++ [⟨job.moduleId, .failed, .null, some e⟩], .null, .failed⟩

def dispatchChainSequential (request : ChainDispatchRequest) : ChainDispatchResult :=
  sequentialSteps run request.steps [] .null

def chainOutcome (request : ChainDispatchRequest) : Except String Json :=
  let result := dispatchChainSequential run request
  match result.overallStatus with
  | .success => .ok result.finalOutput
  | _ => .error ("Pipeline execution failed: " ++ result.finalOutput.text)

def payloadsFrom : Nat → List DispatchJob → List Json
  | _, [] => []
  | n, job :: rest =>
      job.inputPayload ::
        match (run n).execute job with
        | .ok _ => payloadsFrom (n + 1) rest
        | .error _ => []

def chainPayloads (jobs : List DispatchJob) : List Json := payloadsFrom run 0 jobs

end Sequential

namespace ParallelWorkflowEngine

variable {H : Host} (E : ParallelWorkflowEngine H) (d : NodeIndex → DispatchContext)

/-- The nodes dispatched one by one, each with the inputs gathered from the results before it: the
payloads that are handed out, and the last output when no node fails. -/
def runNodes (run : ModuleBehaviour) : List NodeIndex → Json → Table Json →
    List Json × Option Json
  | [], inputs, _ => ([], some inputs)
  | idx :: rest, inputs, results =>
      match E.runSingleNodeDispatch (d idx) (E.nodeId idx) inputs with
      | .error _ => ([], none)
      | .ok job =>
          match run.execute job with
          | .error _ => ([job.inputPayload], none)
          | .ok output =>
              let results := results.insert (E.nodeId idx) output
              match rest with
              | [] => ([job.inputPayload], some output)
              | next :: _ =>
                  let later := runNodes run rest (E.gatherInputs next results) results
                  (job.inputPayload :: later.1, later.2)

end ParallelWorkflowEngine

section Inputs

variable {H : Host} {E : ParallelWorkflowEngine H}

/-- A node behind a single parent is given the parent's output without its envelope. -/
theorem gatherInputs_linked {a b : NodeIndex} {results : Table Json} {output : Json}
    (h : Linked E.graph a b) (hOutput : results.lookup (E.nodeId a) = some output) :
    E.gatherInputs b results = unwrapOutput output := by
  obtain ⟨hArc, -, hDegree⟩ := h
  obtain ⟨p, hParent⟩ := List.length_eq_one_iff.1 hDegree
  obtain rfl : a = p := by rwa [← mem_predecessors, hParent, List.mem_singleton] at hArc
  rw [ParallelWorkflowEngine.gatherInputs, ParallelWorkflowEngine.parentOutputs, hParent]
  simp [hOutput, ParallelWorkflowEngine.gatherParents]

theorem lookup_insertOptional_ne {key other : String} (h : other ≠ key) (value : Option Json)
    (fields : List (String × Json)) :
    (Json.insertOptional key value fields).lookup other = fields.lookup other := by
  cases value with
  | none => rfl
  | some v => exact Json.lookup_insertField_ne h v fields

/-- The payload of a single node shows the output of its parent. -/
theorem wrappedInput_input {d : DispatchContext} {config inputs : Json}
    (hNull : inputs ≠ .null) (hEmpty : inputs ≠ .object []) :
    (E.wrappedInput d config inputs).get "input" = some inputs := by
  simp only [ParallelWorkflowEngine.wrappedInput, Json.get, Json.asObject, Option.bind_some, hNull,
    hEmpty, or_self, if_false]
  rw [lookup_insertOptional_ne (by decide), lookup_insertOptional_ne (by decide),
    lookup_insertOptional_ne (by decide), Json.lookup_insertField_self]

end Inputs

section Divergence

variable {H : Host} {E : ParallelWorkflowEngine H} {d : NodeIndex → DispatchContext}

/-- Modules that tell one payload from all others. -/
def telling (payload : Json) (seen other : String) : ModuleBehaviour := fun _ _ p =>
  .ok (.string (if p = payload then seen else other))

variable {payload : Json} {seen other : String}

theorem sequentialSteps_telling (payload : Json) (seen other : String) {jobs : List DispatchJob}
    {job : DispatchJob} (hLast : jobs.getLast? = some job) (steps : List ChainStepResult)
    (lastOutput : Json) :
    (sequentialSteps (telling payload seen other).always jobs steps lastOutput).overallStatus =
        .success ∧
      (sequentialSteps (telling payload seen other).always jobs steps lastOutput).finalOutput =
        .string (if job.inputPayload = payload then seen else other) := by
  induction jobs generalizing steps lastOutput with
  | nil => cases hLast
  | cons first rest ih =>
      rw [sequentialSteps]
      cases rest with
      | nil =>
          cases hLast
          exact ⟨rfl, rfl⟩
      | cons next rest =>
          rw [List.getLast?_cons_cons] at hLast
          exact ih hLast _ _

theorem payloadsFrom_telling (n : Nat) (jobs : List DispatchJob) :
    payloadsFrom (telling payload seen other).always n jobs = jobs.map (·.inputPayload) := by
  induction jobs generalizing n with
  | nil => rfl
  | cons job rest ih =>
      rw [payloadsFrom, List.map_cons]
      exact congrArg (job.inputPayload :: ·) (ih (n + 1))

theorem chainPayloads_telling (jobs : List DispatchJob) :
    chainPayloads (telling payload seen other).always jobs = jobs.map (·.inputPayload) :=
  payloadsFrom_telling 0 jobs

/-- Dispatched one by one, the last node is shown what the node before it has told. -/
theorem runNodes_telling {nodes : List NodeIndex} {inputs : Json} {results : Table Json}
    (hNodes : nodes ≠ []) (hChain : List.IsChain (Linked E.graph) nodes)
    (hTold : 2 ≤ nodes.length ∨ inputs = .string seen ∨ inputs = .string other)
    {trace : List Json × Option Json}
    (hTrace : E.runNodes d (telling payload seen other) nodes inputs results = trace) :
    (trace.2 = none ∧ trace.1.length < nodes.length) ∨
      ∃ last, trace.1.getLast? = some last ∧
        trace.2 = some (.string (if last = payload then seen else other)) ∧
        (last.get "input" = some (.string seen) ∨ last.get "input" = some (.string other)) := by
  induction nodes generalizing inputs results trace with
  | nil => exact absurd rfl hNodes
  | cons idx rest ih =>
      rw [ParallelWorkflowEngine.runNodes] at hTrace
      cases hJob : E.runSingleNodeDispatch (d idx) (E.nodeId idx) inputs with
      | error e =>
          simp only [hJob] at hTrace
          subst hTrace
          exact .inl ⟨rfl, Nat.zero_lt_succ _⟩
      | ok job =>
          have hOutput : (telling payload seen other).execute job =
              .ok (.string (if job.inputPayload = payload then seen else other)) := rfl
          simp only [hJob, hOutput] at hTrace
          cases rest with
          | nil =>
              subst hTrace
              obtain ⟨artifact, -, -, rfl⟩ := ParallelWorkflowEngine.runSingleNodeDispatch_ok hJob
              refine .inr ⟨_, rfl, rfl, ?_⟩
              obtain hTwo | rfl | rfl := hTold
              · exact absurd hTwo (Nat.lt_irrefl 1)
              · exact .inl (wrappedInput_input (by simp) (by simp))
              · exact .inr (wrappedInput_input (by simp) (by simp))
          | cons next rest =>
              obtain ⟨hLinked, hRest⟩ := List.isChain_cons_cons.1 hChain
              have hPlain : ∀ s : String, unwrapOutput (.string s) = .string s := fun _ => rfl
              simp only [gatherInputs_linked hLinked (AList.lookup_insert _), hPlain] at hTrace
              subst hTrace
              have hSaid : Json.string (if job.inputPayload = payload then seen else other) =
                  .string seen ∨
                Json.string (if job.inputPayload = payload then seen else other) =
                  .string other := by
                split
                · exact .inl rfl
                · exact .inr rfl
              obtain ⟨hNone, hShort⟩ | ⟨last, hLast, hSome⟩ :=
                ih (List.cons_ne_nil next rest) hRest (.inr hSaid) rfl
              · exact .inl ⟨hNone, Nat.succ_lt_succ hShort⟩
              · refine .inr ⟨last, ?_, hSome⟩
                rw [List.getLast?_cons, hLast]
                rfl

/-- The two ways to run a chain part for these modules, unless its last step was built with what
one of them says. -/
theorem telling_diverges {head : NodeIndex} {rest : List NodeIndex} {request : ChainDispatchRequest}
    {job : DispatchJob} {chainInput : Json} (results : Table Json)
    (hChain : head :: rest ∈ detectLinearChains E.graph)
    (hLength : request.steps.length = rest.length + 1) (hLast : request.steps.getLast? = some job)
    (hNe : seen ≠ other) (hSeen : job.inputPayload.get "input" ≠ some (.string seen))
    (hOther : job.inputPayload.get "input" ≠ some (.string other)) :
    let run := telling job.inputPayload seen other
    chainPayloads run.always request.steps ≠ (E.runNodes d run (head :: rest) chainInput results).1 ∧
      (chainOutcome run.always request).toOption ≠
        (E.runNodes d run (head :: rest) chainInput results).2 := by
  intro run
  have hOutcome : (chainOutcome run.always request).toOption = some (.string seen) := by
    obtain ⟨hStatus, hFinal⟩ :=
      sequentialSteps_telling job.inputPayload seen other hLast [] .null
    rw [chainOutcome, dispatchChainSequential]
    simp only [run, hStatus, hFinal, if_true]
    rfl
  obtain ⟨-, -, -, hTwo⟩ := mem_detectLinearChains hChain
  rw [hOutcome, chainPayloads_telling]
  have hTrace : E.runNodes d run (head :: rest) chainInput results = _ := rfl
  obtain ⟨hNone, hShort⟩ | ⟨last, hTraceLast, hSome, hInput⟩ :=
    runNodes_telling (List.cons_ne_nil head rest) (chain_isChain hChain) (.inl hTwo) hTrace
  · constructor
    · intro hSame
      rw [← hSame, List.length_map, hLength, List.length_cons] at hShort
      exact absurd hShort (Nat.lt_irrefl _)
    · rw [hNone]
      exact Option.some_ne_none _
  · have hFresh : last ≠ job.inputPayload := by
      rintro rfl
      obtain h | h := hInput
      · exact hSeen h
      · exact hOther h
    constructor
    · intro hSame
      rw [← hSame, List.getLast?_map, hLast] at hTraceLast
      exact hFresh (Option.some.inj hTraceLast).symm
    · rw [hSome, if_neg hFresh]
      intro hSame
      exact hNe (Json.string.inj (Option.some.inj hSame))

/-- No chain that is dispatched hands its steps what individually dispatched nodes are handed: some
modules are given other payloads, and the chain ends in another output. -/
theorem chain_steps_diverge (E : ParallelWorkflowEngine H) (d : DispatchContext)
    (single : NodeIndex → DispatchContext) (head : NodeIndex) (rest : List NodeIndex)
    (chainInput : Json) (results : Table Json) (request : ChainDispatchRequest)
    (hChain : head :: rest ∈ detectLinearChains E.graph)
    (hRequest : E.runPipelineChainDispatch d head rest chainInput = .ok request) :
    ∃ run : ModuleBehaviour,
      chainPayloads run.always request.steps ≠
        (E.runNodes single run (head :: rest) chainInput results).1 ∧
      (chainOutcome run.always request).toOption ≠
        (E.runNodes single run (head :: rest) chainInput results).2 := by
  obtain ⟨-, hLength, -⟩ := ParallelWorkflowEngine.runPipelineChainDispatch_ok hRequest
  obtain ⟨job, hLast⟩ : ∃ job, request.steps.getLast? = some job := by
    cases hSteps : request.steps.getLast? with
    | some job => exact ⟨job, rfl⟩
    | none =>
        rw [List.getLast?_eq_none_iff.1 hSteps] at hLength
        cases hLength
  by_cases hFirst : job.inputPayload.get "input" = some (.string "a") ∨
      job.inputPayload.get "input" = some (.string "b")
  · refine ⟨telling job.inputPayload "c" "d", telling_diverges results hChain hLength hLast
      (by decide) ?_ ?_⟩
    · obtain h | h := hFirst <;> simp [h]
    · obtain h | h := hFirst <;> simp [h]
  · rw [not_or] at hFirst
    exact ⟨telling job.inputPayload "a" "b",
      telling_diverges results hChain hLength hLast (by decide) hFirst.1 hFirst.2⟩

end Divergence

section Samples

/-- Two modules in a row, the second one configured in the graph. -/
def configuredChainEngine : ParallelWorkflowEngine (bareHost true) :=
  { ParallelWorkflowEngine.new with
    graph := twoNodes
    nodeConfigs := nodeTable [(2, .object [("limit", .bool true)])]
    nodeMeta := nodeTable [(1, moduleNode), (2, moduleNode)]
    moduleFetcher := some sampleFetcher
    userId := some 5 }

def triggeredContext : DispatchContext :=
  ⟨9, 0, none, ∅, none, none, some (.string "start"), 60, 0⟩

def echo : ModuleBehaviour := fun _ _ payload => .ok payload

theorem configuredChainEngine_chain : [0, 1] ∈ detectLinearChains configuredChainEngine.graph := by
  decide

theorem configuredChainEngine_request :
    ∃ request, configuredChainEngine.runPipelineChainDispatch triggeredContext 0 [1] (.object []) =
      .ok request :=
  ⟨_, rfl⟩

theorem chain_steps_diverge_two_modules :
    ∃ request, configuredChainEngine.runPipelineChainDispatch triggeredContext 0 [1] (.object []) =
        .ok request ∧
      ∃ run : ModuleBehaviour, (chainOutcome run.always request).toOption ≠
        (configuredChainEngine.runNodes (fun _ => triggeredContext) run [0, 1] (.object []) ∅).2 := by
  obtain ⟨request, hRequest⟩ := configuredChainEngine_request
  obtain ⟨run, -, hOutcome⟩ := chain_steps_diverge configuredChainEngine triggeredContext
    (fun _ => triggeredContext) 0 [1] (.object []) ∅ request configuredChainEngine_chain hRequest
  exact ⟨request, hRequest, run, hOutcome⟩

/-- With modules that return their payload, the second step of the chain is handed the empty config
of its artifact, where the single node is handed its graph config, its input and the trigger. -/
theorem chain_step_handed_bare_config :
    (configuredChainEngine.runPipelineChainDispatch triggeredContext 0 [1] (.object [])).toOption.map
        (fun request => chainPayloads echo.always request.steps) =
      some [.object [("config", .object []), ("pipeline_input", .object [])], .object []] ∧
    (configuredChainEngine.runNodes (fun _ => triggeredContext) echo [0, 1] (.object []) ∅).1 =
      [.object [("__trigger_input__", .string "start")],
        .object [("__trigger_input__", .string "start"),
          ("config", .object [("limit", .bool true)]),
          ("input", .object [("__trigger_input__", .string "start")]),
          ("limit", .bool true)]] := by
  constructor
  · rfl
  · decide

end Samples

end TalosWorkflow
