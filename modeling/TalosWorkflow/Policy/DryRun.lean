import TalosWorkflow.Policy.Inheritance

/-!
# Dry runs

The messages that an engine and its dispatcher send in a run, and whether the
worker can see in them that the run is dry.
-/

namespace TalosWorkflow

open Multigraph

variable {H : Host}

inductive WireMessage where
  | job (req : JobRequest)
  | pipeline (req : PipelineJobRequest)

/-- The object says so itself. -/
def Json.flagged (object : Json) : Bool := object.get "dry_run" = some (.bool true)

/-- Each module that the message asks the worker to execute comes with the flag, in its own
object or in that of the message. -/
def WireMessage.CarriesDryRun : WireMessage → Prop
  | .job req => req.toJson.flagged = true
  | .pipeline req => req.toJson.flagged = true ∨ ∀ step ∈ req.steps, step.toJson.flagged = true

section Messages

variable (E : ParallelWorkflowEngine H)

/-- A message that an event of a run makes the engine and the dispatcher send. The inputs of a
dispatch and the stamp of its message are arbitrary. -/
inductive Sends (executionId : Uuid) : Event → WireMessage → Prop
  | single (d : DispatchContext) (idx : NodeIndex) (inputs : Json) (job : DispatchJob)
      (freshId : Uuid) (stamp : Stamp) (hExecution : d.executionId = executionId)
      (hJob : E.runSingleNodeDispatch d (E.nodeId idx) inputs = .ok job) :
      Sends executionId (.dispatched idx) (.job (dispatch job freshId stamp))
  | iteration (d : DispatchContext) (idx : NodeIndex) (maxIterations : UInt32) (condition : String)
      (bodyId moduleId : Uuid) (artifact : WasmModuleArtifact) (iteration : UInt32) (current : Json)
      (freshId : Uuid) (stamp : Stamp) (hExecution : d.executionId = executionId)
      (hKind : E.kindOf (E.nodeId idx) = some (.loop maxIterations condition))
      (hBody : E.loopBody (E.nodeId idx) = some (bodyId, moduleId))
      (hFetch : E.fetchModule d bodyId = .ok artifact) :
      Sends executionId (.dispatched idx)
        (.job (dispatch (E.loopJob d bodyId moduleId artifact iteration current) freshId stamp))
  | chain (d : DispatchContext) (head : NodeIndex) (rest : List NodeIndex) (chainInput : Json)
      (request : ChainDispatchRequest) (freshId : Uuid) (stamp : Stamp)
      (hExecution : d.executionId = executionId)
      (hRequest : E.runPipelineChainDispatch d head rest chainInput = .ok request) :
      Sends executionId (.chainDispatched (head :: rest))
        (.pipeline (dispatchChain request freshId stamp))

/-- The members of a chain can be fetched and are approved, and their timeouts can be summed. -/
def ChainReady (executionId : Uuid) (members : List NodeIndex) : Prop :=
  (∀ idx ∈ members, ∃ step, E.fetchStep executionId (E.nodeId idx) = .ok step) ∧
    (usizeMax < E.totalTimeoutSecs (members.map E.nodeId) → H.overflowChecks = false)

variable {E}

theorem lookup_optionalField_ne {key other : String} (hKey : other ≠ key) (value : Option Json) :
    (optionalField key value).lookup other = none := by
  cases value with
  | none => rfl
  | some v =>
      rw [optionalField, List.lookup_cons, beq_false_of_ne hKey]
      rfl

theorem JobRequest.flagged_toJson (req : JobRequest) : req.toJson.flagged = req.dryRun := by
  simp [JobRequest.toJson, Json.flagged, Json.get, Json.asObject, List.lookup_append,
    lookup_optionalField_ne, List.lookup_cons]

/-- No field of a step tells the worker that the run is dry. -/
theorem PipelineStep.flagged_toJson (step : PipelineStep) : step.toJson.flagged = false := by
  simp [PipelineStep.toJson, Json.flagged, Json.get, Json.asObject, List.lookup_append,
    lookup_optionalField_ne, List.lookup_cons]

theorem PipelineJobRequest.flagged_toJson (req : PipelineJobRequest) :
    req.toJson.flagged = false := by
  simp [PipelineJobRequest.toJson, Json.flagged, Json.get, Json.asObject, List.lookup_cons]

/-- A pipeline request carries the flag only if it has no steps. -/
theorem WireMessage.carriesDryRun_pipeline (req : PipelineJobRequest) :
    (WireMessage.pipeline req).CarriesDryRun ↔ req.steps = [] := by
  rw [WireMessage.CarriesDryRun, req.flagged_toJson, List.eq_nil_iff_forall_not_mem]
  simp [PipelineStep.flagged_toJson]

/-- The messages of an event of a dry run carry the flag unless it dispatches a chain. -/
theorem sends_carriesDryRun_iff (hDry : E.dryRun = true) (executionId : Uuid) (event : Event) :
    (∀ message, Sends E executionId event message → message.CarriesDryRun) ↔
      ∀ head rest, event = .chainDispatched (head :: rest) →
        ¬ ChainReady E executionId (head :: rest) := by
  constructor
  · rintro hAll head rest rfl hReady
    let d : DispatchContext := ⟨executionId, 0, none, ∅, none, none, none, 0, 0⟩
    have hBuilt : ∃ request, E.runPipelineChainDispatch d head rest .null = .ok request :=
      ParallelWorkflowEngine.exists_runPipelineChainDispatch.2 hReady
    obtain ⟨request, hRequest⟩ := hBuilt
    have hSent := hAll _ (.chain d head rest .null request 0 {} rfl hRequest)
    obtain ⟨-, hLength, -⟩ := ParallelWorkflowEngine.runPipelineChainDispatch_ok hRequest
    have hEmpty : request.steps.map pipelineStep = [] :=
      (WireMessage.carriesDryRun_pipeline _).1 hSent
    rw [List.map_eq_nil_iff.1 hEmpty] at hLength
    cases hLength
  · intro hNone message hSends
    cases hSends with
    | single d idx inputs job freshId stamp hExecution hJob =>
        obtain ⟨artifact, -, -, rfl⟩ := ParallelWorkflowEngine.runSingleNodeDispatch_ok hJob
        rw [WireMessage.CarriesDryRun, JobRequest.flagged_toJson]
        exact hDry
    | iteration =>
        rw [WireMessage.CarriesDryRun, JobRequest.flagged_toJson]
        exact hDry
    | chain d head rest chainInput request freshId stamp hExecution hRequest =>
        subst hExecution
        refine absurd ?_ (hNone head rest rfl)
        exact ParallelWorkflowEngine.exists_runPipelineChainDispatch.1 ⟨request, hRequest⟩

end Messages

section Runs

/-- A step that dispatches a chain dispatches the one of the node it popped. -/
theorem chainDispatched_mem_step {R : Reactor H} {s t : State} {action : Action}
    (hStep : R.step s action = some t) {members : List NodeIndex}
    (hMem : .chainDispatched members ∈ t.history) :
    .chainDispatched members ∈ s.history ∨ ∃ idx, R.chainOf idx = some members := by
  obtain ⟨-, hStepped | ⟨e, -, rfl⟩⟩ := Reactor.step_cases hStep
  · cases hStepped with
    | visited visit rest _ hVisits hVisit =>
        have hEvents : ∀ {events}, Reactor.Fills R { s with visits := rest } visit.target events →
            .chainDispatched members ∈ events ++ s.history → .chainDispatched members ∈ s.history := by
          intro events hFills hIn
          cases hFills with
          | filled => exact hIn
          | wrapped => simpa using hIn
        refine .inl ?_
        cases hVisit with
        | marked => exact hMem
        | counted => exact hMem
        | enqueued events _ hFills => exact hEvents hFills (by simpa using hMem)
        | cascaded events _ _ hFills =>
            rw [Reactor.cascadeSkip_eq] at hMem
            exact hEvents hFills hMem
        | wrapped => simpa using hMem
    | stored => exact .inl (by simpa using hMem)
    | popped idx rest answer _ hVisits hBatch hReady hPop =>
        cases hPop with
        | ignored => exact .inl hMem
        | launchedChain chain hChain =>
            obtain hNew | hOld := List.mem_cons.1 hMem
            · cases hNew
              exact .inr ⟨idx, hChain⟩
            · exact .inl hOld
        | skipped => exact .inl (by simpa using hMem)
        | refused => exact .inl (by simpa using hMem)
        | launched => exact .inl (by simpa using hMem)
        | handled mode value =>
            rw [Reactor.conclude_history, Reactor.handledEvents] at hMem
            refine .inl ?_
            split at hMem
            · simpa using hMem
            · simpa using hMem
        | paused => exact .inl (by simpa [Reactor.handled] using hMem)
        | drained values _ _ _ _ _ hDrain =>
            simp only [Reactor.drainSubWorkflows] at hDrain
            split at hDrain
            · cases hDrain
              exact .inl (by simpa using hMem)
            · cases hDrain
    | finished position result ran flight _ hVisits hBatch hReady hFlight hReturn =>
        cases hReturn with
        | single => exact .inl (by simpa using hMem)
        | chain =>
            rw [Reactor.conclude_history, Reactor.logExecuted_history] at hMem
            simp only [List.mem_cons, List.mem_append, List.mem_map, reduceCtorEq, and_false,
              exists_false, false_or] at hMem
            exact .inl hMem
  · cases e with
    | failed message => exact .inl hMem
    | counterUnderflow idx => exact .inl (by simpa [State.halt] using hMem)
    | charBoundary => exact .inl hMem

variable {root E : ParallelWorkflowEngine H} {executionId : Uuid} {initialResults : Table Json}
  {s : State}

theorem Nested.dryRun {depth : Nat} (h : Nested root depth E) : E.dryRun = root.dryRun :=
  congrArg AdapterSet.dryRun h.inherited

theorem chainDispatched_mem_chains
    (hRun : E.Runs executionId initialResults (fun _ _ _ => True) s) :
    ∀ members, .chainDispatched members ∈ s.history →
      members ∈ (E.reactor executionId initialResults).chains ∧ members ≠ [] := by
  refine Run.invariant (fun s => ∀ members, .chainDispatched members ∈ s.history →
    members ∈ (E.reactor executionId initialResults).chains ∧ members ≠ []) ?_ hRun.2 ?_
  · intro s action t _ hInv hStep members hMem
    obtain hOld | ⟨idx, hChain⟩ := chainDispatched_mem_step hStep hMem
    · exact hInv members hOld
    · exact ⟨(chainOf_eq_some hChain).1, List.ne_nil_of_mem (chainOf_eq_some hChain).2⟩
  · intro members hMem
    simp [Reactor.initialState] at hMem

/-- In every run of an engine at or below a dry one, all messages carry the flag exactly if no
chain is dispatched whose members can be fetched. -/
theorem dry_run_messages_flagged_iff (root E : ParallelWorkflowEngine H) (depth : Nat)
    (hDry : root.dryRun = true) (hNested : Nested root depth E) (executionId : Uuid)
    (initialResults : Table Json) (s : State)
    (hRun : E.Runs executionId initialResults (fun _ _ _ => True) s) :
    (∀ event ∈ s.history, ∀ message, Sends E executionId event message →
        message.CarriesDryRun) ↔
      ∀ members, .chainDispatched members ∈ s.history → ¬ ChainReady E executionId members := by
  have hFlag : E.dryRun = true := hNested.dryRun.trans hDry
  constructor
  · intro hAll members hMem
    obtain ⟨head, rest, rfl⟩ :=
      List.exists_cons_of_ne_nil (chainDispatched_mem_chains hRun members hMem).2
    exact (sends_carriesDryRun_iff hFlag executionId _).1 (hAll _ hMem) head rest rfl
  · intro hNone event hMem
    refine (sends_carriesDryRun_iff hFlag executionId event).2 fun head rest hEvent => ?_
    exact hNone _ (hEvent ▸ hMem)

end Runs

section Samples

def sampleFetcher : ModuleFetcher where
  fetch moduleId _ := .ok
    { moduleId := moduleId, contentHash := "", wasmBytes := [0], ociUrl := none, maxFuel := 0
      capabilityWorld := "minimal", allowedHosts := [], allowedMethods := [], allowedSecrets := []
      requiresApprovalFor := [], integrationName := none, config := none }

/-- A dry engine whose graph holds the given edges between two modules. -/
def dryEngine (edges : List (Edge EdgeLogic))
    (bound : ∀ e ∈ edges, e.source < [(1 : Uuid), 2].length ∧ e.target < [(1 : Uuid), 2].length) :
    ParallelWorkflowEngine (bareHost true) :=
  { ParallelWorkflowEngine.new with
    graph := ⟨[1, 2], edges, bound⟩
    nodeMeta := nodeTable [(1, moduleNode), (2, moduleNode)]
    moduleFetcher := some sampleFetcher
    userId := some 5
    dryRun := true }

/-- Two modules without an edge are dispatched one by one. -/
theorem dry_run_messages_flagged_single_modules :
    ∃ s : State, dispatchedNodes s.history = [1, 0] ∧
      ∀ event ∈ s.history, ∀ message, Sends (dryEngine [] (List.forall_mem_nil _)) 9 event message →
        message.CarriesDryRun := by
  let E := dryEngine [] (List.forall_mem_nil _)
  let R := E.reactor 9 ∅
  have hReplay : (replay R.step (fun _ _ => True) [.pop .accepted, .pop .accepted]
      (R.initialState ∅)).map (fun s => s.history) =
        some [.dispatched 1, .dispatched 0, .enqueued 1, .enqueued 0] := by
    decide
  obtain ⟨s, hs, hEvents⟩ := Option.map_eq_some_iff.1 hReplay
  have hAcyclic : E.graph.Acyclic := acyclic_of_rank id (by simp [E, dryEngine])
  refine ⟨s, by rw [hEvents]; rfl, (dry_run_messages_flagged_iff E E 0 rfl .root 9 ∅ s
    ⟨hAcyclic, replay_run hs⟩).2 fun members hMem => ?_⟩
  rw [hEvents] at hMem
  simp at hMem

/-- Two modules in a row are sent as a pipeline, which has no place for the flag. -/
theorem dry_run_chain_unflagged :
    ¬ ∀ (H : Host) (root E : ParallelWorkflowEngine H) (depth : Nat), root.dryRun = true →
      Nested root depth E → ∀ (executionId : Uuid) (initialResults : Table Json) (s : State),
        E.Runs executionId initialResults (fun _ _ _ => True) s →
          ∀ event ∈ s.history, ∀ message, Sends E executionId event message →
            message.CarriesDryRun := by
  intro hAll
  let E := dryEngine [⟨0, 1, {}⟩] (by decide)
  let R := E.reactor 9 ∅
  have hReplay : (replay R.step (fun _ _ => True) [.pop .accepted] (R.initialState ∅)).map
      (fun s => decide (.chainDispatched [0, 1] ∈ s.history)) = some true := by
    decide
  obtain ⟨s, hs, hChain⟩ := Option.map_eq_some_iff.1 hReplay
  have hAcyclic : E.graph.Acyclic := acyclic_of_rank id (by simp [E, dryEngine])
  have hFlagged := hAll _ E E 0 rfl .root 9 ∅ s ⟨hAcyclic, replay_run hs⟩ _
    (of_decide_eq_true hChain)
  have hReady : ChainReady E 9 [0, 1] := by
    refine ⟨fun idx _ => ⟨_, rfl⟩, fun hLarge => ?_⟩
    revert hLarge
    decide
  exact (sends_carriesDryRun_iff rfl 9 _).1 hFlagged 0 [1] rfl hReady

end Samples

end TalosWorkflow
