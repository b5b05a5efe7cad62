import TalosWorkflow.Policy.DryRun

/-!
# Approvals

The modules that a run hands to the dispatcher, and what the approval gate
answered for them.
-/

namespace TalosWorkflow

open Multigraph

variable {H : Host}

section Handovers

variable (E : ParallelWorkflowEngine H)

/-- The engine at a time when its gate answers as `gate` does. -/
def ParallelWorkflowEngine.answeredBy (gate : ApprovalGate) : ParallelWorkflowEngine H :=
  { E with approvalGate := some gate }

/-- What the gate is asked for a module, and what it answers. -/
def ParallelWorkflowEngine.gateAnswer (executionId nodeId : Uuid) (artifact : WasmModuleArtifact)
    (webhookConfig : Option Json) : Option (Except String ApprovalStatus) :=
  match artifact.requiresApprovalFor, E.approvalGate with
  | [], _ | _, none => none
  | operations, some gate =>
      some (gate.checkOrRequest executionId nodeId operations
        ((webhookConfig.bind (·.get "NOTIFICATION_WEBHOOK")).bind Json.asStr))

/-- The fetcher serves the artifact for the module of the node. -/
def ParallelWorkflowEngine.Serves (nodeId : Uuid) (artifact : WasmModuleArtifact) : Prop :=
  ∃ fetcher userId, E.moduleFetcher = some fetcher ∧ E.userId = some userId ∧
    fetcher.fetch (E.resolveModuleId nodeId) userId = .ok artifact

def DispatchContext.Prefetched (d : DispatchContext) : Prop :=
  ∀ nodeId artifact, d.prefetchedModules.lookup nodeId = some artifact → E.Serves nodeId artifact

/-- The dispatch of an event hands a module to the dispatcher for a node. The answer is that of
the gate in this dispatch, if it is consulted. -/
inductive HandsOver (executionId : Uuid) :
    Event → Uuid → WasmModuleArtifact → Option (Except String ApprovalStatus) → Prop
  | single (d : DispatchContext) (idx : NodeIndex) (inputs : Json) (job : DispatchJob)
      (artifact : WasmModuleArtifact) (hExecution : d.executionId = executionId)
      (hPrefetched : d.Prefetched E) (hFetch : E.fetchModule d (E.nodeId idx) = .ok artifact)
      (hJob : E.runSingleNodeDispatch d (E.nodeId idx) inputs = .ok job) :
      HandsOver executionId (.dispatched idx) (E.nodeId idx) artifact
        (E.gateAnswer executionId (E.nodeId idx) artifact (E.nodeConfigs.lookup (E.nodeId idx)))
  | iteration (d : DispatchContext) (idx : NodeIndex) (maxIterations : UInt32) (condition : String)
      (bodyId moduleId : Uuid) (artifact : WasmModuleArtifact)
      (hExecution : d.executionId = executionId) (hPrefetched : d.Prefetched E)
      (hKind : E.kindOf (E.nodeId idx) = some (.loop maxIterations condition))
      (hIterations : 0 < maxIterations)
      (hBody : E.loopBody (E.nodeId idx) = some (bodyId, moduleId))
      (hFetch : E.fetchModule d bodyId = .ok artifact) :
      HandsOver executionId (.dispatched idx) bodyId artifact none
  | chainStep (d : DispatchContext) (head : NodeIndex) (rest : List NodeIndex) (chainInput : Json)
      (request : ChainDispatchRequest) (idx : NodeIndex) (userId : Uuid)
      (artifact : WasmModuleArtifact) (hExecution : d.executionId = executionId)
      (hRequest : E.runPipelineChainDispatch d head rest chainInput = .ok request)
      (hStep : idx ∈ head :: rest)
      (hFetch : E.fetchStep executionId (E.nodeId idx) = .ok (userId, artifact)) :
      HandsOver executionId (.chainDispatched (head :: rest)) (E.nodeId idx) artifact
        (E.gateAnswer executionId (E.nodeId idx) artifact
          (some (artifact.config.getD (.object []))))

/-- The node is a loop that runs the module at least once. -/
def ParallelWorkflowEngine.LoopsOver (idx : NodeIndex) (bodyId : Uuid)
    (artifact : WasmModuleArtifact) : Prop :=
  ∃ maxIterations condition moduleId,
    E.kindOf (E.nodeId idx) = some (.loop maxIterations condition) ∧ 0 < maxIterations ∧
      E.loopBody (E.nodeId idx) = some (bodyId, moduleId) ∧ E.Serves bodyId artifact

end Handovers

section Dispatches

variable {E : ParallelWorkflowEngine H} {d : DispatchContext} {executionId nodeId : Uuid}
  {artifact : WasmModuleArtifact}

theorem checkApproval_ok {webhookConfig : Option Json} (hGate : E.approvalGate.isSome = true)
    (hRequired : artifact.requiresApprovalFor ≠ [])
    (h : E.checkApproval executionId nodeId artifact webhookConfig = .ok ()) :
    E.gateAnswer executionId nodeId artifact webhookConfig = some (.ok .approved) := by
  obtain ⟨operation, operations, hOperations⟩ := List.exists_cons_of_ne_nil hRequired
  obtain ⟨gate, hIs⟩ := Option.isSome_iff_exists.1 hGate
  simp only [ParallelWorkflowEngine.checkApproval, hOperations, hIs] at h
  simp only [ParallelWorkflowEngine.gateAnswer, hOperations, hIs, Option.some.injEq]
  split at h
  · assumption
  · cases h
  · cases h
  · cases h
  · cases h

theorem fetchStep_ok {userId : Uuid} (h : E.fetchStep executionId nodeId = .ok (userId, artifact)) :
    E.checkApproval executionId nodeId artifact (some (artifact.config.getD (.object []))) =
      .ok () := by
  unfold ParallelWorkflowEngine.fetchStep at h
  split at h
  · rename_i fetcher user _ _
    simp only [bind, Except.bind] at h
    split at h
    · cases h
    · split at h
      · cases h
      · rename_i hApproval
        cases h
        exact hApproval
  · cases h
  · cases h

/-- The module of a fetch is served by the fetcher, unless it is the local example. -/
theorem fetchModule_ok (hPrefetched : d.Prefetched E) (h : E.fetchModule d nodeId = .ok artifact) :
    E.Serves nodeId artifact ∨ artifact.requiresApprovalFor = [] := by
  unfold ParallelWorkflowEngine.fetchModule at h
  split at h
  · rename_i hCached
    cases h
    exact .inl (hPrefetched nodeId artifact hCached)
  · split at h
    · cases h
      exact .inr rfl
    · cases h
    · cases h
  · cases h
  · rename_i fetcher userId _ hFetcher hUser
    refine .inl ⟨fetcher, userId, hFetcher, hUser, ?_⟩
    cases hFetch : fetcher.fetch (E.resolveModuleId nodeId) userId with
    | error e =>
        rw [hFetch] at h
        cases h
    | ok served =>
        rw [hFetch] at h
        cases h
        rfl

theorem HandsOver.approved_or_loopsOver {event : Event}
    {answer : Option (Except String ApprovalStatus)} (hGate : E.approvalGate.isSome = true)
    (h : HandsOver E executionId event nodeId artifact answer)
    (hRequired : artifact.requiresApprovalFor ≠ []) :
    answer = some (.ok .approved) ∨
      ∃ idx, event = .dispatched idx ∧ E.LoopsOver idx nodeId artifact := by
  cases h with
  | single d idx inputs job _ hExecution hPrefetched hFetch hJob =>
      obtain ⟨checked, hChecked, hApproval, -⟩ :=
        ParallelWorkflowEngine.runSingleNodeDispatch_ok hJob
      rw [hFetch] at hChecked
      cases hChecked
      subst hExecution
      exact .inl (checkApproval_ok hGate hRequired hApproval)
  | iteration d idx maxIterations condition _ moduleId _ _ hPrefetched hKind hIterations hBody
      hFetch =>
      have hServes := (fetchModule_ok hPrefetched hFetch).resolve_right hRequired
      exact .inr ⟨idx, rfl, maxIterations, condition, moduleId, hKind, hIterations, hBody, hServes⟩
  | chainStep d head rest chainInput request idx userId _ _ _ _ hFetch =>
      exact .inl (checkApproval_ok hGate hRequired (fetchStep_ok hFetch))

theorem LoopsOver.handsOver {idx : NodeIndex} (h : E.LoopsOver idx nodeId artifact) :
    HandsOver E executionId (.dispatched idx) nodeId artifact none := by
  obtain ⟨maxIterations, condition, moduleId, hKind, hIterations, hBody, fetcher, userId, hFetcher,
    hUser, hServes⟩ := h
  let d : DispatchContext := ⟨executionId, 0, none, ∅, none, none, none, 0, 0⟩
  have hEmpty : ∀ id, d.prefetchedModules.lookup id = none := fun id => AList.lookup_empty id
  refine .iteration d idx maxIterations condition nodeId moduleId artifact rfl ?_ hKind hIterations
    hBody ?_
  · intro id cached hCached
    rw [hEmpty] at hCached
    cases hCached
  · rw [ParallelWorkflowEngine.fetchModule, hEmpty, hFetcher, hUser]
    simp only [hServes]
    rfl

end Dispatches

section Runs

variable {E : ParallelWorkflowEngine H} {executionId : Uuid} {initialResults : Table Json}
  {s : State}

theorem dispatched_of_loopsOver (hRun : E.Runs executionId initialResults (fun _ _ _ => True) s)
    {idx : NodeIndex} {bodyId : Uuid} {artifact : WasmModuleArtifact}
    (hLoop : E.LoopsOver idx bodyId artifact) (hIdx : idx ∈ dispatchedNodes s.history) :
    .dispatched idx ∈ s.history := by
  obtain ⟨event, hMem, hEvent⟩ := List.mem_filterMap.1 hIdx
  cases event with
  | dispatched other =>
      cases hEvent
      exact hMem
  | chainDispatched members =>
      obtain ⟨hChain, -⟩ := chainDispatched_mem_chains hRun members hMem
      obtain ⟨-, hBacked⟩ := reactor_chainsDetected E executionId initialResults members hChain
      have hModule := List.all_eq_true.1 hBacked idx (List.mem_of_mem_head? hEvent)
      obtain ⟨maxIterations, condition, moduleId, hKind, -⟩ := hLoop
      have hKindOf : (E.nodeMeta.lookup (E.nodeId idx)).bind (·.kind) =
        some (.loop maxIterations condition) := hKind
      obtain ⟨info, hInfo, hIs⟩ := Option.bind_eq_some_iff.1 hKindOf
      simp [ParallelWorkflowEngine.isModuleBacked, ParallelWorkflowEngine.reactor, hInfo, hIs]
        at hModule
  | enqueued | executed | aggregated | released | skipped | underflow => cases hEvent

/-- In every run and whatever the gate answers at each dispatch, all modules that require approval
are handed over with an approval, exactly if no dispatched node is a loop over such a module. -/
theorem handed_over_modules_approved_iff (E : ParallelWorkflowEngine H) (executionId : Uuid)
    (initialResults : Table Json) (s : State)
    (hRun : E.Runs executionId initialResults (fun _ _ _ => True) s) :
    (∀ event ∈ s.history, ∀ gate nodeId artifact answer,
        HandsOver (E.answeredBy gate) executionId event nodeId artifact answer →
          artifact.requiresApprovalFor ≠ [] → answer = some (.ok .approved)) ↔
      ∀ idx ∈ dispatchedNodes s.history, ∀ bodyId artifact, E.LoopsOver idx bodyId artifact →
        artifact.requiresApprovalFor = [] := by
  constructor
  · intro hAll idx hIdx bodyId artifact hLoop
    by_contra hRequired
    have hDispatched := dispatched_of_loopsOver hRun hLoop hIdx
    have hSame : (E.answeredBy ⟨fun _ _ _ _ => .ok .pending⟩).LoopsOver idx bodyId artifact := hLoop
    have hAnswer := hAll _ hDispatched _ _ _ _ (LoopsOver.handsOver hSame) hRequired
    cases hAnswer
  · intro hNone event hMem gate nodeId artifact answer hHands hRequired
    refine (hHands.approved_or_loopsOver rfl hRequired).resolve_right ?_
    rintro ⟨idx, rfl, hLoop⟩
    have hIdx : idx ∈ dispatchedNodes s.history := List.mem_filterMap.2 ⟨_, hMem, rfl⟩
    exact hRequired (hNone idx hIdx nodeId artifact hLoop)

end Runs

section Samples

def guardedFetcher : ModuleFetcher where
  fetch moduleId _ := .ok
    { moduleId := moduleId, contentHash := "", wasmBytes := [0], ociUrl := none, maxFuel := 0
      capabilityWorld := "minimal", allowedHosts := [], allowedMethods := [], allowedSecrets := []
      requiresApprovalFor := ["deploy"], integrationName := none, config := none }

/-- A module and a loop whose body it is; the gate denies every request. -/
def guardedLoopEngine : ParallelWorkflowEngine (bareHost true) :=
  { ParallelWorkflowEngine.new with
    graph := ⟨[1, 2], [], by simp⟩
    nodeLabels := nodeTable [(1, "body")]
    nodeConfigs := nodeTable [(2, .object [("body_node_id", .string "body")])]
    nodeMeta := nodeTable [(1, moduleNode), (2, systemNode (.loop 1 ""))]
    moduleFetcher := some guardedFetcher
    approvalGate := some ⟨fun _ _ _ _ => .ok (.denied "no")⟩
    userId := some 5 }

theorem guardedLoopEngine_acyclic : guardedLoopEngine.graph.Acyclic :=
  acyclic_of_rank id (by simp [guardedLoopEngine])

theorem guardedLoopEngine_loopsOver :
    ∃ artifact, guardedLoopEngine.LoopsOver 1 1 artifact ∧ artifact.requiresApprovalFor ≠ [] := by
  refine ⟨_, ⟨1, "", 7, by decide, by decide, by decide, guardedFetcher, 5, rfl, rfl, rfl⟩, ?_⟩
  exact List.cons_ne_nil _ _

/-- As long as only the module has been dispatched, every module is approved. -/
theorem handed_over_modules_approved_single_module :
    ∃ s : State, dispatchedNodes s.history = [0] ∧
      ∀ event ∈ s.history, ∀ gate nodeId artifact answer,
        HandsOver (guardedLoopEngine.answeredBy gate) 9 event nodeId artifact answer →
          artifact.requiresApprovalFor ≠ [] → answer = some (.ok .approved) := by
  let R := guardedLoopEngine.reactor 9 ∅
  have hReplay : (replay R.step (fun _ _ => True) [.pop .accepted] (R.initialState ∅)).map
      (fun s => dispatchedNodes s.history) = some [0] := by
    decide
  obtain ⟨s, hs, hDispatched⟩ := Option.map_eq_some_iff.1 hReplay
  refine ⟨s, hDispatched, (handed_over_modules_approved_iff guardedLoopEngine 9 ∅ s
    ⟨guardedLoopEngine_acyclic, replay_run hs⟩).2 fun idx hIdx bodyId artifact hLoop => ?_⟩
  rw [hDispatched, List.mem_singleton] at hIdx
  subst hIdx
  obtain ⟨maxIterations, condition, moduleId, hKind, -⟩ := hLoop
  have hPlain : guardedLoopEngine.kindOf (guardedLoopEngine.nodeId 0) = none := by decide
  rw [hPlain] at hKind
  cases hKind

/-- The loop hands over its body although every request is denied. -/
theorem denied_loop_body_handed_over :
    ¬ ∀ (H : Host) (E : ParallelWorkflowEngine H), E.approvalGate.isSome = true →
      ∀ (executionId : Uuid) (initialResults : Table Json) (s : State),
        E.Runs executionId initialResults (fun _ _ _ => True) s →
          ∀ event ∈ s.history, ∀ nodeId artifact answer,
            HandsOver E executionId event nodeId artifact answer →
              artifact.requiresApprovalFor ≠ [] →
                ∃ operations webhook gate, E.approvalGate = some gate ∧
                  gate.checkOrRequest executionId nodeId operations webhook = .ok .approved := by
  intro hAll
  let R := guardedLoopEngine.reactor 9 ∅
  have hReplay : (replay R.step (fun _ _ => True)
      [.pop .accepted, .pop (.output .null)] (R.initialState ∅)).map
        (fun s => decide (.dispatched 1 ∈ s.history)) = some true := by
    decide
  obtain ⟨s, hs, hDispatched⟩ := Option.map_eq_some_iff.1 hReplay
  obtain ⟨artifact, hLoop, hRequired⟩ := guardedLoopEngine_loopsOver
  obtain ⟨operations, webhook, gate, hGate, hApproved⟩ := hAll _ guardedLoopEngine rfl 9 ∅ s
    ⟨guardedLoopEngine_acyclic, replay_run hs⟩ _ (of_decide_eq_true hDispatched) _ _ _
    (LoopsOver.handsOver hLoop) hRequired
  cases hGate
  cases hApproved

end Samples

end TalosWorkflow
