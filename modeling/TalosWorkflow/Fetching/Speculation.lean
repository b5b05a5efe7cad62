import TalosWorkflow.Library.Prefetch
import TalosWorkflow.Metering.Limits
import TalosWorkflow.Policy.Approvals

/-!
# Speculative prefetch

Modules of successors are fetched in the background, and the cache outlives the
run that has filled it. While the user, the fetcher and the modules of the nodes
stay as they are, a dispatch that finds its module in the cache hands out the
job that it would have handed out without the cache. Otherwise it may be served
what was fetched for the earlier user; in no case is anything served twice.
-/

namespace TalosWorkflow

variable {H : Host}

/-- What a background task takes with it when it is spawned. -/
structure PrefetchRequest where
  moduleId : Uuid
  userId : Option Uuid
  fetcher : ModuleFetcher

abbrev ModuleCache := Prefetch Uuid PrefetchRequest WasmModuleArtifact

/-- An engine and the modules that it has fetched ahead, with every record of the engine so far,
the latest first. -/
structure PrefetchingEngine (H : Host) where
  engine : ParallelWorkflowEngine H
  modules : ModuleCache
  settings : List (ParallelWorkflowEngine H)

/-- The cache and its tasks take a turn, or a setter or a load makes another record of the
engine. -/
inductive PrefetchingMove (H : Host)
  | cache (move : Prefetch.Move Uuid PrefetchRequest WasmModuleArtifact)
  | set (E : ParallelWorkflowEngine H)

namespace ParallelWorkflowEngine

variable (E : ParallelWorkflowEngine H)

/-- The successors whose modules are fetched in the background when a node is dispatched. -/
def maybeSpeculativePrefetch (idx : NodeIndex) : List (Uuid × PrefetchRequest) :=
  if E.nodeFlag (E.nodeId idx) "speculative_prefetch" then
    ((E.graph.successors idx).take E.maxPrefetchSuccessors.toNat).filterMap fun next => do
      -- system nodes have no module to fetch
      let moduleId ← (E.nodeMeta.lookup (E.nodeId next)).bind (·.moduleId)
      let fetcher ← E.moduleFetcher
      return (E.nodeId next, ⟨moduleId, E.userId, fetcher⟩)
  else []

/-- What the two records ask a fetcher for is the same. -/
structure FetchesAs (E E' : ParallelWorkflowEngine H) : Prop where
  userId : E.userId = E'.userId
  moduleFetcher : E.moduleFetcher = E'.moduleFetcher
  resolveModuleId : ∀ nodeId, E.resolveModuleId nodeId = E'.resolveModuleId nodeId

/-- What an engine with this record asks for a node. -/
def AsksFetcher (nodeId : Uuid) (request : PrefetchRequest) : Prop :=
  E.resolveModuleId nodeId = request.moduleId ∧ E.userId = request.userId ∧
    E.moduleFetcher = some request.fetcher

end ParallelWorkflowEngine

/-- What fetchers answer, at any time. -/
abbrev FetchAnswers := ModuleFetcher → Uuid → Uuid → WasmModuleArtifact → Prop

/-- A fetcher that answers for one module and user always the same. -/
def steadily : FetchAnswers :=
  fun fetcher moduleId userId artifact => fetcher.fetch moduleId userId = .ok artifact

def PrefetchRequest.Answered (answers : FetchAnswers) (request : PrefetchRequest)
    (artifact : WasmModuleArtifact) : Prop :=
  ∃ userId, request.userId = some userId ∧
    answers request.fetcher request.moduleId userId artifact

namespace PrefetchingEngine

def start (E : ParallelWorkflowEngine H) : PrefetchingEngine H := ⟨E, .initial, [E]⟩

/-- The setters leave the cache as it is, also that of the user and that of the fetcher. -/
def step (s : PrefetchingEngine H) : PrefetchingMove H → Option (PrefetchingEngine H)
  | .cache move => (s.modules.step move).map fun modules => { s with modules }
  | .set E => some { s with engine := E, settings := E :: s.settings }

/-- The tasks are those of the engine, and their fetchers answer so. -/
def Speculates (answers : FetchAnswers) (s : PrefetchingEngine H) : PrefetchingMove H → Prop
  | .cache (.spawn wanted) => ∃ idx, wanted = s.engine.maybeSpeculativePrefetch idx
  | .cache (.check position mayFetch) =>
      ∀ task ∈ s.modules.tasks[position]?, mayFetch = task.request.userId.isSome
  | .cache (.reply position answer) =>
      ∀ task ∈ s.modules.tasks[position]?, ∀ artifact ∈ answer,
        task.request.Answered answers artifact
  | _ => True

/-- No setter and no load changes what is asked of a fetcher. -/
def KeepsRequests (s : PrefetchingEngine H) : PrefetchingMove H → Prop
  | .set E => E.FetchesAs s.engine
  | _ => True

end PrefetchingEngine

section Runs

variable {E : ParallelWorkflowEngine H} {answers : FetchAnswers} {s t : PrefetchingEngine H}
variable {move : PrefetchingMove H}

theorem asks_of_mem_maybeSpeculativePrefetch {idx : NodeIndex} {want : Uuid × PrefetchRequest}
    (h : want ∈ E.maybeSpeculativePrefetch idx) : E.AsksFetcher want.1 want.2 := by
  unfold ParallelWorkflowEngine.maybeSpeculativePrefetch at h
  split at h
  · obtain ⟨next, -, hNext⟩ := List.mem_filterMap.1 h
    simp only [Option.bind_eq_bind, Option.bind_eq_some_iff] at hNext
    obtain ⟨moduleId, hModule, fetcher, hFetcher, hWant⟩ := hNext
    cases hWant
    refine ⟨?_, rfl, hFetcher⟩
    rw [ParallelWorkflowEngine.resolveModuleId, Option.bind_eq_some_iff.2 hModule]
    rfl
  · cases h

namespace PrefetchingEngine

/-- The engine is the latest of its records, and what is on its way was asked for by one of them. -/
structure Accounted (answers : FetchAnswers) (s : PrefetchingEngine H) : Prop where
  current : s.engine ∈ s.settings
  sound : s.modules.Sound (fun nodeId request => ∃ E ∈ s.settings, E.AsksFetcher nodeId request)
    (PrefetchRequest.Answered answers)
  spent : ∀ nodeId, s.modules.spent nodeId ≤ s.modules.returned nodeId

theorem Accounted.start : Accounted answers (start E) where
  current := List.mem_singleton_self E
  sound := .initial
  spent _ := le_rfl

theorem Accounted.step (h : s.Accounted answers) (hMove : s.Speculates answers move)
    (hStep : s.step move = some t) : t.Accounted answers := by
  cases move with
  | set E =>
      cases hStep
      refine ⟨List.mem_cons_self, h.sound.mono fun nodeId request hAsks => ?_, h.spent⟩
      obtain ⟨E', hIn, hAsks⟩ := hAsks
      exact ⟨E', List.mem_cons_of_mem E hIn, hAsks⟩
  | cache move =>
      obtain ⟨modules, hModules, rfl⟩ := Option.map_eq_some_iff.1 hStep
      refine ⟨h.current, h.sound.step ?_ hModules, fun nodeId =>
        Prefetch.spent_step hModules (h.spent nodeId)⟩
      cases move with
      | spawn wanted =>
          obtain ⟨idx, rfl⟩ := hMove
          exact fun want hWant =>
            ⟨s.engine, h.current, asks_of_mem_maybeSpeculativePrefetch hWant⟩
      | reply position answer => exact hMove
      | check | store | take | clear => trivial

theorem accounted_of_run {allowed : PrefetchingEngine H → PrefetchingMove H → Prop}
    (hAllowed : ∀ s move, allowed s move → s.Speculates answers move)
    (hRun : Run step allowed (start E) s) : s.Accounted answers :=
  Run.invariant (Accounted answers)
    (fun _ _ _ hMove h hStep => h.step (hAllowed _ _ hMove) hStep) hRun .start

/-- While nothing changes what is asked of a fetcher, all records ask as the present one does. -/
theorem fetchesAs_of_run {allowed : PrefetchingEngine H → PrefetchingMove H → Prop}
    (hAllowed : ∀ s move, allowed s move → s.KeepsRequests move)
    (hRun : Run step allowed (start E) s) : ∀ E' ∈ s.settings, E'.FetchesAs s.engine := by
  refine Run.invariant (fun s => ∀ E' ∈ s.settings, E'.FetchesAs s.engine)
    (fun s move t hMove h hStep => ?_) hRun ?_
  · have hKeeps := hAllowed s move hMove
    cases move with
    | set E' =>
        cases hStep
        intro E'' hIn
        have hNew : E'.FetchesAs s.engine := hKeeps
        obtain rfl | hOld := List.mem_cons.1 hIn
        · exact ⟨rfl, rfl, fun _ => rfl⟩
        · have hSame := h E'' hOld
          exact ⟨hSame.userId.trans hNew.userId.symm,
            hSame.moduleFetcher.trans hNew.moduleFetcher.symm,
            fun nodeId => (hSame.resolveModuleId nodeId).trans (hNew.resolveModuleId nodeId).symm⟩
    | cache move =>
        obtain ⟨modules, -, rfl⟩ := Option.map_eq_some_iff.1 hStep
        exact h
  · intro E' hIn
    cases List.mem_singleton.1 hIn
    exact ⟨rfl, rfl, fun _ => rfl⟩

end PrefetchingEngine

theorem fetchModule_prefetched (nodeId : Uuid) {d : DispatchContext} (hPrefetched : d.Prefetched E) :
    E.fetchModule d nodeId = E.fetchModule { d with prefetchedModules := ∅ } nodeId := by
  unfold ParallelWorkflowEngine.fetchModule
  cases hCached : d.prefetchedModules.lookup nodeId with
  | none => rfl
  | some artifact =>
      obtain ⟨fetcher, userId, hFetcher, hUser, hFetch⟩ := hPrefetched nodeId artifact hCached
      rw [hFetcher, hUser]
      simp only [AList.lookup_empty, hFetch]
      rfl

theorem prefetched_of_run (d : DispatchContext)
    (hRun : Run PrefetchingEngine.step
      (fun s move => s.Speculates steadily move ∧ s.KeepsRequests move) (.start E) s) :
    { d with prefetchedModules := s.modules.cache }.Prefetched s.engine := by
  intro nodeId artifact hCached
  have hAccounted := PrefetchingEngine.accounted_of_run (fun _ _ h => h.1) hRun
  obtain ⟨request, ⟨E', hIn, hModule, hUser, hFetcher⟩, userId, hHas, hAnswered⟩ :=
    hAccounted.sound.cached nodeId artifact hCached
  have hSame := PrefetchingEngine.fetchesAs_of_run (fun _ _ h => h.2) hRun E' hIn
  refine ⟨request.fetcher, userId, hSame.moduleFetcher.symm.trans hFetcher,
    hSame.userId.symm.trans (hUser.trans hHas), ?_⟩
  rw [← hSame.resolveModuleId, hModule]
  exact hAnswered

/-- While the user, the fetcher and the modules of the nodes stay as they are, prefetching changes
no job that a node hands to the dispatcher, and no module that the body of a loop runs, in whatever
order the tasks take their turns and the cache is cleared. -/
theorem prefetch_transparent (E : ParallelWorkflowEngine H) (s : PrefetchingEngine H)
    (hRun : Run PrefetchingEngine.step
      (fun s move => s.Speculates steadily move ∧ s.KeepsRequests move) (.start E) s)
    (d : DispatchContext) (nodeId : Uuid) (inputs : Json) :
    s.engine.fetchModule { d with prefetchedModules := s.modules.cache } nodeId =
        s.engine.fetchModule { d with prefetchedModules := ∅ } nodeId ∧
      s.engine.runSingleNodeDispatch { d with prefetchedModules := s.modules.cache } nodeId inputs =
        s.engine.runSingleNodeDispatch { d with prefetchedModules := ∅ } nodeId inputs := by
  have hFetch := fetchModule_prefetched nodeId (prefetched_of_run d hRun)
  refine ⟨hFetch, ?_⟩
  unfold ParallelWorkflowEngine.runSingleNodeDispatch
  rw [hFetch]
  rfl

/-- Whatever the fetchers answer and the setters change, a dispatch is only served what was answered
for the module of its node and the user that the engine had at one time, and every answer serves one
dispatch at most. -/
theorem prefetched_once (E : ParallelWorkflowEngine H) (answers : FetchAnswers)
    (s : PrefetchingEngine H)
    (hRun : Run PrefetchingEngine.step (PrefetchingEngine.Speculates answers) (.start E) s) :
    (∀ hit ∈ s.modules.hits, ∃ E' ∈ s.settings, ∃ fetcher userId,
      E'.moduleFetcher = some fetcher ∧ E'.userId = some userId ∧
        answers fetcher (E'.resolveModuleId hit.1) userId hit.2) ∧
      ∀ nodeId, s.modules.hits.countP (·.1 = nodeId) ≤
        s.modules.fetched.countP (·.1 = nodeId) := by
  have hAccounted := PrefetchingEngine.accounted_of_run (fun _ _ h => h) hRun
  refine ⟨fun hit hHit => ?_, fun nodeId => Prefetch.hits_le_returned (hAccounted.spent nodeId)⟩
  obtain ⟨request, ⟨E', hIn, hModule, hUser, hFetcher⟩, userId, hHas, hAnswered⟩ :=
    hAccounted.sound.taken hit hHit
  exact ⟨E', hIn, request.fetcher, userId, hFetcher, hUser.trans hHas, hModule ▸ hAnswered⟩

end Runs

section Samples

/-- A module that has its successor fetched in the background. -/
def speculatingEngine : ParallelWorkflowEngine (bareHost true) :=
  { ParallelWorkflowEngine.new with
    graph := ⟨[51, 52], [⟨0, 1, {}⟩], by decide⟩
    nodeMeta := nodeTable [(51, moduleNode), (52, moduleNode)]
    nodeConfigs := nodeTable [(51, .object [("speculative_prefetch", .bool true)])]
    moduleFetcher := some sampleFetcher
    userId := some 5 }

def seventhModule : WasmModuleArtifact where
  moduleId := 7
  contentHash := ""
  wasmBytes := [0]
  ociUrl := none
  maxFuel := 0
  capabilityWorld := "minimal"
  allowedHosts := []
  allowedMethods := []
  allowedSecrets := []
  requiresApprovalFor := []
  integrationName := none
  config := none

def successorRequest : PrefetchRequest := ⟨7, some 5, sampleFetcher⟩

def cachedSuccessor : PrefetchingEngine (bareHost true) where
  engine := speculatingEngine
  modules := { Prefetch.initial with
    cache := AList.singleton 52 seventhModule
    fetched := [(52, seventhModule)] }
  settings := [speculatingEngine]

theorem run_cachedSuccessor {allowed : PrefetchingEngine (bareHost true) →
    PrefetchingMove (bareHost true) → Prop}
    (hAllowed : ∀ s move, s.Speculates steadily move → s.KeepsRequests move → allowed s move) :
    Run PrefetchingEngine.step allowed (.start speculatingEngine) cachedSuccessor := by
  have hSpawned := Relation.ReflTransGen.refl.tail (a := PrefetchingEngine.start speculatingEngine)
    (r := fun s t => ∃ move, allowed s move ∧ PrefetchingEngine.step s move = some t)
    ⟨.cache (.spawn [(52, successorRequest)]), hAllowed _ _ ⟨0, rfl⟩ trivial, rfl⟩
  have hChecked := hSpawned.tail ⟨.cache (.check 0 true), hAllowed _ _
    (fun task hTask => by cases hTask; rfl) trivial, rfl⟩
  have hReplied := hChecked.tail ⟨.cache (.reply 0 (some seventhModule)), hAllowed _ _
    (fun task hTask artifact hArtifact => ⟨5, by cases hTask; rfl, by
      cases hTask
      cases hArtifact
      rfl⟩) trivial, rfl⟩
  exact hReplied.tail ⟨.cache (.store 0), hAllowed _ _ trivial trivial, rfl⟩

/-- The engine is set to run dry, and a node finds its module in the cache. -/
theorem prefetch_transparent_cached :
    ∃ s : PrefetchingEngine (bareHost true), s.modules.cache.lookup 52 = some seventhModule ∧
      s.engine.dryRun = true ∧
      s.engine.fetchModule { plainDispatch with prefetchedModules := s.modules.cache } 52 =
          s.engine.fetchModule { plainDispatch with prefetchedModules := ∅ } 52 ∧
        s.engine.runSingleNodeDispatch { plainDispatch with prefetchedModules := s.modules.cache }
            52 .null =
          s.engine.runSingleNodeDispatch { plainDispatch with prefetchedModules := ∅ } 52
            .null := by
  have hFetched : Run PrefetchingEngine.step (fun s move => s.Speculates steadily move ∧
      s.KeepsRequests move) (.start speculatingEngine) cachedSuccessor :=
    run_cachedSuccessor fun _ _ h h' => ⟨h, h'⟩
  have hRun := hFetched.tail
    ⟨.set { speculatingEngine with dryRun := true }, ⟨trivial, rfl, rfl, fun _ => rfl⟩, rfl⟩
  exact ⟨_, rfl, rfl, prefetch_transparent speculatingEngine _ hRun plainDispatch 52 .null⟩

/-- After the user has been set to 6, the node is served what was fetched for user 5, once. -/
theorem prefetched_once_cached :
    ∃ s : PrefetchingEngine (bareHost true), s.engine.userId = some 6 ∧
      s.modules.hits = [(52, seventhModule)] ∧
      (∀ hit ∈ s.modules.hits, ∃ E' ∈ s.settings, ∃ fetcher userId,
        E'.moduleFetcher = some fetcher ∧ E'.userId = some userId ∧
          steadily fetcher (E'.resolveModuleId hit.1) userId hit.2) ∧
        ∀ nodeId, s.modules.hits.countP (·.1 = nodeId) ≤
          s.modules.fetched.countP (·.1 = nodeId) := by
  have hFetched : Run PrefetchingEngine.step (PrefetchingEngine.Speculates steadily)
      (.start speculatingEngine) cachedSuccessor := run_cachedSuccessor fun _ _ h _ => h
  have hSet := hFetched.tail
    ⟨.set { speculatingEngine with userId := some 6 }, trivial, rfl⟩
  have hTaken := hSet.tail ⟨.cache (.take 52), trivial, rfl⟩
  exact ⟨_, rfl, rfl, prefetched_once speculatingEngine steadily _ hTaken⟩

end Samples

end TalosWorkflow
