import Mathlib.Algebra.Order.BigOperators.Group.List
import TalosWorkflow.Documents.Representation
import TalosWorkflow.ChainDetect
import TalosWorkflow.Retries.Backoff

/-!
# Timeouts from the document to the wire

A document gives timeouts in seconds, without a limit. The dispatcher tells the
worker milliseconds and waits for seconds, with some grace for a single job.
-/

namespace TalosWorkflow

open Multigraph

variable {H : Host}

section Timers

/-- `TOKIO_WRAP_GRACE_SECS`. -/
def tokioWrapGraceSecs : UInt64 := 5

/-- How long `NatsNodeDispatcher::dispatch` waits for a reply to an attempt. -/
def outerTimeoutSecs (overflowChecks : Bool) (job : DispatchJob) : Option UInt64 :=
  addU64 overflowChecks job.timeoutSecs tokioWrapGraceSecs

/-- `dispatch_chain` waits for as long as the chain may take. -/
def chainOuterTimeoutSecs (request : ChainDispatchRequest) : UInt64 := request.totalTimeoutSecs

/-- The timers of a job are its budget, and its budget with the grace. -/
structure JobTimers (overflowChecks : Bool) (budgetSecs : UInt64) (job : DispatchJob) : Prop where
  wire : ∀ freshId stamp, (dispatch job freshId stamp).timeoutMs.toNat = budgetSecs.toNat * 1000
  outer : ∃ secs, outerTimeoutSecs overflowChecks job = some secs ∧
    secs.toNat = budgetSecs.toNat + tokioWrapGraceSecs.toNat ∧
      ∀ freshId stamp, (dispatch job freshId stamp).timeoutMs.toNat ≤ secs.toNat * 1000

/-- The sum of the budgets with its slack, or the floor. -/
def chainBudgetSecs (budgets : List UInt64) (floorSecs : UInt64) : Nat :=
  max ((budgets.map UInt64.toNat).sum + 5) floorSecs.toNat

structure ChainTimers (budgets : List UInt64) (floorSecs : UInt64)
    (request : ChainDispatchRequest) : Prop where
  total : request.totalTimeoutSecs.toNat = chainBudgetSecs budgets floorSecs
  wire : ∀ freshId stamp, (dispatchChain request freshId stamp).totalTimeoutMs.toNat =
    chainBudgetSecs budgets floorSecs * 1000
  steps : ∀ freshId stamp, (dispatchChain request freshId stamp).steps.map (·.timeoutMs.toNat) =
    budgets.map fun budgetSecs => budgetSecs.toNat * 1000
  outer : ∀ freshId stamp, (dispatchChain request freshId stamp).totalTimeoutMs.toNat ≤
    (chainOuterTimeoutSecs request).toNat * 1000

/-- The most seconds that fit into 64 bits as milliseconds. -/
def maxExactSecs : Nat := usizeMax / 1000

theorem millis_exact_iff {secs : UInt64} :
    (millis secs).toNat = secs.toNat * 1000 ↔ secs.toNat ≤ maxExactSecs := by
  rw [millis, UInt64.toNat_ofNat', maxExactSecs, usizeMax]
  omega

theorem jobTimers_iff {overflowChecks : Bool} {budgetSecs : UInt64} {job : DispatchJob}
    (hBudget : job.timeoutSecs = budgetSecs) :
    JobTimers overflowChecks budgetSecs job ↔ budgetSecs.toNat ≤ maxExactSecs := by
  subst hBudget
  constructor
  · intro hTimers
    exact millis_exact_iff.1 (hTimers.wire 0 {})
  · intro hFits
    have hWire := millis_exact_iff.2 hFits
    have hMax : maxExactSecs + 5 ≤ usizeMax := by decide
    have hGrace : tokioWrapGraceSecs.toNat = 5 := rfl
    have hSum : (job.timeoutSecs + tokioWrapGraceSecs).toNat =
        job.timeoutSecs.toNat + tokioWrapGraceSecs.toNat := by
      rw [usizeMax] at hMax
      rw [UInt64.toNat_add, hGrace, Nat.mod_eq_of_lt (by omega)]
    refine ⟨fun _ _ => hWire, _, if_pos (by omega), hSum, fun _ _ => ?_⟩
    rw [hSum]
    exact hWire.trans_le (Nat.mul_le_mul_right _ (Nat.le_add_right _ _))

end Timers

namespace ParallelWorkflowEngine

variable (E : ParallelWorkflowEngine H) (d : DispatchContext)

/-- A job that the engine dispatches for a node, and the timeout that it has by default. -/
inductive Asks : Uuid → UInt64 → DispatchJob → Prop
  | single (nodeId : Uuid) (inputs : Json) (job : DispatchJob)
      (hJob : E.runSingleNodeDispatch d nodeId inputs = .ok job) :
      Asks nodeId d.defaultNodeTimeoutSecs job
  | iteration (nodeId bodyId moduleId : Uuid) (maxIterations : UInt32) (condition : String)
      (artifact : WasmModuleArtifact) (triggerInput : Option Json) (iteration : UInt32)
      (current : Json) (hKind : E.kindOf nodeId = some (.loop maxIterations condition))
      (hBody : E.loopBody nodeId = some (bodyId, moduleId))
      (hFetch : E.fetchModule d bodyId = .ok artifact) :
      Asks bodyId 30
        (E.loopJob { d with triggerInput := triggerInput } bodyId moduleId artifact iteration
          current)

/-- The members of a chain can be fetched and are approved. -/
def CanRun (members : List NodeIndex) : Prop :=
  ∀ idx ∈ members, ∃ step, E.fetchStep d.executionId (E.nodeId idx) = .ok step

variable {E d}

theorem Asks.timeoutSecs {nodeId : Uuid} {defaultSecs : UInt64} {job : DispatchJob}
    (h : E.Asks d nodeId defaultSecs job) :
    job.timeoutSecs = (E.nodeTimeouts.lookup nodeId).getD defaultSecs := by
  cases h with
  | single id inputs job hJob =>
      obtain ⟨artifact, -, -, rfl⟩ := runSingleNodeDispatch_ok hJob
      rfl
  | iteration => rfl

theorem chainSteps_timeouts {nodeIds : List Uuid} {jobs : List DispatchJob}
    (h : E.chainSteps d nodeIds = .ok jobs) :
    jobs.map (·.timeoutSecs) = nodeIds.map fun id => (E.nodeTimeouts.lookup id).getD 30 := by
  induction nodeIds generalizing jobs with
  | nil =>
      cases h
      rfl
  | cons nodeId rest ih =>
      simp only [chainSteps, bind, Except.bind] at h
      split at h
      · cases h
      · split at h
        · cases h
        · rename_i others hOthers
          cases h
          rw [List.map_cons, List.map_cons, ih hOthers]
          rfl

theorem wrapFirst_timeouts (chainInput : Json) (jobs : List DispatchJob) :
    (E.wrapFirst d chainInput jobs).map (·.timeoutSecs) = jobs.map (·.timeoutSecs) := by
  cases jobs with
  | nil => rfl
  | cons first rest => rfl

/-- The timers of a request of a chain, as far as they are computed from the steps and the sum. -/
theorem runPipelineChainDispatch_timers {head : NodeIndex} {rest : List NodeIndex}
    {chainInput : Json} {request : ChainDispatchRequest}
    (h : E.runPipelineChainDispatch d head rest chainInput = .ok request) :
    request.steps.map (·.timeoutSecs) =
        ((head :: rest).map E.nodeId).map (fun id => (E.nodeTimeouts.lookup id).getD 30) ∧
      request.totalTimeoutSecs =
        max (UInt64.ofNat (E.totalTimeoutSecs ((head :: rest).map E.nodeId)))
          d.natsTimeoutFloorSecs := by
  simp only [runPipelineChainDispatch, bind, Except.bind] at h
  split at h
  · cases h
  · rename_i jobs hJobs
    split at h
    · cases h
    · rename_i secs hSecs
      cases h
      rw [chainTimeoutSecs] at hSecs
      split at hSecs
      · cases hSecs
      · cases hSecs
        exact ⟨(wrapFirst_timeouts chainInput jobs).trans (chainSteps_timeouts hJobs), rfl⟩

/-- A chain that can run has exact timers exactly when its budget fits. -/
theorem chainTimers_iff {head : NodeIndex} {rest : List NodeIndex} {chainInput : Json}
    {budgets : List UInt64} (hRun : E.CanRun d (head :: rest))
    (hBudgets : budgets =
      ((head :: rest).map E.nodeId).map fun id => (E.nodeTimeouts.lookup id).getD 30) :
    (∃ request, E.runPipelineChainDispatch d head rest chainInput = .ok request ∧
        ChainTimers budgets d.natsTimeoutFloorSecs request) ↔
      chainBudgetSecs budgets d.natsTimeoutFloorSecs ≤ maxExactSecs := by
  have hTotal : E.totalTimeoutSecs ((head :: rest).map E.nodeId) =
      (budgets.map UInt64.toNat).sum + 5 := by
    rw [hBudgets, List.map_map]
    rfl
  constructor
  · rintro ⟨request, -, hTimers⟩
    rw [← hTimers.total, ← millis_exact_iff, hTimers.total]
    exact hTimers.wire 0 {}
  · intro hFits
    have hBounds := Nat.max_le.1 hFits
    have hRoom : maxExactSecs ≤ usizeMax := Nat.div_le_self _ _
    obtain ⟨request, hRequest⟩ := exists_runPipelineChainDispatch.2
      ⟨hRun, fun hLarge => absurd hLarge (by omega)⟩
    obtain ⟨hSteps, hSecs⟩ := runPipelineChainDispatch_timers hRequest
    have hValue : request.totalTimeoutSecs.toNat =
        chainBudgetSecs budgets d.natsTimeoutFloorSecs := by
      have hExact : (UInt64.ofNat ((budgets.map UInt64.toNat).sum + 5)).toNat =
          (budgets.map UInt64.toNat).sum + 5 := by
        rw [UInt64.toNat_ofNat', Nat.mod_eq_of_lt]
        rw [usizeMax] at hRoom
        omega
      rw [hSecs, hTotal, chainBudgetSecs, UInt64.toNat_max, hExact]
    have hWire : (millis request.totalTimeoutSecs).toNat =
        chainBudgetSecs budgets d.natsTimeoutFloorSecs * 1000 := by
      rw [← hValue, millis_exact_iff, hValue]
      exact hFits
    refine ⟨request, hRequest,
      { total := hValue
        wire := fun _ _ => hWire
        steps := fun _ _ => ?_
        outer := fun _ _ => ?_ }⟩
    · have hEach : ∀ budget ∈ budgets, (millis budget).toNat = budget.toNat * 1000 := by
        intro budget hIn
        have hLe : budget.toNat ≤ (budgets.map UInt64.toNat).sum :=
          List.le_sum_of_mem (List.mem_map_of_mem hIn)
        exact millis_exact_iff.2 (by omega)
      calc ((dispatchChain request _ _).steps.map (·.timeoutMs.toNat))
          = (request.steps.map (·.timeoutSecs)).map fun secs => (millis secs).toNat := by
            rw [List.map_map, dispatchChain, List.map_map]
            rfl
        _ = budgets.map fun budgetSecs => budgetSecs.toNat * 1000 := by
            rw [hSteps, ← hBudgets]
            exact List.map_congr_left hEach
    · rw [chainOuterTimeoutSecs, hValue]
      exact hWire.le

end ParallelWorkflowEngine

section Documents

open GraphFormat

variable (F : GraphFormat) (E₀ : ParallelWorkflowEngine H) (graph : Json) (d : DispatchContext)

def GraphFormat.laterTimeout (actorId : Option Uuid) (id : Uuid) (found : Option UInt64)
    (node : Json) : Option UInt64 :=
  match F.readNode actorId node with
  | some entry => if entry.id = id then entry.timeoutSecs.or found else found
  | none => found

/-- The timeout of a node after a document: the last that the document gives it, or the old one. -/
def GraphFormat.timeoutAfter (id : Uuid) : Option UInt64 :=
  (documentNodes graph).foldl (F.laterTimeout E₀.actorId id) (E₀.nodeTimeouts.lookup id)

def GraphFormat.budgetSecs (defaultSecs : UInt64) (id : Uuid) : UInt64 :=
  (F.timeoutAfter E₀ graph id).getD defaultSecs

def GraphFormat.chainBudgets (E : ParallelWorkflowEngine H) (members : List NodeIndex) :
    List UInt64 :=
  (members.map E.nodeId).map (F.budgetSecs E₀ graph 30)

/-- The timers of each request that the loaded engine makes are exact. -/
structure TimersExact : Prop where
  jobs : ∀ E, F.parseGraphDocument E₀ graph = .ok E → ∀ nodeId defaultSecs job,
    E.Asks d nodeId defaultSecs job →
      JobTimers H.overflowChecks (F.budgetSecs E₀ graph defaultSecs nodeId) job
  chains : ∀ E, F.parseGraphDocument E₀ graph = .ok E → ∀ head rest chainInput,
    head :: rest ∈ detectLinearChains E.graph → E.CanRun d (head :: rest) →
      ∃ request, E.runPipelineChainDispatch d head rest chainInput = .ok request ∧
        ChainTimers (F.chainBudgets E₀ graph E (head :: rest)) d.natsTimeoutFloorSecs request

/-- The budgets of the nodes and the chains that can run fit into 64 bits as milliseconds. -/
structure BudgetsFit : Prop where
  jobs : ∀ E, F.parseGraphDocument E₀ graph = .ok E → ∀ nodeId defaultSecs job,
    E.Asks d nodeId defaultSecs job →
      (F.budgetSecs E₀ graph defaultSecs nodeId).toNat ≤ maxExactSecs
  chains : ∀ E, F.parseGraphDocument E₀ graph = .ok E → ∀ head rest,
    head :: rest ∈ detectLinearChains E.graph → E.CanRun d (head :: rest) →
      chainBudgetSecs (F.chainBudgets E₀ graph E (head :: rest)) d.natsTimeoutFloorSecs ≤
        maxExactSecs

variable {F E₀ graph d}

theorem lookup_install_nodeTimeouts (entry : NodeEntry) (E : ParallelWorkflowEngine H) (id : Uuid) :
    (entry.install E).nodeTimeouts.lookup id =
      if entry.id = id then entry.timeoutSecs.or (E.nodeTimeouts.lookup id)
      else E.nodeTimeouts.lookup id := by
  have hAdded : ∀ labelled : ParallelWorkflowEngine H,
      (labelled.addNode entry.id entry.info).nodeTimeouts = labelled.nodeTimeouts := fun labelled =>
    ParallelWorkflowEngine.addNode_frame (fun _ _ _ _ => rfl) labelled _ _
  unfold NodeEntry.install
  split
  · rename_i t hTimeout
    rw [hTimeout, Option.some_or]
    dsimp only
    rw [hAdded]
    split
    · rename_i hId
      rw [← hId]
      exact AList.lookup_insert _
    · rename_i hId
      exact AList.lookup_insert_ne (Ne.symm hId)
  · rename_i hTimeout
    rw [hTimeout, Option.none_or, ite_self, hAdded]

/-- Loading the nodes one by one gives each the timeout that the document has for it. -/
theorem lookup_load_nodes (nodes : List Json) (rfToNode : RfIds) (E : ParallelWorkflowEngine H)
    (id : Uuid) :
    (nodes.foldl F.loadNode (E, rfToNode)).1.nodeTimeouts.lookup id =
      nodes.foldl (F.laterTimeout E.actorId id) (E.nodeTimeouts.lookup id) := by
  induction nodes generalizing E rfToNode with
  | nil => rfl
  | cons node rest ih =>
      rw [List.foldl_cons, List.foldl_cons, loadNode, laterTimeout]
      cases F.readNode E.actorId node with
      | none => exact ih rfToNode E
      | some entry =>
          dsimp only
          rw [ih, untouched_actorId.install, lookup_install_nodeTimeouts]

theorem lookup_parseGraphDocument {E : ParallelWorkflowEngine H}
    (h : F.parseGraphDocument E₀ graph = .ok E) (id : Uuid) :
    E.nodeTimeouts.lookup id = F.timeoutAfter E₀ graph id := by
  rw [timeoutAfter, ← lookup_load_nodes _ ∅]
  exact congrArg (AList.lookup id) (parseGraphDocument_frame (fun _ _ => rfl) h)

/-- The timers are exact exactly when the budgets of what can run fit. -/
theorem timers_exact_iff (F : GraphFormat) (E₀ : ParallelWorkflowEngine H) (graph : Json)
    (d : DispatchContext) : TimersExact F E₀ graph d ↔ BudgetsFit F E₀ graph d := by
  have hBudget : ∀ E, F.parseGraphDocument E₀ graph = .ok E → ∀ defaultSecs id,
      (E.nodeTimeouts.lookup id).getD defaultSecs = F.budgetSecs E₀ graph defaultSecs id := by
    intro E hLoad defaultSecs id
    rw [lookup_parseGraphDocument hLoad, budgetSecs]
  have hBudgets : ∀ E, F.parseGraphDocument E₀ graph = .ok E → ∀ members,
      F.chainBudgets E₀ graph E members =
        (members.map E.nodeId).map fun id => (E.nodeTimeouts.lookup id).getD 30 := by
    intro E hLoad members
    exact List.map_congr_left fun id _ => (hBudget E hLoad 30 id).symm
  constructor
  · intro hExact
    refine ⟨fun E hLoad nodeId defaultSecs job hAsks => ?_, fun E hLoad head rest hChain hRun => ?_⟩
    · exact (jobTimers_iff (hAsks.timeoutSecs.trans (hBudget E hLoad _ _))).1
        (hExact.jobs E hLoad nodeId defaultSecs job hAsks)
    · exact (ParallelWorkflowEngine.chainTimers_iff hRun (hBudgets E hLoad _)).1
        (hExact.chains E hLoad head rest .null hChain hRun)
  · intro hFit
    refine ⟨fun E hLoad nodeId defaultSecs job hAsks => ?_,
      fun E hLoad head rest chainInput hChain hRun => ?_⟩
    · exact (jobTimers_iff (hAsks.timeoutSecs.trans (hBudget E hLoad _ _))).2
        (hFit.jobs E hLoad nodeId defaultSecs job hAsks)
    · exact (ParallelWorkflowEngine.chainTimers_iff hRun (hBudgets E hLoad _)).2
        (hFit.chains E hLoad head rest hChain hRun)

end Documents

section Samples

/-- Two nodes of module 7: the milliseconds of the first are just too many, and the second has the
largest timeout that there is. -/
def slowGraph : Json :=
  .object [("nodes", .array
    [.object [("id", GraphFormat.uuidJson 1), ("type", GraphFormat.uuidJson 7),
        ("timeout_secs", .ofU64 18446744073709552)],
      .object [("id", GraphFormat.uuidJson 2), ("type", GraphFormat.uuidJson 7),
        ("timeout_secs", .ofU64 18446744073709551615)]])]

def uncheckedEngine : ParallelWorkflowEngine (bareHost false) :=
  { (ParallelWorkflowEngine.new : ParallelWorkflowEngine (bareHost false)) with userId := some 1 }

def localDispatch : DispatchContext := ⟨9, 0, none, ∅, some (.ok [1]), none, none, 60, 0⟩

/-- The worker is told 384 milliseconds for the first, and the dispatcher waits four seconds for the
second. -/
theorem timeouts_wrap_around :
    ∃ E, plainFormat.parseGraphDocument uncheckedEngine slowGraph = .ok E ∧
      (∃ job, E.Asks localDispatch 1 60 job ∧ (dispatch job 0 {}).timeoutMs = 384) ∧
      (∃ job, E.Asks localDispatch 2 60 job ∧ outerTimeoutSecs false job = some 4) ∧
      ¬ TimersExact plainFormat uncheckedEngine slowGraph localDispatch := by
  have hTruncated : ∃ E, plainFormat.parseGraphDocument uncheckedEngine slowGraph = .ok E ∧
      (∃ job, E.runSingleNodeDispatch localDispatch 1 .null = .ok job ∧
        (dispatch job 0 {}).timeoutMs = 384) ∧
      ∃ job, E.runSingleNodeDispatch localDispatch 2 .null = .ok job ∧
        outerTimeoutSecs false job = some 4 :=
    ⟨_, rfl, ⟨_, rfl, by decide⟩, _, rfl, by decide⟩
  obtain ⟨E, hLoad, ⟨job, hJob, hWire⟩, other, hOther, hOuter⟩ := hTruncated
  have hAsks : E.Asks localDispatch 1 60 job := .single 1 .null job hJob
  refine ⟨E, hLoad, ⟨job, hAsks, hWire⟩, ⟨other, .single 2 .null other hOther, hOuter⟩,
    fun hExact => ?_⟩
  have hBudget : plainFormat.budgetSecs uncheckedEngine slowGraph 60 1 = 18446744073709552 := by
    decide
  have hSame := (hExact.jobs E hLoad 1 60 job hAsks).wire 0 {}
  rw [hWire, hBudget] at hSame
  exact absurd hSame (by decide)

end Samples

end TalosWorkflow
