import TalosWorkflow.Exits.Context
import TalosWorkflow.Library.Window
import TalosWorkflow.Policy.DryRun

/-!
# Rate limits

The engines of a process share one map of counters. Only the dispatch of a
single node consults it.
-/

namespace TalosWorkflow

variable {H : Host}

/-- The metering window in nanoseconds. -/
def rateLimitWindow : Nat := 60 * 10 ^ 9

def rateLimitStale : Nat := 300 * 10 ^ 9

def rateLimitMaxEntries : Nat := 1000

section Limiter

namespace ParallelWorkflowEngine

variable (E : ParallelWorkflowEngine H) (now : Nat) (windows : Table Window)

/-- The limit and the counter of the module, if the engine has loaded a limit for it. -/
def meteredWindow (nodeId : Uuid) : Option (Int × Window) :=
  match E.rateLimits.lookup (E.resolveModuleId nodeId) with
  | none => none
  | some limit =>
      if limit ≤ 0 then none
      else some (limit,
        Window.record rateLimitWindow now (windows.lookup (E.resolveModuleId nodeId)))

/-- The refusal of a dispatch, and the counters after it has been checked. -/
def checkRateLimit (nodeId : Uuid) : Option Json × Table Window :=
  match E.meteredWindow now windows nodeId with
  | none => (none, windows)
  | some (limit, w) =>
      (if limit.toNat < w.count.toNat then some (Reactor.rateLimitExceeded limit) else none,
        windows.insert (E.resolveModuleId nodeId) w)

end ParallelWorkflowEngine

def retain (windows : Table Window) (keep : Window → Bool) : Table Window :=
  ⟨windows.entries.filter fun entry => keep entry.2, windows.nodupKeys.sublist List.filter_sublist⟩

def evictStaleRateLimits (now : Nat) (windows : Table Window) : Table Window :=
  if rateLimitMaxEntries < windows.entries.length then
    retain windows fun w => now < w.start + rateLimitStale
  else windows

end Limiter

section Processes

/-- Modules that an engine is about to hand to the dispatcher. A single node comes with the window
that has counted it. -/
inductive Launch (H : Host) where
  | single (E : ParallelWorkflowEngine H) (idx : NodeIndex) (window : Option Nat)
  | chain (E : ParallelWorkflowEngine H) (head : NodeIndex) (rest : List NodeIndex)
  | iteration (E : ParallelWorkflowEngine H) (bodyId : Uuid)

/-- A module that is to be executed, and the start of the window that has counted it. -/
abbrev Request := Uuid × Option Nat

def Launch.requests : Launch H → List Request
  | .single E idx window => [(E.resolveModuleId (E.nodeId idx), window)]
  | .chain E head rest => (head :: rest).map fun idx => (E.resolveModuleId (E.nodeId idx), none)
  | .iteration E bodyId => [(E.resolveModuleId bodyId, none)]

def Launch.reaches (d : DispatchContext) (inputs : Json) : Launch H → Bool
  | .single E idx _ => (E.runSingleNodeDispatch d (E.nodeId idx) inputs).isOk
  | .chain E head rest => (E.runPipelineChainDispatch d head rest inputs).isOk
  | .iteration E bodyId => (E.fetchModule d bodyId).isOk

namespace Reactor

variable (R : Reactor H)

/-- The counters after a step, and what the step launches. -/
def meter (now : Nat) (windows : Table Window) (s : State) :
    Action → Option (Table Window × List (Launch H))
  | .pop answer =>
      match s.ready with
      | [] => none
      | idx :: _ =>
          match R.chainOf idx with
          | some (head :: rest) =>
              some (windows, if R.isChainHead idx then [.chain R.toParallelWorkflowEngine head rest]
                else [])
          | some [] => some (windows, [])
          | none =>
              if (R.skips s idx).isNone && R.runsModule idx then
                let checked := R.checkRateLimit now windows (R.nodeId idx)
                match checked.1, answer with
                | some _, .refused => some (checked.2, [])
                | none, .accepted =>
                    some (checked.2, [.single R.toParallelWorkflowEngine idx
                      ((R.meteredWindow now windows (R.nodeId idx)).map (·.2.start))])
                | _, _ => none
              else some (windows, [])
  | _ => some (windows, [])

/-- The body of a loop that is about to be taken. -/
def iterates (s : State) : Option Uuid :=
  match s.visits, s.batch, R.handledHead s with
  | [], [], some idx =>
      match R.kindOf (R.nodeId idx) with
      | some (.loop maxIterations _) =>
          if 0 < maxIterations then (R.loopBody (R.nodeId idx)).map (·.1) else none
      | _ => none
  | _, _, _ => none

end Reactor

/-- A run of an engine that keeps its counters in memory, and whose limits, as far as they have
been loaded, are the declared ones. -/
structure ActiveRun (H : Host) (declared : Uuid → Option Int) where
  engine : ParallelWorkflowEngine H
  executionId : Uuid
  initialResults : Table Json
  state : State
  inMemory : engine.rateLimitStore = none
  loaded : ∀ moduleId limit, engine.rateLimits.lookup moduleId = some limit →
    declared moduleId = some limit

structure Handover where
  time : Nat
  moduleId : Uuid
  window : Option Nat

/-- The runs of a process, nested or not, with what has been launched and handed over by them. -/
structure Process (H : Host) (declared : Uuid → Option Int) where
  now : Nat
  windows : Table Window
  runs : List (ActiveRun H declared)
  launched : List (Launch H)
  handed : List Handover

inductive ProcessAction (H : Host) (declared : Uuid → Option Int) where
  | elapse (duration : Nat)
  | evict
  | start (run : ActiveRun H declared)
  | advance (run : Nat) (action : Action)
  /-- A loop launches its body once more before it reports. -/
  | iterate (run : Nat)
  | handOver (launch : Nat) (d : DispatchContext) (inputs : Json)

variable {declared : Uuid → Option Int}

def ActiveRun.reactor (run : ActiveRun H declared) : Reactor H :=
  run.engine.reactor run.executionId run.initialResults

namespace Process

def initial : Process H declared := ⟨0, ∅, [], [], []⟩

def step (p : Process H declared) : ProcessAction H declared → Option (Process H declared)
  | .elapse duration => some { p with now := p.now + duration }
  | .evict => some { p with windows := evictStaleRateLimits p.now p.windows }
  | .start run =>
      some { p with
        runs := p.runs ++ [{ run with state := run.reactor.initialState run.initialResults }] }
  | .advance i action =>
      match p.runs[i]? with
      | none => none
      | some run =>
          match run.reactor.step run.state action,
            run.reactor.meter p.now p.windows run.state action with
          | some t, some (windows, launches) =>
              some { p with
                windows := windows
                runs := p.runs.set i { run with state := t }
                launched := p.launched ++ launches }
          | _, _ => none
  | .iterate i =>
      match p.runs[i]? with
      | none => none
      | some run => (run.reactor.iterates run.state).map fun bodyId =>
          { p with launched := p.launched ++ [.iteration run.engine bodyId] }
  | .handOver k d inputs =>
      match p.launched[k]? with
      | none => none
      | some launch =>
          if launch.reaches d inputs then
            some { p with
              launched := p.launched.eraseIdx k
              handed := p.handed ++ launch.requests.map fun r => ⟨p.now, r.1, r.2⟩ }
          else none

/-- While a window is in force, no more executions are handed over in it than declared. -/
def WithinLimits (p : Process H declared) : Prop :=
  ∀ moduleId limit, declared moduleId = some limit → 0 < limit → ∀ w,
    p.windows.lookup moduleId = some w →
      (p.handed.countP fun h => decide (h.moduleId = moduleId ∧ w.start ≤ h.time ∧
        h.time ≤ w.start + rateLimitWindow)) ≤ limit.toNat

/-- An execution of a limited module is handed over within the window that has counted it, and
that counter does not run over. -/
def Counts (p : Process H declared) : ProcessAction H declared → Prop
  | .advance i (.pop _) => ∀ run ∈ p.runs[i]?, ∀ idx ∈ run.state.ready.head?,
      (run.engine.meteredWindow p.now p.windows (run.engine.nodeId idx)).isSome →
        (Window.roll rateLimitWindow p.now (p.windows.lookup
          (run.engine.resolveModuleId (run.engine.nodeId idx)))).count.toNat + 1 < UInt32.size
  | .handOver k _ _ => ∀ launch ∈ p.launched[k]?, ∀ request ∈ launch.requests, ∀ limit,
      declared request.1 = some limit → 0 < limit →
        ∃ start, request.2 = some start ∧ p.now ≤ start + rateLimitWindow
  | _ => True

end Process

end Processes

end TalosWorkflow
