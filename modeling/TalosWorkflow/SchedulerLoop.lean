import TalosWorkflow.Library.Transition
import TalosWorkflow.Scheduler

/-!
# Steps and runs of the scheduler loop

The reactor of a run as a state machine. What a handler, a module or the
transport reports is supplied by the action of a step; everything the engine
decides itself is computed. Visits come first, then the outputs of a batch of
sub-workflows, then the ready nodes, and a future is awaited last.
-/

namespace TalosWorkflow

/-- What the handler of a popped node, or the rate limiter, reports. -/
inductive Answer where
  | output (value : Json)
  | error (message : String)
  | pause (waiting : Json)
  | outputs (values : List Json)
  | refused
  | accepted

inductive Action where
  | visit
  | store
  | pop (answer : Answer)
  /-- A future returns; `ran` is the number of its steps that were executed. -/
  | finish (position : Nat) (result : Except String Json) (ran : Nat)

/-- The popped node that the flight was launched for. -/
def Flight.start : Flight → NodeIndex
  | .single idx _ => idx
  | .chain members _ => members.headD 0

namespace Reactor

variable {H : Host} (R : Reactor H)

def waitingOutput (id : Uuid) (message : Option String) : Json :=
  match message with
  | some m =>
      .object [("__waiting__", .bool true), ("execution_id", .string R.executionId.text),
        ("message", .string m), ("node_id", .string id.text)]
  | none =>
      .object [("__waiting__", .bool true), ("execution_id", .string R.executionId.text),
        ("node_id", .string id.text)]

def isSubWorkflowNode (idx : NodeIndex) : Bool :=
  match R.kindOf (R.nodeId idx) with
  | some (.subWorkflow ..) => true
  | _ => false

def errorPatternMismatch : Json :=
  .object [("__skipped", .bool true), ("reason", .string "error_pattern_mismatch")]

/-- The message an error handler matches its pattern against. -/
def upstreamErrorMessage (inputs : Json) : String :=
  let direct := inputs.get "error_message"
  let nested := inputs.asObject.bind fun fields =>
    fields.findSome? fun field => field.2.get "error_message"
  ((direct.or nested).bind Json.asStr).getD ""

def tryDispatchErrorHandler (idx : NodeIndex) (errorPattern : Option String)
    (results : Table Json) : Option Json :=
  match errorPattern with
  | none => none
  | some pattern =>
      if pattern.toList <:+: (upstreamErrorMessage (R.gatherInputs idx results)).toList then none
      else some errorPatternMismatch

def rateLimitExceeded (limit : Int) : Json :=
  .object [("__error", .bool true),
    ("error_message", .string ("Module rate limit exceeded (" ++ toString limit ++ "/min)"))]

section Dispatch

/-- The handler of a system node ran. -/
def handled (s : State) (idx : NodeIndex) : State :=
  (s.log (.dispatched idx)).log (.executed idx)

def skipLocally (s : State) (idx : NodeIndex) (output : Json) : State :=
  R.insertAndUnblock (s.log (.skipped idx)) idx output

@[simps]
def pauseAt (s : State) (idx : NodeIndex) (waiting : Json) : State :=
  { handled s idx with
    results := s.results.insert (R.nodeId idx) waiting
    status := .paused }

@[simps]
def launchSingle (s : State) (idx : NodeIndex) : State :=
  { s with
    executing := s.executing ++ [.single idx (R.parentOutputs idx s.results)]
    history := .dispatched idx :: s.history }

@[simps]
def launchChain (s : State) (idx : NodeIndex) (members : List NodeIndex) : State :=
  { s with
    executing := s.executing ++ [.chain members (R.parentOutputs idx s.results)]
    history := .chainDispatched members :: s.history }

/-- The sub-workflow nodes among the ready ones join the batch of `idx`. -/
def drainSubWorkflows (s : State) (idx : NodeIndex) (values : List Json) : Option State :=
  let nodes := idx :: s.ready.filter R.isSubWorkflowNode
  if values.length = nodes.length then
    some { s with
      ready := s.ready.filter fun other => !R.isSubWorkflowNode other
      batch := nodes.zip values
      history := nodes.reverse.map .dispatched ++ s.history }
  else none

def dispatchSingle (s : State) (idx : NodeIndex) : Answer → Option (Except Halt State)
  | .refused =>
      match R.rateLimits.lookup (R.resolveModuleId (R.nodeId idx)) with
      | some limit =>
          if 0 < limit then some (.ok (R.insertAndUnblock s idx (rateLimitExceeded limit))) else none
      | none => none
  | .accepted => some (.ok (R.launchSingle s idx))
  | _ => none

/-- A capability dispatch or a loop fails the workflow unless it may continue. -/
def storeOrFail (s : State) (idx : NodeIndex) (label fallback : String) (output : Json) :
    Except Halt State :=
  let id := R.nodeId idx
  if isErrorOutput output && !R.continueOnError id then
    .error (.failed (label ++ " node " ++ id.text ++ ": " ++ errorMessageOr output fallback))
  else .ok (R.insertAndUnblock s idx output)

def dispatchKind (s : State) (idx : NodeIndex) :
    Option SystemNodeKind → Answer → Option (Except Halt State)
  | some (.fanIn ..), .output v =>
      some (.ok (R.insertAndUnblock ((handled s idx).log (.aggregated idx)) idx v))
  | some .collect, .output v
  | some (.synthesize ..), .output v
  | some (.verify ..), .output v
  | some (.confidenceGate ..), .output v
  | some (.agentLoop ..), .output v
  | some (.reActLoop ..), .output v
  | some (.whileLoop ..), .output v
  | some (.repeatLoop ..), .output v
  | some (.dynamicDispatch ..), .output v => some (.ok (R.insertAndUnblock (handled s idx) idx v))
  | some (.verify ..), .error message
  | some (.confidenceGate ..), .error message
  | some (.dynamicDispatch ..), .error message =>
      some (R.handleNodeFailure (handled s idx) idx message)
  | some (.wait message), _ =>
      some (.ok (R.pauseAt s idx (R.waitingOutput (R.nodeId idx) message)))
  | some (.confidenceGate ..), .pause waiting => some (.ok (R.pauseAt s idx waiting))
  | some (.inlineJudge ..), .output v
  | some (.judge ..), .output v
  | some (.ensemble ..), .output v
  | some (.reflectiveRetry ..), .output v
  | some (.llmDispatch ..), .output v => some (R.routeSystemNodeOutput (handled s idx) idx v)
  | some (.subWorkflow ..), .outputs values => (R.drainSubWorkflows s idx values).map .ok
  | some (.capabilityDispatch ..), .output v =>
      some (R.storeOrFail (handled s idx) idx "Capability dispatch" "capability dispatch failed" v)
  | some (.loop ..), .output v =>
      some (R.storeOrFail (handled s idx) idx "Loop" "loop body failed" v)
  | some (.errorHandler pattern), answer =>
      match R.tryDispatchErrorHandler idx pattern s.results with
      | some output => some (.ok (R.skipLocally s idx output))
      | none => R.dispatchSingle s idx answer
  | none, answer => R.dispatchSingle s idx answer
  | _, _ => none

def dispatchNode (s : State) (idx : NodeIndex) (answer : Answer) : Option (Except Halt State) :=
  match R.chainOf idx with
  | some members =>
      -- Members other than the head roll up under the head's completion.
      if R.isChainHead idx then some (.ok (R.launchChain s idx members)) else some (.ok s)
  | none =>
      match R.checkSkipCondition idx s.results with
      | some output => some (.ok (R.skipLocally s idx output))
      | none => R.dispatchKind s idx (R.kindOf (R.nodeId idx)) answer

end Dispatch

section Futures

@[simps]
def logExecuted (s : State) (nodes : List NodeIndex) : State :=
  { s with history := nodes.reverse.map .executed ++ s.history }

/-- A chain that returns a value has executed all of its members. -/
def finishFlight (s : State) (flight : Flight) (result : Except String Json) (ran : Nat) :
    Option (Except Halt State) :=
  match flight with
  | .single idx _ => some (R.handleCompletedFuture (s.log (.executed idx)) idx result)
  | .chain members _ =>
      match members.getLast? with
      | some tail =>
          if ran ≤ members.length ∧ (result.isOk → ran = members.length) then
            some (R.handleCompletedFuture (logExecuted s (members.take ran)) tail result)
          else none
      | none => none

end Futures

section Steps

def body (s : State) : Action → Option (Except Halt State)
  | .visit =>
      match s.visits with
      | visit :: rest => some (R.makeVisit { s with visits := rest } visit)
      | [] => none
  | .store =>
      match s.visits, s.batch with
      | [], (idx, v) :: rest =>
          some (.ok (R.insertAndUnblock ({ s with batch := rest }.log (.executed idx)) idx v))
      | _, _ => none
  | .pop answer =>
      match s.visits, s.batch, s.ready with
      | [], [], idx :: rest => R.dispatchNode { s with ready := rest } idx answer
      | _, _, _ => none
  | .finish position result ran =>
      match s.visits, s.batch, s.ready, s.executing[position]? with
      | [], [], [], some flight =>
          R.finishFlight { s with executing := s.executing.eraseIdx position } flight result ran
      | _, _, _, _ => none

def step (s : State) (action : Action) : Option State :=
  if s.status = .running then
    (R.body s action).map fun
      | .ok s' => s'
      | .error halt => s.halt halt
  else none

end Steps

section Start

/-- A seeded node is complete, and its successors are counted down. -/
def seedNode (pending : NodeIndex → Nat) (id : Uuid) : NodeIndex → Nat :=
  match R.nodeMap.lookup id with
  | some idx =>
      (R.graph.successors idx).foldl (fun p child => Function.update p child (p child - 1))
        (Function.update pending idx 0)
  | none => pending

def initialPending (initialResults : Table Json) : NodeIndex → Nat :=
  initialResults.keys.foldl R.seedNode R.graph.inDegree

def initialReady (initialResults : Table Json) : List NodeIndex :=
  R.graph.nodeIndices.filter fun idx =>
    R.initialPending initialResults idx = 0 ∧ R.nodeId idx ∉ initialResults

def initialState (initialResults : Table Json) : State where
  results := initialResults
  pending := R.initialPending initialResults
  ready := R.initialReady initialResults
  visits := []
  batch := []
  executing := []
  status := .running
  history := (R.initialReady initialResults).reverse.map .enqueued

end Start

end Reactor

namespace ParallelWorkflowEngine

variable {H : Host} (E : ParallelWorkflowEngine H)

/-- Chains are detected on fresh runs only, and system nodes stay out of them. -/
def reactor (executionId : Uuid) (initialResults : Table Json) : Reactor H where
  toParallelWorkflowEngine := E
  executionId := executionId
  chains :=
    if initialResults.entries.isEmpty then
      (detectLinearChains E.graph).filter fun chain => chain.all E.isModuleBacked
    else []

/-- The states a run can reach, when every step is one of the allowed ones. -/
def Runs (executionId : Uuid) (initialResults : Table Json)
    (allowed : Reactor H → State → Action → Prop) (s : State) : Prop :=
  let R := E.reactor executionId initialResults
  E.graph.Acyclic ∧ Run R.step (allowed R) (R.initialState initialResults) s

def FreshRun (executionId : Uuid) (allowed : Reactor H → State → Action → Prop) (s : State) :
    Prop :=
  E.Runs executionId ∅ allowed s

end ParallelWorkflowEngine

end TalosWorkflow
