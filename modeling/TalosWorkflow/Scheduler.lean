import Mathlib.Data.List.Infix
import Mathlib.Tactic.Simps.Basic
import TalosWorkflow.ChainDetect

/-!
# Completion handling

The bookkeeping of a run: results, pending counters and the ready queue. A
loop over the successors of a node is kept as the list of visits that are
still to be made, and one step of the scheduler makes one of them.
-/

namespace TalosWorkflow

open Multigraph

/-- An engine together with the constants of one run. -/
structure Reactor (H : Host) extends ParallelWorkflowEngine H where
  executionId : Uuid
  chains : List (List NodeIndex)

inductive Flight where
  | single (idx : NodeIndex) (parents : List (Uuid × Json))
  | chain (members : List NodeIndex) (parents : List (Uuid × Json))
  deriving DecidableEq

inductive Status where
  | running
  | paused
  | failed (message : String)
  | panicked
  deriving DecidableEq

inductive Event where
  | enqueued (idx : NodeIndex)
  | dispatched (idx : NodeIndex)
  | chainDispatched (members : List NodeIndex)
  | executed (idx : NodeIndex)
  | aggregated (idx : NodeIndex)
  | released (idx : NodeIndex)
  | skipped (idx : NodeIndex)
  | underflow (idx : NodeIndex)
  deriving DecidableEq

/-- How the successors of a completed node are treated. -/
inductive Completion where
  | unblocks
  | succeeds (output : Json)
  | routes
  deriving DecidableEq

/-- One iteration of a loop over successors. -/
structure Visit where
  mode : Completion
  source : NodeIndex
  target : NodeIndex
  deriving DecidableEq

structure State where
  results : Table Json
  pending : NodeIndex → Nat
  ready : List NodeIndex
  visits : List Visit
  /-- Sub-workflow outputs that are still to be stored. -/
  batch : List (NodeIndex × Json)
  executing : List Flight
  status : Status
  /-- The latest event comes first. -/
  history : List Event

/-- What ends a run before its queues are empty. -/
inductive Halt where
  | failed (message : String)
  | counterUnderflow (idx : NodeIndex)
  | charBoundary

namespace State

@[simps]
def insert (s : State) (id : Uuid) (value : Json) : State :=
  { s with results := s.results.insert id value }

@[simps]
def setPending (s : State) (idx : NodeIndex) (count : Nat) : State :=
  { s with pending := Function.update s.pending idx count }

@[simps]
def log (s : State) (event : Event) : State := { s with history := event :: s.history }

@[simps]
def enqueue (s : State) (idx : NodeIndex) : State :=
  { s with ready := s.ready ++ [idx], history := .enqueued idx :: s.history }

def halt (s : State) : Halt → State
  | .failed message => { s with status := .failed message }
  | .counterUnderflow idx =>
      { s with status := .panicked, history := .underflow idx :: s.history }
  | .charBoundary => { s with status := .panicked }

/-- The loop over the successors of `idx` begins. -/
@[simps]
def release (s : State) (mode : Completion) (idx : NodeIndex) (successors : List NodeIndex) :
    State :=
  { s with
    visits := successors.map fun child => ⟨mode, idx, child⟩
    history := .released idx :: s.history }

/-- Nothing is left to do or to wait for. -/
def Quiescent (s : State) : Prop :=
  s.status = .running ∧ s.visits = [] ∧ s.batch = [] ∧ s.ready = [] ∧ s.executing = []

instance (s : State) : Decidable s.Quiescent := by
  unfold Quiescent
  infer_instance

end State

section Outputs

/-- The longest prefix of at most `bound` bytes, unless `bound` cuts a character. -/
def bytePrefix : Nat → List Char → Option (List Char)
  | _, [] => some []
  | 0, _ :: _ => some []
  | bound + 1, c :: rest =>
      if c.utf8Size ≤ bound + 1 then (bytePrefix (bound + 1 - c.utf8Size) rest).map (c :: ·)
      else none

def maxStringFieldBytes : Nat := 10240

def sanitizeField : Json → Except Halt Json
  | .string s =>
      if maxStringFieldBytes < s.utf8ByteSize then
        match bytePrefix maxStringFieldBytes s.toList with
        | some kept => .ok (.string (String.ofList kept ++ "...[truncated at 10240B]"))
        | none => .error .charBoundary
      else .ok (.string s)
  | value => .ok value

def sanitizeFields : List (String × Json) → Except Halt (List (String × Json))
  | [] => .ok []
  | (key, value) :: rest => do
      let value ← sanitizeField value
      let rest ← sanitizeFields rest
      return (key, value) :: rest

def sanitizeNodeOutput : Json → Except Halt Json
  | .object fields => do
      let fields ← sanitizeFields fields
      return .object fields
  | output => .ok output

def skippedMark : Json := .object [("__skipped", .bool true)]

def isErrorOutput (output : Json) : Bool := ((output.get "__error").bind Json.asBool).getD false

def errorMessageOr (output : Json) (fallback : String) : String :=
  ((output.get "error_message").bind Json.asStr).getD fallback

end Outputs

namespace Reactor

variable {H : Host} (R : Reactor H)

section Chains

/-- The chain that `node_to_chain` gives. -/
def chainOf (idx : NodeIndex) : Option (List NodeIndex) :=
  R.chains.reverse.find? fun chain => idx ∈ chain

def isChainHead (idx : NodeIndex) : Bool := R.chains.any fun chain => chain.head? = some idx

def clearChain (s : State) (finished : NodeIndex) : State :=
  match R.chainOf finished with
  | some members => members.foldl (fun s member => s.setPending member 0) s
  | none => s

end Chains

section Counters

def markSkipped (s : State) (idx : NodeIndex) : State := s.insert (R.nodeId idx) skippedMark

/-- `if *cnt > 0 { *cnt -= 1 }`. -/
def countDown (s : State) (idx : NodeIndex) : State :=
  if 0 < s.pending idx then s.setPending idx (s.pending idx - 1) else s

/-- `*cnt -= 1`. -/
def decrement (s : State) (idx : NodeIndex) : Except Halt State :=
  if 0 < s.pending idx then .ok (s.setPending idx (s.pending idx - 1))
  else if H.overflowChecks then .error (.counterUnderflow idx)
  else .ok ((s.setPending idx usizeMax).log (.underflow idx))

/-- `total_parents - cnt`. -/
def completedParents (idx : NodeIndex) (count : Nat) : Except Halt Nat :=
  if count ≤ R.graph.inDegree idx then .ok (R.graph.inDegree idx - count)
  else if H.overflowChecks then .error (.counterUnderflow idx)
  else .ok (R.graph.inDegree idx + (usizeMax + 1) - count)

def joinSatisfied (mode : JoinMode) (total completed : Nat) : Bool :=
  match mode with
  | .all => false
  | .any => true
  | .majority => total / 2 < completed
  | .n quota => quota.toNat ≤ completed

def applyFanInEarlyReady (s : State) (child : NodeIndex) : Except Halt State :=
  match R.kindOf (R.nodeId child) with
  | some (.fanIn mode _) => do
      let completed ← R.completedParents child (s.pending child)
      if joinSatisfied mode (R.graph.inDegree child) completed && 0 < s.pending child then
        return s.setPending child 0
      else return s
  | _ => .ok s

end Counters

section Successors

def unblockSuccessors (s : State) (idx : NodeIndex) : State :=
  s.release .unblocks idx (R.graph.successors idx)

def visitUnblocked (s : State) (child : NodeIndex) : State :=
  let s := countDown s child
  if s.pending child = 0 then s.enqueue child else s

def hasErrorEdge (a b : NodeIndex) : Bool :=
  (R.graph.edgesConnecting a b).any fun e => e.weight.isError

def edgeConditionFailed (finished child : NodeIndex) (output : Json) : Bool :=
  (R.graph.edgesConnecting finished child).any fun e =>
    match e.weight.condition with
    | some condition => !R.evalBool condition (unwrapOutput output)
    | none => false

/-- The grandchildren are counted down, and none of them is enqueued. -/
def cascadeSkip (s : State) (child : NodeIndex) : State :=
  (R.graph.successors child).foldl countDown (R.markSkipped s child)

def visitSucceeded (finished : NodeIndex) (output : Json) (s : State) (child : NodeIndex) :
    Except Halt State :=
  if R.hasErrorEdge finished child then .ok (R.markSkipped s child)
  else do
    let s ← decrement (H := H) s child
    let s ← R.applyFanInEarlyReady s child
    if s.pending child = 0 then
      if R.edgeConditionFailed finished child output then return R.cascadeSkip s child
      else return s.enqueue child
    else return s

def visitRouted (finished : NodeIndex) (s : State) (child : NodeIndex) : Except Halt State :=
  if !R.hasErrorEdge finished child then .ok (R.markSkipped s child)
  else do
    let s ← R.applyFanInEarlyReady (countDown s child) child
    if s.pending child = 0 then return s.enqueue child else return s

def makeVisit (s : State) (visit : Visit) : Except Halt State :=
  match visit.mode with
  | .unblocks => .ok (visitUnblocked s visit.target)
  | .succeeds output => R.visitSucceeded visit.source output s visit.target
  | .routes => R.visitRouted visit.source s visit.target

end Successors

section Completion

def sizeGuard (output : Json) : Json :=
  if R.maxNodeOutputBytes.toNat < output.byteLength then
    .object [("__error", .bool true),
      ("error", .string ("Node output too large (" ++ output.byteLength.repr ++ " bytes > " ++
        R.maxNodeOutputBytes.toNat.repr ++
        " byte limit). Reduce the amount of data returned by this node."))]
  else output

def handleNodeSuccess (s : State) (finished : NodeIndex) (output : Json) : Except Halt State := do
  let output ← sanitizeNodeOutput (R.sizeGuard output)
  let s := R.clearChain (s.insert (R.nodeId finished) output) finished
  return s.release (.succeeds output) finished (R.graph.successors finished)

def scrubError (message : String) : String :=
  R.redactStr (match R.newExecutionSanitizer with
    | some sanitizer => sanitizer.redactError message
    | none => message)

def errorChildren (finished : NodeIndex) : List NodeIndex :=
  (R.graph.successors finished).filter fun child =>
    match R.graph.findEdge finished child with
    | some e => e.weight.isError
    | none => false

def routedEnvelope (finished : NodeIndex) (message : String) : Json :=
  .object [("__error", .bool true), ("error_message", .string message),
    ("failed_node", .string (R.labelOrId (R.nodeId finished)))]

def continuedEnvelope (message : String) : Json :=
  .object [("__continued", .bool true), ("__error", .bool true),
    ("error_message", .string message)]

def handleNodeFailure (s : State) (finished : NodeIndex) (message : String) :
    Except Halt State :=
  let message := R.scrubError message
  if R.errorChildren finished ≠ [] then
    let s := R.clearChain (s.insert (R.nodeId finished) (R.routedEnvelope finished message)) finished
    .ok (s.release .routes finished (R.graph.successors finished))
  else if R.continueOnError (R.nodeId finished) then
    .ok (R.unblockSuccessors (s.insert (R.nodeId finished) (continuedEnvelope message)) finished)
  else .error (.failed ("node '" ++ R.labelOrId (R.nodeId finished) ++ "' failed: " ++ message))

def handleCompletedFuture (s : State) (finished : NodeIndex) (result : Except String Json) :
    Except Halt State :=
  match result with
  | .ok output => R.handleNodeSuccess s finished output
  | .error message => R.handleNodeFailure s finished message

def insertAndUnblock (s : State) (idx : NodeIndex) (output : Json) : State :=
  R.unblockSuccessors (s.insert (R.nodeId idx) output) idx

def routeSystemNodeOutput (s : State) (idx : NodeIndex) (output : Json) : Except Halt State :=
  if isErrorOutput output then
    R.handleNodeFailure s idx (errorMessageOr output "system node rejected output")
  else .ok (R.insertAndUnblock s idx output)

end Completion

end Reactor

end TalosWorkflow
