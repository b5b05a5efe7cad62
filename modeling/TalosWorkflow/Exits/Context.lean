import TalosWorkflow.Gating.Results

/-!
# What a run returns

The context or the error that the loop hands to its caller, and the step in
which it does.
-/

namespace TalosWorkflow

open Multigraph

variable {H : Host}

structure WorkflowContext where
  results : Table Json
  waiting : Bool := false

section Tables

variable {α β : Type}

def mapValues (f : α → β) (table : Table α) : Table β :=
  ⟨table.entries.map fun entry => ⟨entry.1, f entry.2⟩, by
    rw [List.NodupKeys, List.keys, List.map_map]
    exact table.nodupKeys⟩

theorem lookup_mapValues (f : α → β) (table : Table α) (id : Uuid) :
    (mapValues f table).lookup id = (table.lookup id).map f :=
  List.dlookup_map₂ (f := fun _ : Uuid => f) id

end Tables

namespace Reactor

variable (R : Reactor H)

/-- Two passes: the secrets of the run, then the patterns. -/
def scrubOutput (output : Json) : Json :=
  R.redactJson (match R.newExecutionSanitizer with
    | some sanitizer => sanitizer.redactOutput output
    | none => output)

def returned (s : State) : Option (Except String WorkflowContext) :=
  match s.status with
  | .running =>
      if s.Quiescent then some (.ok { results := mapValues R.scrubOutput s.results }) else none
  | .paused => some (.ok { results := s.results, waiting := true })
  | .failed message => some (.error message)
  | .panicked => none

/-- The last iteration of the loop: it takes a step, or finds nothing left to do. -/
inductive Leaves (s : State) : Option Action → State → Prop
  | drained (h : s.Quiescent) : Leaves s none s
  | stepped {action : Action} {t : State} (h : R.step s action = some t) :
      Leaves s (some action) t

section Pauses

/-- The envelope with which a handler pauses the run. -/
def pauseEnvelope (idx : NodeIndex) : Option SystemNodeKind → Answer → Option Json
  | some (.wait message), _ => some (R.waitingOutput (R.nodeId idx) message)
  | some (.confidenceGate ..), .pause waiting => some waiting
  | _, _ => none

/-- The popped node, when it is neither part of a chain nor skipped. -/
def handledHead (s : State) : Option NodeIndex :=
  s.ready.head?.filter fun idx => R.chainOf idx = none ∧ R.checkSkipCondition idx s.results = none

/-- The node that pauses the run in a step, and its envelope. -/
def pausing (s : State) : Action → Option (NodeIndex × Json)
  | .pop answer => (R.handledHead s).bind fun idx =>
      (R.pauseEnvelope idx (R.kindOf (R.nodeId idx)) answer).map fun waiting => (idx, waiting)
  | _ => none

end Pauses

variable {R} {s t : State} {idx : NodeIndex}

theorem dispatchSingle_status {answer : Answer} (h : R.dispatchSingle s idx answer = some (.ok t)) :
    t.status = s.status := by
  cases answer with
  | refused =>
      simp only [dispatchSingle] at h
      split at h
      · split at h
        · cases h
          rfl
        · cases h
      · cases h
  | accepted =>
      cases h
      rfl
  | _ => cases h

theorem conclude_status (s : State) (idx : NodeIndex) (mode : Completion) (value : Json) :
    (R.conclude s idx mode value).status = s.status := by
  simp only [conclude, State.release_status]
  split <;> simp [clearChain_eq]

theorem dispatchKind_status {kind : Option SystemNodeKind} {answer : Answer}
    (h : R.dispatchKind s idx kind answer = some (.ok t)) :
    (R.pauseEnvelope idx kind answer = none ∧ t.status = s.status) ∨
      ∃ waiting, R.pauseEnvelope idx kind answer = some waiting ∧ t = R.pauseAt s idx waiting := by
  unfold dispatchKind at h
  split at h
  all_goals first
    | cases h
      exact .inr ⟨_, rfl, rfl⟩
    | cases h
      exact .inl ⟨rfl, rfl⟩
    | exact .inl ⟨rfl, dispatchSingle_status h⟩
    | simp only [Option.some.injEq] at h
      obtain ⟨mode, value, -, rfl⟩ := handleNodeFailure_ok h
      exact .inl ⟨rfl, conclude_status (handled s idx) idx mode value⟩
    | simp only [Option.some.injEq] at h
      obtain ⟨mode, value, -, rfl⟩ := routeSystemNodeOutput_ok h
      exact .inl ⟨rfl, conclude_status (handled s idx) idx mode value⟩
    | simp only [Option.some.injEq] at h
      obtain ⟨-, rfl⟩ := storeOrFail_ok h
      exact .inl ⟨rfl, conclude_status (handled s idx) idx .unblocks _⟩
    | simp only [drainSubWorkflows, Option.map_eq_some_iff] at h
      obtain ⟨_, hDrain, hOk⟩ := h
      split at hDrain
      · cases hDrain
        cases hOk
        exact .inl ⟨rfl, rfl⟩
      · cases hDrain
    | split at h
      · cases h
        exact .inl ⟨rfl, rfl⟩
      · exact .inl ⟨rfl, dispatchSingle_status h⟩
    | cases h

theorem dispatchKind_pauseEnvelope_of_error {kind : Option SystemNodeKind} {answer : Answer}
    {e : Halt} (h : R.dispatchKind s idx kind answer = some (.error e)) :
    R.pauseEnvelope idx kind answer = none := by
  unfold pauseEnvelope
  split
  · cases h
  · cases h
  · rfl

theorem handledHead_eq {rest : List NodeIndex} (hReady : s.ready = idx :: rest) :
    R.handledHead s =
      if R.chainOf idx = none ∧ R.checkSkipCondition idx s.results = none then some idx
      else none := by
  simp only [handledHead, hReady, List.head?_cons, Option.filter_some, decide_eq_true_eq]

/-- A popped node is handled, unless it is part of a chain or skipped. -/
theorem dispatchNode_cases {rest : List NodeIndex} {answer : Answer}
    {outcome : Except Halt State} (hReady : s.ready = idx :: rest)
    (h : R.dispatchNode { s with ready := rest } idx answer = some outcome) :
    (R.handledHead s = none ∧ ∃ t, outcome = .ok t ∧ t.status = s.status) ∨
      R.handledHead s = some idx ∧
        R.dispatchKind { s with ready := rest } idx (R.kindOf (R.nodeId idx)) answer =
          some outcome := by
  rw [handledHead_eq hReady]
  simp only [dispatchNode] at h
  split at h
  · rename_i members hChain
    rw [hChain]
    refine .inl ⟨by simp, ?_⟩
    split at h
    · cases h
      exact ⟨_, rfl, rfl⟩
    · cases h
      exact ⟨_, rfl, rfl⟩
  · rename_i hPlain
    rw [hPlain]
    split at h
    · rename_i output hSkip
      cases h
      exact .inl ⟨by simp [hSkip], _, rfl, rfl⟩
    · rename_i hNot
      exact .inr ⟨by simp [hNot], h⟩

theorem visited_status {visit : Visit} (h : Visited R s visit t) : t.status = s.status := by
  cases h with
  | cascaded => rw [cascadeSkip_eq]
  | _ => rfl

/-- A run is paused by the handler of a popped node only. -/
theorem step_pausing {action : Action} (hStep : R.step s action = some t) :
    (R.pausing s action = none ∧ t.status ≠ .paused) ∨
      ∃ idx waiting, R.pausing s action = some (idx, waiting) ∧ t.status = .paused ∧
        t.results = s.results.insert (R.nodeId idx) waiting := by
  obtain ⟨hRunning, -⟩ := step_cases hStep
  unfold step at hStep
  rw [if_pos hRunning, Option.map_eq_some_iff] at hStep
  obtain ⟨outcome, hBody, rfl⟩ := hStep
  have hHalted : ∀ e : Halt, (s.halt e).status ≠ .paused := by
    rintro (message | idx | _) <;> simp [State.halt]
  have hKept : ∀ u : State, u.status = s.status → u.status ≠ .paused := by
    intro u hStatus
    rw [hStatus, hRunning]
    simp
  cases action with
  | visit =>
      refine .inl ⟨rfl, ?_⟩
      simp only [body] at hBody
      split at hBody
      · rename_i visit rest hVisits
        simp only [Option.some.injEq] at hBody
        cases outcome with
        | ok u =>
            have hStatus := visited_status (makeVisit_ok hBody)
            exact hKept u hStatus
        | error e => exact hHalted e
      · cases hBody
  | store =>
      refine .inl ⟨rfl, ?_⟩
      simp only [body] at hBody
      split at hBody
      · cases hBody
        exact hKept _ rfl
      · cases hBody
  | pop answer =>
      simp only [body] at hBody
      split at hBody
      · rename_i idx rest hVisits hBatch hReady
        simp only [pausing]
        obtain ⟨hNone, u, rfl, hStatus⟩ | ⟨hHead, hKind⟩ := dispatchNode_cases hReady hBody
        · rw [hNone]
          exact .inl ⟨rfl, hKept u hStatus⟩
        · rw [hHead, Option.bind_some]
          cases outcome with
          | ok u =>
              obtain ⟨hNone, hStatus⟩ | ⟨waiting, hSome, rfl⟩ := dispatchKind_status hKind
              · rw [hNone]
                exact .inl ⟨rfl, hKept u hStatus⟩
              · rw [hSome]
                exact .inr ⟨idx, waiting, rfl, rfl, rfl⟩
          | error e =>
              refine .inl ⟨?_, hHalted e⟩
              rw [dispatchKind_pauseEnvelope_of_error hKind]
              rfl
      · cases hBody
  | finish position result ran =>
      refine .inl ⟨rfl, ?_⟩
      cases outcome with
      | ok u =>
          obtain ⟨flight, hReturn⟩ : ∃ flight, Returned R
              { s with executing := s.executing.eraseIdx position } result ran flight u := by
            cases body_ok hBody with
            | finished _ _ _ flight _ _ _ _ _ hReturn => exact ⟨flight, hReturn⟩
          refine hKept u ?_
          cases hReturn with
          | single => rw [conclude_status, State.log_status]
          | chain => rw [conclude_status, logExecuted_status]
      | error e => exact hHalted e

end Reactor

/-- A run, the last iteration of its loop, and what it returns. -/
structure ParallelWorkflowEngine.Returns (E : ParallelWorkflowEngine H) (executionId : Uuid)
    (initialResults : Table Json) (s : State) (last : Option Action) (t : State)
    (outcome : Except String WorkflowContext) : Prop where
  run : E.Runs executionId initialResults (fun _ _ _ => True) s
  leaves : (E.reactor executionId initialResults).Leaves s last t
  returned : (E.reactor executionId initialResults).returned t = some outcome

theorem ParallelWorkflowEngine.Returns.of_replay {E : ParallelWorkflowEngine H}
    {executionId : Uuid} {initialResults : Table Json} (first : List Action) (action : Action)
    {t : State} {outcome : Except String WorkflowContext} (hAcyclic : E.graph.Acyclic)
    (hFirst : (replay (E.reactor executionId initialResults).step (fun _ _ => True) first
      ((E.reactor executionId initialResults).initialState initialResults)).isSome)
    (hReplay : replay (E.reactor executionId initialResults).step (fun _ _ => True)
      (first ++ [action]) ((E.reactor executionId initialResults).initialState initialResults) =
        some t)
    (hReturned : (E.reactor executionId initialResults).returned t = some outcome) :
    ∃ s, E.Returns executionId initialResults s (some action) t outcome := by
  obtain ⟨s, hs⟩ := Option.isSome_iff_exists.1 hFirst
  rw [replay_snoc hs trivial] at hReplay
  exact ⟨s, ⟨hAcyclic, replay_run hs⟩, .stepped hReplay, hReturned⟩

/-- A replayed run that ends without anything left returns its scrubbed results. -/
theorem returns_of_replay {E : ParallelWorkflowEngine H} {executionId : Uuid}
    {initialResults : Table Json} {context : WorkflowContext} (actions : List Action)
    (hAcyclic : E.graph.Acyclic) (hWaiting : context.waiting = false)
    (hReplay : (replay (E.reactor executionId initialResults).step (fun _ _ => True) actions
      ((E.reactor executionId initialResults).initialState initialResults)).map (fun s =>
        (decide s.Quiescent,
          (mapValues (E.reactor executionId initialResults).scrubOutput s.results).entries)) =
      some (true, context.results.entries)) :
    ∃ executionId initialResults s last t,
      E.Returns executionId initialResults s last t (.ok context) := by
  obtain ⟨s, hs, hObserved⟩ := Option.map_eq_some_iff.1 hReplay
  obtain ⟨hDecided, hEntries⟩ := Prod.mk.inj hObserved
  have hQuiescent := of_decide_eq_true hDecided
  have hResults : mapValues (E.reactor executionId initialResults).scrubOutput s.results =
      context.results := AList.ext hEntries
  refine ⟨executionId, initialResults, s, none, s, ⟨hAcyclic, replay_run hs⟩, .drained hQuiescent,
    ?_⟩
  rw [Reactor.returned, hQuiescent.1]
  dsimp only
  rw [if_pos hQuiescent, hResults, ← hWaiting]

end TalosWorkflow
