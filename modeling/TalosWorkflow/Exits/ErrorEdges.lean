import TalosWorkflow.Exits.Rejections

/-!
# Error edges

The failures that the scheduler loop handles without a look at the edges of
the failed node, and what they release.
-/

namespace TalosWorkflow

open Multigraph

variable {H : Host}

section Definitions

/-- An edge into the node has been counted, or the node has been queued. -/
structure State.Advances (s t : State) (n : NodeIndex) : Prop where
  pending : t.pending n ≤ s.pending n
  ready : s.ready.count n ≤ t.ready.count n
  strict : t.pending n < s.pending n ∨ s.ready.count n < t.ready.count n

structure State.Rests (s t : State) (n : NodeIndex) : Prop where
  pending : t.pending n = s.pending n
  ready : t.ready.count n = s.ready.count n

namespace Reactor

variable (R : Reactor H)

/-- All visits to the successors of a completed node are made. -/
structure Settles (s t : State) : Prop where
  visited : Run R.step (fun _ action => action = .visit) s t
  visits : t.visits = []
  running : t.status = .running

/-- The run goes on, the failed node releases the targets of its error edges, and its default
successors stay as they are. -/
def HonoursErrorEdges (s : State) (action : Action) (idx : NodeIndex) : Prop :=
  ∃ t u, R.step s action = some t ∧ R.Settles t u ∧
    (∀ x, R.hasErrorEdge idx x = true → s.Advances u x) ∧
      ∀ x, R.DefaultSuccessor idx x → s.Rests u x

/-- The popped node is completed as a failure by the loop itself, and it has an error edge. -/
def FailsInLoop (s : State) (idx : NodeIndex) (answer : Answer) : Prop :=
  s.status = .running ∧ s.visits = [] ∧ s.batch = [] ∧ R.handledHead s = some idx ∧
    (∃ x, R.hasErrorEdge idx x = true) ∧
      match R.kindOf (R.nodeId idx), answer with
      | some (.agentLoop ..), .output v
      | some (.reActLoop ..), .output v
      | some (.capabilityDispatch ..), .output v
      | some (.loop ..), .output v => isErrorOutput v = true
      | none, .refused =>
          ∃ limit, R.rateLimits.lookup (R.resolveModuleId (R.nodeId idx)) = some limit ∧ 0 < limit
      | _, _ => False

/-- An error output of the node ends the run, whatever its edges are. -/
def stopsOnError (idx : NodeIndex) : Bool :=
  match R.kindOf (R.nodeId idx) with
  | some (.capabilityDispatch ..)
  | some (.loop ..) => !R.continueOnError (R.nodeId idx)
  | _ => false

/-- The run ends, or the output is stored and all successors are visited. -/
def EndsOrStores (s : State) (idx : NodeIndex) (stops : Bool) (outcome : Except Halt State) : Prop :=
  (stops = true ∧ ∃ m, outcome = .error (.failed m)) ∨
    stops = false ∧ ∃ base value, outcome = .ok (R.conclude base idx .unblocks value) ∧
      base.status = .running ∧ base.pending = s.pending ∧ base.ready = s.ready

def Reached (made : List Visit) (n : NodeIndex) : Prop :=
  ∃ visit ∈ made, visit.target = n ∧ R.marks visit = false

end Reactor

end Definitions

namespace State

/-- The node advances exactly if an edge into it is counted. -/
structure Follows (s t : State) (n : NodeIndex) (counted : Prop) : Prop where
  advances : counted → s.Advances t n
  rests : ¬ counted → s.Rests t n

variable {s t u : State} {n : NodeIndex} {counted counted' : Prop}

theorem Rests.trans (h : s.Rests t n) (h' : t.Rests u n) : s.Rests u n :=
  ⟨h'.pending.trans h.pending, h'.ready.trans h.ready⟩

theorem Rests.trans_advances (h : s.Rests t n) (h' : t.Advances u n) : s.Advances u n := by
  obtain ⟨hPending, hReady⟩ := h
  obtain ⟨hLess, hMore, hStrict⟩ := h'
  constructor <;> omega

theorem Advances.trans_rests (h : s.Advances t n) (h' : t.Rests u n) : s.Advances u n := by
  obtain ⟨hLess, hMore, hStrict⟩ := h
  obtain ⟨hPending, hReady⟩ := h'
  constructor <;> omega

theorem Advances.trans (h : s.Advances t n) (h' : t.Advances u n) : s.Advances u n := by
  obtain ⟨hLess, hMore, hStrict⟩ := h
  obtain ⟨hLess', hMore', hStrict'⟩ := h'
  constructor <;> omega

theorem Advances.not_rests (h : s.Advances t n) : ¬ s.Rests t n := by
  rintro ⟨hPending, hReady⟩
  have hStrict := h.strict
  omega

theorem Follows.refl (s : State) (n : NodeIndex) : s.Follows s n False :=
  ⟨False.elim, fun _ => ⟨rfl, rfl⟩⟩

theorem Follows.trans (h : s.Follows t n counted) (h' : t.Follows u n counted') :
    s.Follows u n (counted ∨ counted') := by
  constructor
  · intro hCounted
    by_cases hFirst : counted
    · by_cases hSecond : counted'
      · exact (h.advances hFirst).trans (h'.advances hSecond)
      · exact (h.advances hFirst).trans_rests (h'.rests hSecond)
    · exact (h.rests hFirst).trans_advances (h'.advances (hCounted.resolve_left hFirst))
  · intro hNot
    rw [not_or] at hNot
    exact (h.rests hNot.1).trans (h'.rests hNot.2)

theorem Follows.pending_le (h : s.Follows t n counted) : t.pending n ≤ s.pending n := by
  by_cases hCounted : counted
  · exact (h.advances hCounted).pending
  · exact (h.rests hCounted).pending.le

end State

namespace Reactor

variable {R : Reactor H} {s t u : State} {visit : Visit} {rest made : List Visit}
  {idx n : NodeIndex}

section Visits

theorem reached_snoc : R.Reached (made ++ [visit]) n ↔
    R.Reached made n ∨ n = visit.target ∧ R.marks visit = false := by
  constructor
  · rintro ⟨other, hOther, rfl, hMarks⟩
    obtain hMade | hLast := List.mem_append.1 hOther
    · exact .inl ⟨other, hMade, rfl, hMarks⟩
    · obtain rfl := List.mem_singleton.1 hLast
      exact .inr ⟨rfl, hMarks⟩
  · rintro (⟨other, hMade, hTarget⟩ | ⟨rfl, hMarks⟩)
    · exact ⟨other, List.mem_append_left _ hMade, hTarget⟩
    · exact ⟨visit, List.mem_append_right _ (List.mem_singleton_self visit), rfl, hMarks⟩

theorem visited_follows (hMode : ∀ output, visit.mode ≠ .succeeds output)
    (h : Visited R { s with visits := rest } visit t) (n : NodeIndex) :
    s.Follows t n (n = visit.target ∧ R.marks visit = false) := by
  cases h with
  | marked hMarks =>
      rw [hMarks]
      exact ⟨fun hCounted => (by cases hCounted.2), fun _ => ⟨rfl, rfl⟩⟩
  | counted hMarks hPending =>
      constructor
      · rintro ⟨rfl, -⟩
        refine ⟨?_, Nat.le_refl _, .inl ?_⟩
        · rw [State.setPending_pending_self]
          exact Nat.sub_le _ _
        · rw [State.setPending_pending_self]
          exact Nat.sub_lt (Nat.zero_lt_of_lt hPending) Nat.one_pos
      · intro hNot
        have hOther : n ≠ visit.target := fun hSame => hNot ⟨hSame, hMarks⟩
        exact ⟨State.setPending_pending_ne _ _ hOther, rfl⟩
  | enqueued events hMarks =>
      constructor
      · rintro ⟨rfl, -⟩
        refine ⟨?_, ?_, .inr ?_⟩
        · rw [State.enqueue_pending, State.setPending_pending_self]
          exact Nat.zero_le _
        · simp
        · simp
      · intro hNot
        have hOther : n ≠ visit.target := fun hSame => hNot ⟨hSame, hMarks⟩
        refine ⟨State.setPending_pending_ne _ _ hOther, ?_⟩
        simp [hOther.symm]
  | cascaded events output _ _ hSucceeds => exact absurd hSucceeds (hMode output)
  | wrapped output _ _ hSucceeds => exact absurd hSucceeds (hMode output)

/-- The nodes that the visits made so far have reached have advanced, and no others. -/
theorem visits_follow (hModes : ∀ visit ∈ s.visits, ∀ output, visit.mode ≠ .succeeds output)
    (hRun : Run R.step (fun _ action => action = .visit) s t) (hRunning : t.status = .running) :
    ∃ made, s.visits = made ++ t.visits ∧ ∀ n, s.Follows t n (R.Reached made n) := by
  induction hRun with
  | refl =>
      refine ⟨[], rfl, fun n => ?_⟩
      have hNone : R.Reached [] n ↔ False := iff_false_intro fun ⟨_, hVisit, _⟩ => by cases hVisit
      rw [hNone]
      exact .refl s n
  | tail _ hLast ih =>
      obtain ⟨action, rfl, hStep⟩ := hLast
      obtain ⟨hBefore, hStepped | ⟨e, -, rfl⟩⟩ := step_cases hStep
      · obtain ⟨made, hMade, hSoFar⟩ := ih hBefore
        cases hStepped with
        | visited visit rest _ hVisits hVisit =>
            obtain ⟨hRest, -⟩ := visited_rest hVisit
            have hMode := hModes visit (by rw [hMade, hVisits]; simp)
            refine ⟨made ++ [visit], ?_, fun n => ?_⟩
            · rw [hMade, hVisits, hRest, List.append_assoc]
              rfl
            · rw [reached_snoc]
              exact (hSoFar n).trans (visited_follows hMode hVisit n)
      · cases e <;> cases hRunning

/-- Visits that do not come from a success can all be made, as long as the counters are within
their bounds. -/
theorem exists_settles (hRunning : s.status = .running)
    (hModes : ∀ visit ∈ s.visits, visit.mode = .unblocks ∨
      visit.mode = .routes ∧ s.pending visit.target ≤ R.graph.inDegree visit.target) :
    ∃ t, R.Settles s t := by
  induction hVisits : s.visits generalizing s with
  | nil => exact ⟨s, .refl, hVisits, hRunning⟩
  | cons visit rest ih =>
      rw [hVisits] at hModes
      have hFirst := hModes visit List.mem_cons_self
      have hMade : ∃ t, R.makeVisit { s with visits := rest } visit = .ok t := by
        cases hOutcome : R.makeVisit { s with visits := rest } visit with
        | ok t => exact ⟨t, rfl⟩
        | error e =>
            obtain hMode | ⟨hMode, hBound⟩ := hFirst
            · rw [makeVisit, hMode] at hOutcome
              cases hOutcome
            · rw [makeVisit, hMode] at hOutcome
              exact absurd hOutcome (visitRouted_ne_error (s := { s with visits := rest }) hBound e)
      obtain ⟨t, hMade⟩ := hMade
      have hVisit := makeVisit_ok hMade
      have hStep : R.step s .visit = some t := by
        rw [Reactor.step, if_pos hRunning, body, hVisits]
        dsimp only
        rw [hMade]
        rfl
      have hMode : ∀ output, visit.mode ≠ .succeeds output := by
        rintro output hSucceeds
        rw [hSucceeds] at hFirst
        obtain hMode | ⟨hMode, -⟩ := hFirst
        · cases hMode
        · cases hMode
      have hNext : ∀ other ∈ t.visits, other.mode = .unblocks ∨
          other.mode = .routes ∧ t.pending other.target ≤ R.graph.inDegree other.target := by
        intro other hOther
        rw [(visited_rest hVisit).1] at hOther
        refine (hModes other (List.mem_cons_of_mem _ hOther)).imp_right fun hRouted => ?_
        exact ⟨hRouted.1, (visited_follows hMode hVisit other.target).pending_le.trans hRouted.2⟩
      obtain ⟨u, hSettles⟩ :=
        ih ((visited_status hVisit).trans hRunning) hNext (visited_rest hVisit).1
      exact ⟨u, .head ⟨.visit, rfl, hStep⟩ hSettles.visited, hSettles.visits, hSettles.running⟩

end Visits

section Failures

variable {base : State} {mode : Completion} {value : Json} {action : Action} {answer : Answer}

theorem arc_of_hasErrorEdge {a b : NodeIndex} (h : R.hasErrorEdge a b = true) :
    R.graph.Arc a b := by
  obtain ⟨e, hEdge, -⟩ := List.any_eq_true.1 h
  obtain ⟨hMem, hSource, hTarget⟩ := (mem_edgesConnecting _).1 hEdge
  exact ⟨e, hMem, hSource, hTarget⟩

theorem reached_successors : R.Reached ((R.graph.successors idx).map fun x => ⟨mode, idx, x⟩) n ↔
    R.graph.Arc idx n ∧ R.marks ⟨mode, idx, n⟩ = false := by
  constructor
  · rintro ⟨visit, hVisit, rfl, hMarks⟩
    obtain ⟨x, hx, rfl⟩ := List.mem_map.1 hVisit
    exact ⟨(mem_successors _).1 hx, hMarks⟩
  · rintro ⟨hArc, hMarks⟩
    exact ⟨_, List.mem_map.2 ⟨n, (mem_successors _).2 hArc, rfl⟩, rfl, hMarks⟩

theorem conclude_pending_plain (hPlain : R.chainOf idx = none) (n : NodeIndex) :
    (R.conclude base idx mode value).pending n = base.pending n := by
  obtain hSame | ⟨hChain, -⟩ := conclude_pending base idx mode value n
  · exact hSame
  · rw [hPlain] at hChain
    cases hChain

/-- A completion by the loop honours the error edges exactly if its visits pass the other edges
over. -/
theorem honoursErrorEdges_iff (hAcyclic : R.graph.Acyclic) (hPlain : R.chainOf idx = none)
    (hMode : ∀ output, mode ≠ .succeeds output)
    (hStep : R.step s action = some (R.conclude base idx mode value))
    (hPending : base.pending = s.pending)
    (hReady : ∀ n, n ≠ idx → base.ready.count n = s.ready.count n)
    (hSettles : ∃ u, R.Settles (R.conclude base idx mode value) u) :
    R.HonoursErrorEdges s action idx ↔
      ∀ x, R.graph.Arc idx x → R.marks ⟨mode, idx, x⟩ = !R.hasErrorEdge idx x := by
  have hFollows : ∀ u, R.Settles (R.conclude base idx mode value) u → ∀ x, R.graph.Arc idx x →
      s.Follows u x (R.marks ⟨mode, idx, x⟩ = false) := by
    intro u hDone x hArc
    have hModes : ∀ visit ∈ (R.conclude base idx mode value).visits, ∀ output,
        visit.mode ≠ .succeeds output := by
      intro visit hVisit output
      rw [conclude_visits, List.mem_map] at hVisit
      obtain ⟨child, -, rfl⟩ := hVisit
      exact hMode output
    obtain ⟨made, hMade, hReached⟩ := visits_follow hModes hDone.visited hDone.running
    rw [hDone.visits, List.append_nil, conclude_visits] at hMade
    have hBefore : s.Rests (R.conclude base idx mode value) x := by
      constructor
      · rw [conclude_pending_plain hPlain, hPending]
      · rw [conclude_ready]
        refine hReady x ?_
        rintro rfl
        exact hAcyclic _ (.single hArc)
    have hAfter := hReached x
    rw [← hMade, reached_successors, and_iff_right hArc] at hAfter
    exact ⟨fun hMarks => hBefore.trans_advances (hAfter.advances hMarks),
      fun hMarks => hBefore.trans (hAfter.rests hMarks)⟩
  constructor
  · rintro ⟨t, u, hTaken, hDone, hReleased, hWithheld⟩ x hArc
    rw [hStep] at hTaken
    cases hTaken
    have hx := hFollows u hDone x hArc
    cases hError : R.hasErrorEdge idx x with
    | true =>
        by_contra hMarks
        exact (hReleased x hError).not_rests (hx.rests (by simpa using hMarks))
    | false =>
        by_contra hMarks
        exact (hx.advances (by simpa using hMarks)).not_rests (hWithheld x ⟨hArc, hError⟩)
  · intro hMarks
    obtain ⟨u, hDone⟩ := hSettles
    refine ⟨_, u, hStep, hDone, fun x hError => ?_, fun x hDefault => ?_⟩
    · have hArc := arc_of_hasErrorEdge hError
      refine (hFollows u hDone x hArc).advances ?_
      rw [hMarks x hArc, hError]
      rfl
    · refine (hFollows u hDone x hDefault.1).rests ?_
      rw [hMarks x hDefault.1, hDefault.2]
      exact Bool.true_eq_false_eq_False.elim

theorem storeOrFail_error {label fallback : String} {output : Json} (hRunning : s.status = .running)
    (hError : isErrorOutput output = true) :
    R.EndsOrStores s idx (!R.continueOnError (R.nodeId idx))
      (R.storeOrFail s idx label fallback output) := by
  rw [storeOrFail, hError]
  cases R.continueOnError (R.nodeId idx) with
  | true => exact .inr ⟨rfl, s, output, rfl, hRunning, rfl, rfl⟩
  | false => exact .inl ⟨rfl, _, rfl⟩

theorem FailsInLoop.dispatchKind (h : R.FailsInLoop s idx answer) (base : State)
    (hRunning : base.status = .running) :
    ∃ outcome, R.dispatchKind base idx (R.kindOf (R.nodeId idx)) answer = some outcome ∧
      R.EndsOrStores base idx (R.stopsOnError idx) outcome := by
  obtain ⟨-, -, -, -, -, hReport⟩ := h
  rw [stopsOnError]
  generalize R.kindOf (R.nodeId idx) = kind at hReport
  split at hReport
  · exact ⟨_, rfl, .inr ⟨rfl, handled base idx, _, rfl, hRunning, rfl, rfl⟩⟩
  · exact ⟨_, rfl, .inr ⟨rfl, handled base idx, _, rfl, hRunning, rfl, rfl⟩⟩
  · exact ⟨_, rfl, storeOrFail_error (s := handled base idx) hRunning hReport⟩
  · exact ⟨_, rfl, storeOrFail_error (s := handled base idx) hRunning hReport⟩
  · obtain ⟨limit, hLimit, hPos⟩ := hReport
    refine ⟨_, ?_, .inr ⟨rfl, base, rateLimitExceeded limit, rfl, hRunning, rfl, rfl⟩⟩
    rw [Reactor.dispatchKind, dispatchSingle, hLimit]
    exact if_pos hPos
  · cases hReport

/-- Such a failure ends the run, or it is stored like any other output. -/
theorem FailsInLoop.step (h : R.FailsInLoop s idx answer) :
    (R.stopsOnError idx = true ∧ ∃ m, R.step s (.pop answer) = some (s.halt (.failed m))) ∨
      R.stopsOnError idx = false ∧ ∃ base value,
        R.step s (.pop answer) = some (R.conclude base idx .unblocks value) ∧
          base.status = .running ∧ base.pending = s.pending ∧ base.ready = s.ready.tail := by
  have hKind := h.dispatchKind
  obtain ⟨hRunning, hVisits, hBatch, hHead, -⟩ := h
  obtain ⟨first, hGoes, hPending, hTail, hOk, hFailed⟩ :=
    step_handledHead hRunning hVisits hBatch hHead answer
  obtain ⟨outcome, hOutcome, hEnds | hStores⟩ := hKind first hGoes
  · obtain ⟨hStops, m, rfl⟩ := hEnds
    exact .inl ⟨hStops, m, hFailed _ hOutcome⟩
  · obtain ⟨hContinues, base, value, rfl, hNext, hSame, hReady⟩ := hStores
    exact .inr ⟨hContinues, base, value, hOk _ hOutcome, hNext, hSame.trans hPending,
      hReady.trans hTail⟩

theorem failed_module_honoursErrorEdges (hAcyclic : R.graph.Acyclic)
    (hPlain : R.chainOf idx = none) (hRoutes : R.errorChildren idx ≠ [])
    (hBound : ∀ x, s.pending x ≤ R.graph.inDegree x) (hRunning : s.status = .running)
    (hVisits : s.visits = []) (hBatch : s.batch = []) (hReady : s.ready = []) {position ran : Nat}
    {parents : List (Uuid × Json)} (hFlight : s.executing[position]? = some (.single idx parents))
    (message : String) :
    R.HonoursErrorEdges s (.finish position (.error message) ran) idx := by
  let base : State :=
    { s with
      visits := []
      batch := []
      ready := []
      executing := s.executing.eraseIdx position
      history := .executed idx :: s.history }
  have hStep : R.step s (.finish position (.error message) ran) =
      some (R.conclude base idx .routes (R.routedEnvelope idx (R.scrubError message))) := by
    rw [Reactor.step, if_pos hRunning, body, hVisits, hBatch, hReady, hFlight]
    dsimp only
    rw [finishFlight, handleCompletedFuture, handleNodeFailure_eq, failureVerdict, if_pos hRoutes]
    rfl
  have hSettles : ∃ u, R.Settles (R.conclude base idx .routes
      (R.routedEnvelope idx (R.scrubError message))) u := by
    refine exists_settles ?_ fun visit hVisit => ?_
    · rw [conclude_status]
      exact hRunning
    · rw [conclude_visits, List.mem_map] at hVisit
      obtain ⟨x, -, rfl⟩ := hVisit
      refine .inr ⟨rfl, ?_⟩
      rw [conclude_pending_plain hPlain]
      exact hBound x
  refine (honoursErrorEdges_iff hAcyclic hPlain (fun _ h => by cases h) hStep rfl
    (fun n _ => by rw [hReady]) hSettles).2 fun x _ => rfl

end Failures

end Reactor

section Runs

variable {E : ParallelWorkflowEngine H} {executionId : Uuid} {initialResults : Table Json}

end Runs

section Samples

end Samples

end TalosWorkflow
