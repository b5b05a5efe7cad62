import TalosWorkflow.Exits.Context
import TalosWorkflow.Schedules.Completions

/-!
# How a run ends

A run ends when nothing is left to do, or with a node that has no verdict.
-/

namespace TalosWorkflow

open Multigraph

variable {H : Host} {R : Reactor H} {O : Outcomes} {hAcyclic : R.graph.Acyclic}
  {given cascaded : List NodeIndex} {s t : State} {action : Action} {answer : Answer} {idx n : NodeIndex}

section Definitions

/-- The run is over, and every node has completed but the one that has ended it. -/
def State.Settled (s : State) : Prop :=
  s.visits = [] ∧
    match s.status with
    | .running => s.work = []
    | .paused => s.work = []
    | .failed _ => s.work.length = 1
    | .panicked => s.work.length = 1

instance (s : State) : Decidable s.Settled := by
  unfold State.Settled
  cases s.status <;> infer_instance

variable (R : Reactor H) (O : Outcomes)

/-- What a node that is not completed leaves in the results. -/
def Reactor.waits (known : NodeIndex → Option Json) (n : NodeIndex) : Option Json :=
  R.pauseEnvelope n (R.kindOf (R.nodeId n)) (O.answer n (R.gathered known n))

/-- What the books say of the results and the executed nodes at the end of a run. -/
structure Books.Sums (b : Books) (t : State) : Prop where
  completed : ∀ n, ¬ (b.entered n ∧ n ∉ b.completed) → R.known t.results n = b.known n
  held : ∀ n, b.entered n → n ∉ b.completed → R.known t.results n = R.waits O b.known n
  executed : ∀ n, .executed n ∈ t.history ↔ b.entered n ∧
    O.skip n (R.gathered b.known n) = none ∧
      (n ∉ b.completed → (R.waits O b.known n).isSome = true)

end Definitions

section Holds

theorem handleCompletedFuture_error_verdict {result : Except String Json} {e : Halt}
    (h : R.handleCompletedFuture s idx result = .error e) : R.resultVerdict idx result = none := by
  cases result with
  | ok output =>
      simp only [Reactor.handleCompletedFuture, Reactor.handleNodeSuccess] at h
      cases hKept : sanitizeNodeOutput (R.sizeGuard output) with
      | error e' => rw [Reactor.resultVerdict, hKept]
      | ok kept =>
          rw [hKept] at h
          cases h
  | error message =>
      rw [Reactor.handleCompletedFuture, Reactor.handleNodeFailure_eq] at h
      rw [Reactor.resultVerdict]
      split at h
      · cases h
      · assumption

theorem handleNodeFailure_error_verdict {message : String} {e : Halt}
    (h : R.handleNodeFailure s idx message = .error e) : R.failureVerdict idx message = none :=
  handleCompletedFuture_error_verdict
    (show R.handleCompletedFuture s idx (.error message) = .error e from h)

theorem dispatchKind_error_verdict {kind : Option SystemNodeKind} {answer : Answer} {e : Halt}
    (h : R.dispatchKind s idx kind answer = some (.error e)) :
    R.handlerVerdict idx kind answer = none ∧ kind ≠ none ∧
      (∀ pattern, kind ≠ some (.errorHandler pattern)) ∧
        ∀ id timeout, kind ≠ some (.subWorkflow id timeout) := by
  unfold Reactor.dispatchKind at h
  split at h
  all_goals first
    | cases h
    | exact absurd h Reactor.dispatchSingle_ne_error
    | simp only [Option.some.injEq] at h
      exact ⟨handleNodeFailure_error_verdict h, by simp, by simp, by simp⟩
    | simp only [Option.some.injEq, Reactor.routeSystemNodeOutput] at h
      split at h
      · rename_i hError
        refine ⟨?_, by simp, by simp, by simp⟩
        simp only [Reactor.handlerVerdict, hError, if_true]
        exact handleNodeFailure_error_verdict h
      · cases h
    | simp only [Option.some.injEq, Reactor.storeOrFail] at h
      split at h
      · rename_i hFails
        exact ⟨by simp only [Reactor.handlerVerdict, hFails, if_true], by simp, by simp, by simp⟩
      · cases h
    | simp only [Option.map_eq_some_iff] at h
      obtain ⟨_, _, hOk⟩ := h
      cases hOk
    | split at h
      · cases h
      · exact absurd h Reactor.dispatchSingle_ne_error

/-- How a step ends a run, when every other node has completed. -/
structure Held (R : Reactor H) (O : Outcomes) (s t : State) (idx : NodeIndex) : Prop where
  idle : s.visits = []
  work : s.work = [idx]
  verdict : R.verdict O (R.known s.results) idx = none
  skip : O.skip idx (R.gathered (R.known s.results) idx) = none
  left : R.waits O (R.known s.results) idx = none ∧ t.results = s.results ∧
      t.history = s.history ∨
    ∃ waiting, R.waits O (R.known s.results) idx = some waiting ∧
      t.results = s.results.insert (R.nodeId idx) waiting ∧
        t.history = .executed idx :: .dispatched idx :: s.history

theorem verdict_of_handler {answer : Answer} (hModule : R.runsModule idx = false)
    (hNested : R.isSubWorkflowNode idx = false)
    (hSkip : O.skip idx (R.gathered (R.known s.results) idx) = none)
    (hAnswers : R.answers O s idx answer) :
    R.verdict O (R.known s.results) idx = R.handlerVerdict idx (R.kindOf (R.nodeId idx)) answer ∧
      R.waits O (R.known s.results) idx = R.pauseEnvelope idx (R.kindOf (R.nodeId idx)) answer := by
  obtain ⟨hAnswer, hRule⟩ := answers_of_handler hModule hNested hAnswers
  rw [verdict_of_answer hSkip, Reactor.waits, ← hAnswer]
  exact ⟨hRule, rfl⟩

theorem pauseEnvelope_plain {answer : Answer} {waiting : Json}
    (h : R.pauseEnvelope idx (R.kindOf (R.nodeId idx)) answer = some waiting) :
    R.runsModule idx = false ∧ R.isSubWorkflowNode idx = false ∧
      R.handlerVerdict idx (R.kindOf (R.nodeId idx)) answer = none := by
  unfold Reactor.runsModule Reactor.isSubWorkflowNode
  unfold Reactor.pauseEnvelope at h
  split at h
  · rename_i hKind
    rw [hKind]
    exact ⟨rfl, rfl, rfl⟩
  · rename_i hKind
    rw [hKind]
    exact ⟨rfl, rfl, rfl⟩
  · cases h

theorem pauseEnvelope_module {answer : Answer} (hModule : R.runsModule idx = true) :
    R.pauseEnvelope idx (R.kindOf (R.nodeId idx)) answer = none := by
  cases hEnvelope : R.pauseEnvelope idx (R.kindOf (R.nodeId idx)) answer with
  | none => rfl
  | some waiting =>
      rw [(pauseEnvelope_plain hEnvelope).1] at hModule
      cases hModule

theorem Concluding.status {base : State} {start : NodeIndex} {events : List Event}
    {mode : Completion} {value : Json}
    (h : Concluding R s action start idx base events mode value) : base.status = s.status := by
  cases h with
  | stored => rfl
  | popped => rfl
  | returned => rfl

theorem Relocating.status {events : List Event} (h : Relocating R s action t events) :
    t.status = s.status := by
  cases h with
  | launchedSingle => rfl
  | launchedChain => rfl
  | drained => rfl

theorem plain_of_kind (hSome : R.kindOf (R.nodeId idx) ≠ none)
    (hNotHandler : ∀ pattern, R.kindOf (R.nodeId idx) ≠ some (.errorHandler pattern))
    (hNotNested : ∀ id timeout, R.kindOf (R.nodeId idx) ≠ some (.subWorkflow id timeout)) :
    R.runsModule idx = false ∧ R.isSubWorkflowNode idx = false ∧
      R.skips s idx = R.checkSkipCondition idx s.results := by
  unfold Reactor.runsModule Reactor.isSubWorkflowNode Reactor.skips
  cases hKind : R.kindOf (R.nodeId idx) with
  | none => exact absurd hKind hSome
  | some kind =>
      cases kind with
      | errorHandler pattern => exact absurd hKind (hNotHandler pattern)
      | subWorkflow id timeout => exact absurd hKind (hNotNested id timeout)
      | _ =>
          refine ⟨rfl, rfl, ?_⟩
          cases R.checkSkipCondition idx s.results with
          | none => rfl
          | some output => rfl

theorem handledHead_eq_some {rest : List NodeIndex} (hReady : s.ready = idx :: rest)
    (h : R.handledHead s = some n) :
    n = idx ∧ R.chainOf idx = none ∧ R.checkSkipCondition idx s.results = none := by
  rw [Reactor.handledHead_eq hReady] at h
  split at h
  · rename_i hBoth
    exact ⟨(Option.some.inj h).symm, hBoth⟩
  · cases h

namespace Booked

theorem held_of_pause (hFollows : Follows R O s (.pop answer)) {rest : List NodeIndex}
    {waiting : Json} (hVisits : s.visits = []) (hReady : s.ready = idx :: rest)
    (hPlain : R.chainOf idx = none) (hSkips : R.skips s idx = none)
    (hEnvelope : R.pauseEnvelope idx (R.kindOf (R.nodeId idx)) answer = some waiting)
    (hSettled : (R.pauseAt { s with ready := rest } idx waiting).Settled) :
    Held R O s (R.pauseAt { s with ready := rest } idx waiting) idx := by
  obtain ⟨hModule, hNested, hNoVerdict⟩ := pauseEnvelope_plain hEnvelope
  have hSkip := hFollows.1 idx (mem_leaving hReady hPlain)
  rw [hSkips] at hSkip
  obtain ⟨hVerdict, hWaits⟩ := verdict_of_handler hModule hNested hSkip.symm
    (hFollows.2 idx (by rw [hReady]; rfl) hSkips)
  have hWork : s.batch.map (·.1) ++ (rest ++ s.executing.map Flight.start) = [] := hSettled.2
  rw [List.append_eq_nil_iff, List.append_eq_nil_iff] at hWork
  refine ⟨hVisits, ?_, hVerdict.trans hNoVerdict, hSkip.symm,
    .inr ⟨waiting, hWaits.trans hEnvelope, rfl, rfl⟩⟩
  rw [State.work, hWork.1, hReady, List.cons_append, hWork.2.1, hWork.2.2]
  rfl

theorem held_of_error (h : Booked R O hAcyclic given s cascaded) (hFollows : Follows R O s action)
    {e : Halt} (hBody : R.body s action = some (.error e)) (hVisits : s.visits = []) :
    (e = .charBoundary ∨ ∃ message, e = .failed message) ∧ ∃ idx ∈ s.work,
      R.verdict O (R.known s.results) idx = none ∧
        O.skip idx (R.gathered (R.known s.results) idx) = none ∧
          R.waits O (R.known s.results) idx = none := by
  have hHalt : e = .charBoundary ∨ ∃ message, e = .failed message := by
    refine (Reactor.body_error hBody).resolve_right ?_
    rintro ⟨visit, rest, hSome, -⟩
    rw [hVisits] at hSome
    cases hSome
  refine ⟨hHalt, ?_⟩
  cases action with
  | visit =>
      simp only [Reactor.body, hVisits] at hBody
      cases hBody
  | store =>
      simp only [Reactor.body] at hBody
      split at hBody <;> cases hBody
  | pop answer =>
      simp only [Reactor.body] at hBody
      split at hBody
      · rename_i idx rest _ hBatch hReady
        obtain ⟨-, u, hOk, -⟩ | ⟨hHead, hKind⟩ := Reactor.dispatchNode_cases hReady hBody
        · cases hOk
        · obtain ⟨-, hPlain, hCheck⟩ := handledHead_eq_some hReady hHead
          obtain ⟨hNoVerdict, hSome, hNotHandler, hNotNested⟩ := dispatchKind_error_verdict hKind
          obtain ⟨hModule, hNested, hSame⟩ := plain_of_kind (s := s) hSome hNotHandler hNotNested
          have hSkips := hSame.trans hCheck
          have hSkip := hFollows.1 idx (mem_leaving hReady hPlain)
          rw [hSkips] at hSkip
          obtain ⟨hVerdict, hWaits⟩ := verdict_of_handler hModule hNested hSkip.symm
            (hFollows.2 idx (by rw [hReady]; rfl) hSkips)
          refine ⟨idx, mem_work_of_ready (hReady ▸ List.mem_cons_self), hVerdict.trans hNoVerdict,
            hSkip.symm, hWaits.trans (Reactor.dispatchKind_pauseEnvelope_of_error hKind)⟩
      · cases hBody
  | finish position result ran =>
      simp only [Reactor.body] at hBody
      split at hBody
      · rename_i flight _ hBatch hReady hFlight
        obtain ⟨idx, rfl, hModule, hSkip⟩ := h.flights flight (List.mem_of_getElem? hFlight)
        have hReturns : Answer.ofResult result = _ := hFollows _ hFlight
        simp only [Reactor.finishFlight, Option.some.injEq] at hBody
        refine ⟨idx, mem_work_of_flight (List.mem_of_getElem? hFlight), ?_, hSkip,
          pauseEnvelope_module hModule⟩
        rw [verdict_of_answer hSkip, Reactor.gathered, ← hReturns, answerVerdict_ofResult hModule]
        exact handleCompletedFuture_error_verdict hBody
      · cases hBody

/-- A run that ends before its queues are empty ends with a node that has no verdict. -/
theorem held (hOrderly : Orderly R s) (h : Booked R O hAcyclic given s cascaded)
    (hFollows : Follows R O s action) (hStep : R.step s action = some t)
    (hOver : t.status ≠ .running) (hSettled : t.Settled) : ∃ idx, Held R O s t idx := by
  obtain ⟨hRunning, hStepped | ⟨e, hBody, rfl⟩⟩ := Reactor.step_cases hStep
  · cases hOrderly.moved hStepped with
    | visited visit rest _ hVisits hVisit =>
        exact absurd ((Reactor.visited_status hVisit).trans hRunning) hOver
    | concluded _ start idx base events mode value hConcluding =>
        refine absurd ?_ hOver
        rw [Reactor.conclude_status, hConcluding.status, hRunning]
    | relocated _ _ events hRelocating =>
        exact absurd (hRelocating.status.trans hRunning) hOver
    | paused idx rest answer waiting hVisits hBatch hReady hPlain hSkips =>
        obtain ⟨-, hNot⟩ | ⟨n, other, hPausing, -, hResults⟩ := Reactor.step_pausing hStep
        · exact absurd rfl hNot
        · rw [Reactor.pausing, Option.bind_eq_some_iff] at hPausing
          obtain ⟨m, hHead, hPausing⟩ := hPausing
          obtain ⟨rfl, -, -⟩ := handledHead_eq_some hReady hHead
          rw [Option.map_eq_some_iff] at hPausing
          obtain ⟨_, hEnvelope, hSame⟩ := hPausing
          cases hSame
          rw [Reactor.pauseAt_results] at hResults
          have hWaiting := congrArg (AList.lookup (R.nodeId n)) hResults
          rw [AList.lookup_insert, AList.lookup_insert] at hWaiting
          cases hWaiting
          exact ⟨n, held_of_pause hFollows hVisits hReady hPlain hSkips hEnvelope hSettled⟩
  · have hIdle : s.visits = [] := by
      have hVisits := hSettled.1
      cases e with
      | failed message => exact hVisits
      | counterUnderflow n => exact hVisits
      | charBoundary => exact hVisits
    obtain ⟨hHalt, idx, hIn, hVerdict, hSkip, hWaits⟩ := h.held_of_error hFollows hBody hIdle
    refine ⟨idx, hIdle, ?_, hVerdict, hSkip, .inl ⟨hWaits, ?_⟩⟩
    · have hLength : s.work.length = 1 := by
        obtain rfl | ⟨message, rfl⟩ := hHalt
        · exact hSettled.2
        · exact hSettled.2
      obtain ⟨n, hn⟩ := List.length_eq_one_iff.1 hLength
      rw [hn] at hIn ⊢
      rw [List.mem_singleton.1 hIn]
    · obtain rfl | ⟨message, rfl⟩ := hHalt
      · exact ⟨rfl, rfl⟩
      · exact ⟨rfl, rfl⟩

end Booked

end Holds

section Sums

theorem Held.executed_iff (hHeld : Held R O s t idx) : .executed n ∈ t.history ↔
    .executed n ∈ s.history ∨ n = idx ∧ (R.waits O (R.known s.results) idx).isSome = true := by
  obtain ⟨hWaits, -, hHistory⟩ | ⟨waiting, hWaits, -, hHistory⟩ := hHeld.left
  · simp [hWaits, hHistory]
  · simp [hWaits, hHistory, or_comm]

theorem Booked.executed_fresh (h : Booked R O hAcyclic [] s cascaded) :
    .executed n ∈ s.history ↔
      n ∈ completedNodes [] s ∧ O.skip n (R.gathered (R.known s.results) n) = none := by
  rw [h.executed, mem_completedNodes, or_iff_left List.not_mem_nil]

/-- The books of a fresh run sum up its results and its executed nodes when it is held. -/
theorem Held.sums (hIds : R.graph.nodes.Nodup) (h : Booked R O hAcyclic [] s cascaded)
    (hHeld : Held R O s t idx) : (R.booksOf [] cascaded s).Sums R O t := by
  have hOnly : ∀ n, (R.booksOf [] cascaded s).entered n → n ∉ (R.booksOf [] cascaded s).completed →
      n = idx := by
    intro n hEntered hNot
    have hIn := hEntered.resolve_right hNot
    rw [hHeld.work] at hIn
    exact List.mem_singleton.1 hIn
  have hIn : idx ∈ s.work := hHeld.work ▸ List.mem_singleton_self idx
  have hFresh := h.fresh idx hIn
  have hIdx : idx < R.graph.nodes.length := h.books.nodes idx (.inl hIn)
  have hNone : R.known s.results idx = none :=
    h.books.sound.value_eq_none (.inl hIn) hFresh
  refine ⟨fun n hn => ?_, fun n hEntered hNot => ?_, fun n => ?_⟩
  · obtain ⟨-, hResults, -⟩ | ⟨waiting, -, hResults, -⟩ := hHeld.left
    · rw [hResults]
      rfl
    · rw [hResults, known_insert hIds hIdx]
      refine Function.update_of_ne ?_ _ _
      rintro rfl
      exact hn ⟨.inl hIn, hFresh⟩
  · obtain rfl := hOnly n hEntered hNot
    obtain ⟨hWaits, hResults, -⟩ | ⟨waiting, hWaits, hResults, -⟩ := hHeld.left
    · rw [hResults]
      exact hNone.trans hWaits.symm
    · rw [hResults, known_insert hIds hIdx, Function.update_self]
      exact hWaits.symm
  · rw [hHeld.executed_iff, h.executed_fresh]
    obtain rfl | hne := eq_or_ne n idx
    · refine ⟨fun hEvent => ⟨.inl hIn, hHeld.skip, fun _ => ?_⟩, fun hAll =>
        .inr ⟨rfl, hAll.2.2 hFresh⟩⟩
      exact (hEvent.resolve_left fun hDone => hFresh hDone.1).2
    · constructor
      · rintro (⟨hDone, hSkip⟩ | ⟨hSame, -⟩)
        · exact ⟨.inr hDone, hSkip, fun hNot => absurd hDone hNot⟩
        · exact absurd hSame hne
      · rintro ⟨hEntered, hSkip, -⟩
        exact .inl ⟨by_contra fun hNot => hne (hOnly n hEntered hNot), hSkip⟩

theorem Booked.sums (h : Booked R O hAcyclic [] s cascaded) (hWork : s.work = []) :
    (R.booksOf [] cascaded s).Sums R O s := by
  have hDone : ∀ n, (R.booksOf [] cascaded s).entered n → n ∈ completedNodes [] s := by
    intro n hEntered
    refine hEntered.resolve_left fun hIn => ?_
    rw [hWork] at hIn
    cases hIn
  refine ⟨fun n _ => rfl, fun n hEntered hNot => absurd (hDone n hEntered) hNot, fun n => ?_⟩
  rw [h.executed_fresh]
  constructor
  · rintro ⟨hIn, hSkip⟩
    exact ⟨.inr hIn, hSkip, fun hNot => absurd hIn hNot⟩
  · rintro ⟨hEntered, hSkip, -⟩
    exact ⟨hDone n hEntered, hSkip⟩

end Sums

end TalosWorkflow
