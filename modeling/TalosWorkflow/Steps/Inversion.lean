import TalosWorkflow.Steps.Pops

/-!
# Inversion of a step
-/

namespace TalosWorkflow

namespace Reactor

variable {H : Host} {R : Reactor H} {s t : State}

inductive Returned (R : Reactor H) (s : State) (result : Except String Json) (ran : Nat) :
    Flight → State → Prop
  | single (idx : NodeIndex) (parents : List (Uuid × Json)) (mode : Completion) (value : Json)
      (hVerdict : R.resultVerdict idx result = some (mode, value)) :
      Returned R s result ran (.single idx parents)
        (R.conclude (s.log (.executed idx)) idx mode value)
  | chain (members : List NodeIndex) (parents : List (Uuid × Json)) (tail : NodeIndex)
      (mode : Completion) (value : Json) (hTail : members.getLast? = some tail)
      (hRan : ran ≤ members.length) (hOk : result.isOk → ran = members.length)
      (hVerdict : R.resultVerdict tail result = some (mode, value)) :
      Returned R s result ran (.chain members parents)
        (R.conclude (logExecuted s (members.take ran)) tail mode value)

theorem finishFlight_ok {flight : Flight} {result : Except String Json} {ran : Nat}
    (h : R.finishFlight s flight result ran = some (.ok t)) : Returned R s result ran flight t := by
  cases flight with
  | single idx parents =>
      simp only [finishFlight, Option.some.injEq] at h
      obtain ⟨mode, value, hVerdict, rfl⟩ := handleCompletedFuture_ok h
      exact .single idx parents mode value hVerdict
  | chain members parents =>
      simp only [finishFlight] at h
      split at h
      · rename_i tail hTail
        split at h
        · rename_i hRan
          simp only [Option.some.injEq] at h
          obtain ⟨mode, value, hVerdict, rfl⟩ := handleCompletedFuture_ok h
          exact .chain members parents tail mode value hTail hRan.1 hRan.2 hVerdict
        · cases h
      · cases h

/-- The state after a step that does not halt the run. -/
inductive Stepped (R : Reactor H) (s : State) : Action → State → Prop
  | visited (visit : Visit) (rest : List Visit) (t : State) (hVisits : s.visits = visit :: rest)
      (hVisit : Visited R { s with visits := rest } visit t) : Stepped R s .visit t
  | stored (idx : NodeIndex) (value : Json) (rest : List (NodeIndex × Json))
      (hVisits : s.visits = []) (hBatch : s.batch = (idx, value) :: rest) :
      Stepped R s .store
        (R.conclude ({ s with batch := rest }.log (.executed idx)) idx .unblocks value)
  | popped (idx : NodeIndex) (rest : List NodeIndex) (answer : Answer) (t : State)
      (hVisits : s.visits = []) (hBatch : s.batch = []) (hReady : s.ready = idx :: rest)
      (hPop : Popped R { s with ready := rest } idx answer t) : Stepped R s (.pop answer) t
  | finished (position : Nat) (result : Except String Json) (ran : Nat) (flight : Flight)
      (t : State) (hVisits : s.visits = []) (hBatch : s.batch = []) (hReady : s.ready = [])
      (hFlight : s.executing[position]? = some flight)
      (hReturn : Returned R { s with executing := s.executing.eraseIdx position } result ran
        flight t) : Stepped R s (.finish position result ran) t

theorem body_ok {action : Action} (h : R.body s action = some (.ok t)) : Stepped R s action t := by
  cases action with
  | visit =>
      simp only [body] at h
      split at h
      · rename_i visit rest hVisits
        simp only [Option.some.injEq] at h
        exact .visited visit rest t hVisits (makeVisit_ok h)
      · cases h
  | store =>
      simp only [body] at h
      split at h
      · rename_i idx value rest hVisits hBatch
        cases h
        exact .stored idx value rest hVisits hBatch
      · cases h
  | pop answer =>
      simp only [body] at h
      split at h
      · rename_i idx rest hVisits hBatch hReady
        exact .popped idx rest answer t hVisits hBatch hReady (dispatchNode_ok h)
      · cases h
  | finish position result ran =>
      simp only [body] at h
      split at h
      · rename_i flight hVisits hBatch hReady hFlight
        exact .finished position result ran flight t hVisits hBatch hReady hFlight
          (finishFlight_ok h)
      · cases h

theorem handleNodeFailure_error {idx : NodeIndex} {message : String} {e : Halt}
    (h : R.handleNodeFailure s idx message = .error e) :
    e = .charBoundary ∨ ∃ message, e = .failed message :=
  handleCompletedFuture_error
    (show R.handleCompletedFuture s idx (.error message) = .error e from h)

theorem dispatchKind_error {kind : Option SystemNodeKind} {idx : NodeIndex} {answer : Answer}
    {e : Halt} (h : R.dispatchKind s idx kind answer = some (.error e)) :
    e = .charBoundary ∨ ∃ message, e = .failed message := by
  unfold dispatchKind at h
  split at h
  all_goals first
    | cases h
    | exact absurd h dispatchSingle_ne_error
    | simp only [Option.some.injEq] at h
      exact handleNodeFailure_error h
    | simp only [Option.some.injEq, routeSystemNodeOutput] at h
      split at h
      · exact handleNodeFailure_error h
      · cases h
    | simp only [Option.some.injEq, storeOrFail] at h
      split at h
      · cases h
        exact .inr ⟨_, rfl⟩
      · cases h
    | simp only [Option.map_eq_some_iff] at h
      obtain ⟨_, _, hOk⟩ := h
      cases hOk
    | split at h
      · cases h
      · exact absurd h dispatchSingle_ne_error

theorem body_error {action : Action} {e : Halt} (h : R.body s action = some (.error e)) :
    (e = .charBoundary ∨ ∃ message, e = .failed message) ∨
      ∃ visit rest, s.visits = visit :: rest ∧
        R.makeVisit { s with visits := rest } visit = .error e := by
  cases action with
  | visit =>
      simp only [body] at h
      split at h
      · rename_i visit rest hVisits
        simp only [Option.some.injEq] at h
        exact .inr ⟨visit, rest, hVisits, h⟩
      · cases h
  | store =>
      simp only [body] at h
      split at h <;> cases h
  | pop answer =>
      simp only [body] at h
      split at h
      · simp only [dispatchNode] at h
        split at h
        · split at h <;> cases h
        · split at h
          · cases h
          · exact .inl (dispatchKind_error h)
      · cases h
  | finish position result ran =>
      simp only [body] at h
      split at h
      · rename_i flight hVisits hBatch hReady hFlight
        cases flight with
        | single idx parents =>
            simp only [finishFlight, Option.some.injEq] at h
            exact .inl (handleCompletedFuture_error h)
        | chain members parents =>
            simp only [finishFlight] at h
            split at h
            · split at h
              · simp only [Option.some.injEq] at h
                exact .inl (handleCompletedFuture_error h)
              · cases h
            · cases h
      · cases h

theorem step_cases {action : Action} (h : R.step s action = some t) :
    s.status = .running ∧
      (Stepped R s action t ∨ ∃ e, R.body s action = some (.error e) ∧ t = s.halt e) := by
  unfold step at h
  split at h
  · rename_i hRunning
    refine ⟨hRunning, ?_⟩
    rw [Option.map_eq_some_iff] at h
    obtain ⟨outcome, hBody, rfl⟩ := h
    cases outcome with
    | ok s' => exact .inl (body_ok hBody)
    | error e => exact .inr ⟨e, hBody, rfl⟩
  · cases h

end Reactor

end TalosWorkflow
