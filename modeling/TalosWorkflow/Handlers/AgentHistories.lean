import Mathlib.Data.List.DropRight
import TalosWorkflow.Handlers.AgentLoops

/-!
# Histories of agent loops

Each iteration of an agent loop is handed the outputs of the ones before it, of
which a window keeps the last. The window slides when it is full, and the
iterations are counted beside it.
-/

namespace TalosWorkflow

open ParallelWorkflowEngine

namespace ParallelWorkflowEngine

variable {H : Host} (E : ParallelWorkflowEngine H) (N : Nesting H) (graphJson inputs : Json)
  (injectHistory : Bool)

def bodyInputs : Nat → AgentState H → List Json
  | 0, _ => []
  | remaining + 1, st =>
      let next := E.agentStep N graphJson inputs injectHistory st
      E.agentInput inputs (st.iterationsRun + 1) injectHistory st.history ::
        if next.finished then [] else bodyInputs remaining next

/-- The last outputs of an agent loop, as many as its engine keeps. -/
def keptHistory (outputs : List Json) : List Json := outputs.rtake E.agentLoopMaxHistory.toNat

/-- What an iteration is given of the outputs before it. -/
def historyField (outputs : List Json) : Option Json :=
  if min outputs.length E.agentLoopMaxHistory.toNat = 0 then none
  else some (.array (outputs.rtake (min outputs.length E.agentLoopMaxHistory.toNat)))

section Window

variable {E}

theorem rtake_min_length {α : Type*} (l : List α) (n : Nat) :
    l.rtake (min l.length n) = l.rtake n := by
  rw [List.rtake, List.rtake]
  congr 1
  omega

theorem keptHistory_eq_nil_iff {outputs : List Json} :
    E.keptHistory outputs = [] ↔ min outputs.length E.agentLoopMaxHistory.toNat = 0 := by
  rw [keptHistory, List.rtake, List.drop_eq_nil_iff]
  omega

/-- The window over the outputs so far slides on to the next one. -/
theorem pushHistory_kept (outputs : List Json) (output : Json) :
    E.pushHistory (E.keptHistory outputs) output = E.keptHistory (outputs ++ [output]) := by
  have hLength : (E.keptHistory outputs).length =
      outputs.length - (outputs.length - E.agentLoopMaxHistory.toNat) := List.length_drop
  rw [pushHistory, hLength]
  split
  · rename_i hNone
    rw [keptHistory, keptHistory, hNone, List.rtake_zero, List.rtake_zero]
  · rename_i hSome
    split
    · rename_i hFull
      rw [keptHistory, keptHistory, List.rtake, List.rtake, List.drop_drop,
        List.length_append, List.length_singleton, ← List.drop_append_of_le_length (by omega)]
      congr 1
      omega
    · rename_i hRoom
      rw [keptHistory, keptHistory, List.rtake, List.rtake, List.length_append,
        List.length_singleton, Nat.sub_eq_zero_of_le (by omega), Nat.sub_eq_zero_of_le (by omega),
        List.drop_zero, List.drop_zero]

theorem agentInput_history (iteration : Nat) (outputs : List Json) :
    (E.agentInput inputs iteration true (E.keptHistory outputs)).get "__agent_history__" =
      E.historyField outputs := by
  have hInputs : (objectFields (stripReserved inputs)).lookup "__agent_history__" = none := by
    cases inputs with
    | object fields => exact lookup_filter_reserved (by decide) fields
    | null | bool | number | string | array => rfl
  have hPlain : (Json.insertField "__agent_iteration__" (.ofCount iteration)
      (objectFields (stripReserved inputs))).lookup "__agent_history__" = none := by
    rw [Json.lookup_insertField_ne (by decide), hInputs]
  rw [agentInput, Bool.true_and, historyField]
  by_cases hEmpty : E.keptHistory outputs = []
  · rw [if_pos (keptHistory_eq_nil_iff.1 hEmpty), hEmpty, List.isEmpty_nil, Bool.not_true,
      Bool.and_false, if_neg Bool.false_ne_true]
    exact hPlain
  · have hSome := mt keptHistory_eq_nil_iff.2 hEmpty
    have hCap : 0 < E.agentLoopMaxHistory.toNat := by omega
    rw [if_neg hSome, rtake_min_length, List.isEmpty_eq_false_iff.2 hEmpty, decide_eq_true hCap]
    exact Json.lookup_insertField_self _ _ _

end Window

section Runs

variable {E N graphJson inputs injectHistory}

/-- The state between two iterations holds the window over the outputs so far. -/
def Holds (E : ParallelWorkflowEngine H) (prior : List Json) (st : AgentState H) : Prop :=
  st.history = E.keptHistory prior ∧ st.iterationsRun = prior.length

/-- The iterations after some earlier ones, with the inputs and outcomes of their body runs. -/
structure Slides (E : ParallelWorkflowEngine H) (N : Nesting H) (graphJson : Json)
    (injectHistory : Bool) (prior : List Json) (given : List Json) (outcomes : List (Outcome H))
    (final : AgentState H) : Prop where
  length : given.length = outcomes.length
  ran : ∀ (j : Nat) (input : Json), given[j]? = some input →
    outcomes[j]? = some (N.runGraph (prior.length + j + 1) graphJson input)
  given : injectHistory = true → ∀ (j : Nat) (input : Json), given[j]? = some input →
    input.get "__agent_history__" =
      E.historyField (prior ++ (outcomes.take j).map iterationOutput)
  final : Holds E (prior ++ outcomes.map iterationOutput) final

theorem Holds.step {prior : List Json} {st : AgentState H} (h : Holds E prior st) :
    Holds E (prior ++ [iterationOutput (E.iterationOutcome N graphJson inputs injectHistory st)])
      (E.agentStep N graphJson inputs injectHistory st) := by
  obtain ⟨hHistory, hCount⟩ := h
  obtain ⟨hNext, hOutput, -⟩ := @agentStep_eq H E N graphJson inputs injectHistory st
  constructor
  · rw [← pushHistory_kept, ← hHistory, ← hOutput]
    rfl
  · rw [hNext, hCount, List.length_append, List.length_singleton]

theorem slides_nil {prior : List Json} {st : AgentState H} (h : Holds E prior st) :
    Slides E N graphJson injectHistory prior [] [] st where
  length := rfl
  ran j input hAt := by cases hAt
  given _ j input hAt := by cases hAt
  final := by rwa [List.map_nil, List.append_nil]

theorem Slides.cons {prior given : List Json} {outcomes : List (Outcome H)}
    {st final : AgentState H} (h : Holds E prior st)
    (hRest : Slides E N graphJson injectHistory
      (prior ++ [iterationOutput (E.iterationOutcome N graphJson inputs injectHistory st)])
      given outcomes final) :
    Slides E N graphJson injectHistory prior
      (E.agentInput inputs (st.iterationsRun + 1) injectHistory st.history :: given)
      (E.iterationOutcome N graphJson inputs injectHistory st :: outcomes) final where
  length := congrArg (· + 1) hRest.length
  ran j input hAt := by
    cases j with
    | zero =>
        cases hAt
        rw [List.getElem?_cons_zero, iterationOutcome, h.2]
    | succ j =>
        rw [List.getElem?_cons_succ] at hAt ⊢
        rw [hRest.ran j input hAt, List.length_append, List.length_singleton,
          Nat.add_right_comm prior.length 1 j, Nat.add_assoc prior.length j 1]
  given hInject j input hAt := by
    cases j with
    | zero =>
        cases hAt
        subst hInject
        rw [h.1, agentInput_history, List.take_zero, List.map_nil, List.append_nil]
    | succ j =>
        rw [hRest.given hInject j input hAt, List.take_succ_cons, List.map_cons, List.append_assoc,
          List.singleton_append]
  final := by
    have hFinal := hRest.final
    rwa [List.append_assoc, List.singleton_append, ← List.map_cons] at hFinal

theorem slides_agentIterations (remaining : Nat) {prior : List Json} {st : AgentState H}
    (h : Holds E prior st) :
    Slides E N graphJson injectHistory prior
      (E.bodyInputs N graphJson inputs injectHistory remaining st)
      (E.bodyOutcomes N graphJson inputs injectHistory remaining st)
      (E.agentIterations N graphJson inputs injectHistory remaining st) := by
  induction remaining generalizing prior st with
  | zero => exact slides_nil h
  | succ remaining ih =>
      rw [bodyInputs, bodyOutcomes, agentIterations]
      split
      · exact .cons h (slides_nil h.step)
      · exact .cons h (ih h.step)

end Runs

/-- Every iteration is given the window over the outputs before it. -/
structure GivesHistory (given : List Json) (outcomes : List (Outcome H)) : Prop where
  length : given.length = outcomes.length
  ran : ∀ (j : Nat) (input : Json), given[j]? = some input →
    outcomes[j]? = some (N.runGraph (j + 1) graphJson input)
  first : injectHistory = true → ∀ (j : Nat) (input : Json), given[j]? = some input →
    min j E.agentLoopMaxHistory.toNat = 0 → input.get "__agent_history__" = none
  later : injectHistory = true → ∀ (j : Nat) (input : Json), given[j]? = some input →
    min j E.agentLoopMaxHistory.toNat ≠ 0 → input.get "__agent_history__" =
      some (.array (((outcomes.take j).map iterationOutput).rtake
        (min j E.agentLoopMaxHistory.toNat)))

/-- The report has the window over all outputs and their number. -/
structure ReportsHistory (outcomes : List (Outcome H)) (report : Json) : Prop where
  history : report.get "history" = some (.array ((outcomes.map iterationOutput).rtake
    (min outcomes.length E.agentLoopMaxHistory.toNat)))
  iterations : report.get "iterations" = some (.ofCount outcomes.length)

variable {E N graphJson injectHistory}

theorem Slides.givesHistory {given : List Json} {outcomes : List (Outcome H)}
    {final : AgentState H} (h : Slides E N graphJson injectHistory [] given outcomes final) :
    GivesHistory E N graphJson injectHistory given outcomes := by
  have hField : injectHistory = true → ∀ (j : Nat) (input : Json), given[j]? = some input →
      input.get "__agent_history__" =
        if min j E.agentLoopMaxHistory.toNat = 0 then none
        else some (.array (((outcomes.take j).map iterationOutput).rtake
          (min j E.agentLoopMaxHistory.toNat))) := by
    intro hInject j input hAt
    have hShort : j < given.length := (List.getElem?_eq_some_iff.1 hAt).1
    rw [h.length] at hShort
    rw [h.given hInject j input hAt, historyField, List.nil_append, List.length_map,
      List.length_take_of_le hShort.le]
  refine ⟨h.length, fun j input hAt => ?_, fun hInject j input hAt hNone => ?_,
    fun hInject j input hAt hSome => ?_⟩
  · rw [h.ran j input hAt, List.length_nil, Nat.zero_add]
  · rw [hField hInject j input hAt, if_pos hNone]
  · rw [hField hInject j input hAt, if_neg hSome]

variable {bodyWfId userId : Uuid} {maxIters : UInt32}

/-- The iterations of an agent loop are given the window over the outputs before them, and a loop that
is not timed out reports the window over all of them. -/
theorem agent_loop_keeps_history (hFetcher : E.moduleFetcher.isNone = false)
    (hUser : E.userId = some userId)
    (hGraph : N.getSubWorkflowGraph bodyWfId userId = some graphJson) (timeoutSecs : UInt64) :
    (∀ rounds, GivesHistory E N graphJson injectHistory
        (E.bodyInputs N graphJson inputs injectHistory rounds agentStart)
        (E.bodyOutcomes N graphJson inputs injectHistory rounds agentStart)) ∧
      ∀ rounds, rounds = min (N.deadline.getD maxIters.toNat) maxIters.toNat →
        (∀ limit ∈ N.deadline, maxIters.toNat ≤ limit) ∨
            (E.agentIterations N graphJson inputs injectHistory rounds agentStart).finished = true →
          ReportsHistory E (E.bodyOutcomes N graphJson inputs injectHistory rounds agentStart)
            (E.tryDispatchAgentLoop N bodyWfId maxIters injectHistory timeoutSecs inputs).report := by
  have hStart : Holds E [] (agentStart (H := H)) := ⟨(List.rtake_nil _).symm, rfl⟩
  have hSlides := fun rounds =>
    @slides_agentIterations H E N graphJson inputs injectHistory rounds [] agentStart hStart
  refine ⟨fun rounds => (hSlides rounds).givesHistory, fun rounds hRounds hInTime => ?_⟩
  subst hRounds
  obtain ⟨hHistory, hCount⟩ := (hSlides _).final
  rw [List.nil_append, keptHistory, ← rtake_min_length, List.length_map] at hHistory
  rw [List.nil_append, List.length_map] at hCount
  rw [tryDispatchAgentLoop_inTime hFetcher hUser hGraph rfl hInTime timeoutSecs]
  constructor
  · exact congrArg (fun history => some (Json.array history)) hHistory
  · exact congrArg (fun count => some (Json.ofCount count)) hCount

end ParallelWorkflowEngine

section Samples

def failingNesting : Nesting (bareHost true) :=
  { answerNesting with runGraph := fun call _ _ => .error (.execution call.repr) }

def shortWindow : ParallelWorkflowEngine (bareHost true) :=
  { gatedEngine with agentLoopMaxHistory := 2 }

theorem agent_loop_keeps_history_short :
    ∃ given outcomes, given.length = 3 ∧
      GivesHistory shortWindow failingNesting .null true given outcomes ∧
        ReportsHistory shortWindow outcomes
          (shortWindow.tryDispatchAgentLoop failingNesting 5 3 true 60 .null).report := by
  obtain ⟨hGives, hReports⟩ :=
    @agent_loop_keeps_history (bareHost true) shortWindow failingNesting .null .null true 5 5 3
      rfl rfl rfl 60
  refine ⟨_, _, ?_, hGives 3, hReports 3 rfl (.inl ?_)⟩
  · decide
  · exact fun _ h => absurd h (Option.not_mem_none _)

end Samples

end TalosWorkflow
