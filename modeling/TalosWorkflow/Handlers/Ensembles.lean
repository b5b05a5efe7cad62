import TalosWorkflow.Handlers.Votes

/-!
# Winners of ensembles

An ensemble should have a working winner whenever a child has returned a
working output, whatever becomes of the judges.
-/

namespace TalosWorkflow

variable {H : Host}

namespace ParallelWorkflowEngine

section Selections

variable {E : ParallelWorkflowEngine H} {N : Nesting H} {D : Doubles} {judgeWfId : Uuid}
  {runCount : Nat} {candidates : List Json}

/-- The candidate is fine, and a judge run for it returns. -/
def Scored (E : ParallelWorkflowEngine H) (N : Nesting H) (judgeWfId : Uuid) (runCount : Nat)
    (candidate : Json × Nat) : Prop :=
  isErrorOutput candidate.1 = false ∧ ∃ run,
    E.executeSubworkflowGraph N (runCount + candidate.2) judgeWfId
      (.object [("content", candidate.1), ("rubric", .string "")]) = .ok run

theorem judgeCandidate_isSome {selection : Selection H} {candidate : Json × Nat} :
    (E.judgeCandidate N D judgeWfId runCount selection candidate).best.isSome = true ↔
      selection.best.isSome = true ∨ E.Scored N judgeWfId runCount candidate := by
  unfold judgeCandidate Scored
  split
  · rename_i hError
    simp [hError]
  · rename_i hFine
    rw [Bool.not_eq_true] at hFine
    split
    · rename_i run hRun
      refine iff_of_true ?_ (.inr ⟨hFine, run, hRun⟩)
      cases hBest : selection.best with
      | none => rfl
      | some best =>
          dsimp only
          split <;> rfl
    · rename_i e hFailed
      simp [hFailed]

theorem judgeCandidate_best {selection : Selection H} {candidate : Json × Nat}
    (hCandidate : candidate.1 ∈ candidates)
    (hBest : ∀ best ∈ selection.best, best.2 ∈ fine candidates) :
    ∀ best ∈ (E.judgeCandidate N D judgeWfId runCount selection candidate).best,
      best.2 ∈ fine candidates := by
  unfold judgeCandidate
  split
  · exact hBest
  · rename_i hFine
    split
    · intro best hIs
      dsimp only at hIs
      split at hIs
      · cases hIs
        exact mem_fine.2 ⟨hCandidate, Bool.not_eq_true _ ▸ hFine⟩
      · exact hBest best hIs
    · exact hBest

theorem foldl_judgeCandidate {l : List (Json × Nat)} (hCandidates : ∀ c ∈ l, c.1 ∈ candidates)
    {selection : Selection H} (hBest : ∀ best ∈ selection.best, best.2 ∈ fine candidates) :
    (∀ best ∈ (l.foldl (E.judgeCandidate N D judgeWfId runCount) selection).best,
      best.2 ∈ fine candidates) ∧
    ((l.foldl (E.judgeCandidate N D judgeWfId runCount) selection).best.isSome = true ↔
      selection.best.isSome = true ∨ ∃ c ∈ l, E.Scored N judgeWfId runCount c) := by
  induction l generalizing selection with
  | nil =>
      refine ⟨hBest, ?_⟩
      simp
  | cons candidate rest ih =>
      obtain ⟨hFine, hSome⟩ := ih (fun c hc => hCandidates c (List.mem_cons_of_mem _ hc))
        (judgeCandidate_best (hCandidates candidate List.mem_cons_self) hBest)
      refine ⟨hFine, ?_⟩
      rw [List.foldl_cons, hSome, judgeCandidate_isSome, or_assoc]
      simp only [List.mem_cons, exists_eq_or_imp]

/-- The judges leave a best candidate just when they score one, and it is fine. -/
theorem bestOfN_scored (E : ParallelWorkflowEngine H) (N : Nesting H) (D : Doubles)
    (judgeWfId : Uuid) (candidates : List Json) :
    (∀ best ∈ (E.bestOfN N D judgeWfId candidates).best, best.2 ∈ fine candidates) ∧
    ((E.bestOfN N D judgeWfId candidates).best.isSome = true ↔
      ∃ c ∈ candidates.zipIdx, E.Scored N judgeWfId candidates.length c) := by
  have hCandidates : ∀ c ∈ candidates.zipIdx, c.1 ∈ candidates :=
    fun c hc => List.fst_mem_of_mem_zipIdx hc
  have hStart : ∀ best ∈ (⟨none, []⟩ : Selection H).best, best.2 ∈ fine candidates :=
    fun best h => absurd h (Option.not_mem_none best)
  rw [bestOfN]
  refine ⟨(foldl_judgeCandidate hCandidates hStart).1, ?_⟩
  rw [(foldl_judgeCandidate hCandidates hStart).2]
  simp

end Selections

section Winners

variable (E : ParallelWorkflowEngine H) (N : Nesting H) (D : Doubles) (order : VoteOrder)

def ensembleCandidates (inputs : Json) (childWfId : Uuid) (runCount : UInt32) : List Json :=
  ((List.range runCount.toNat).map (E.ensembleChild N childWfId (stripReserved inputs))).map
    childOutput

/-- The output is the annotated winner, an error only if every child failed; the winner is fine if
a candidate is. -/
def PicksWorking (inputs : Json) (childWfId : Uuid) (runCount : UInt32) (strategy : String)
    (judgeWfId : Option Uuid) : Prop :=
  let candidates := E.ensembleCandidates N inputs childWfId runCount
  ∃ handled chosen,
    E.dispatchEnsemble N D order inputs childWfId runCount strategy judgeWfId = some handled ∧
    E.consensus N D order strategy judgeWfId candidates = some chosen ∧
    Annotates chosen.report handled.report ∧
    (isErrorOutput handled.report = true →
      ∀ candidate ∈ candidates, isErrorOutput candidate = true) ∧
    ∀ candidate ∈ candidates, isErrorOutput candidate = false → chosen.report ∈ fine candidates

/-- A fine candidate is scored where judges decide, or the first one is fine; and where votes
decide, none of them is cut inside a character. -/
structure Selectable (strategy : String) (judgeWfId : Option Uuid) (candidates : List Json) :
    Prop where
  scored : ∀ judge, strategy = "best_of_n" → judgeWfId = some judge →
    (∀ candidate ∈ candidates, isErrorOutput candidate = true) ∨
      (∃ c ∈ candidates.zipIdx, E.Scored N judge candidates.length c) ∨
        ∀ first ∈ candidates.head?, isErrorOutput first = false
  counted : VotesByMajority strategy judgeWfId → ∀ candidate ∈ fine candidates,
    CutsCleanly candidate

end Winners

section Strategies

variable {E : ParallelWorkflowEngine H} {N : Nesting H} {D : Doubles} {order : VoteOrder}
  {strategy : String} {judgeWfId : Option Uuid} {candidates : List Json}

theorem strategy_cases (strategy : String) (judgeWfId : Option Uuid) :
    strategy = "first_pass" ∨ (∃ judge, strategy = "best_of_n" ∧ judgeWfId = some judge) ∨
      VotesByMajority strategy judgeWfId := by
  by_cases hFirst : strategy = "first_pass"
  · exact .inl hFirst
  · cases judgeWfId with
    | none => exact .inr (.inr ⟨hFirst, fun _ => rfl⟩)
    | some judge =>
        by_cases hBest : strategy = "best_of_n"
        · exact .inr (.inl ⟨judge, hBest, rfl⟩)
        · exact .inr (.inr ⟨hFirst, fun h => absurd h hBest⟩)

/-- The selection returns a fine candidate unless there is none. -/
def Selects (candidates : List Json) (chosen : Option (Handled H Json)) : Prop :=
  ∃ handled, chosen = some handled ∧
    ((∃ candidate ∈ candidates, isErrorOutput candidate = false) → handled.report ∈ fine candidates)

theorem selects_first_pass (judgeWfId : Option Uuid) :
    Selects candidates (E.consensus N D order "first_pass" judgeWfId candidates) := by
  refine ⟨_, rfl, ?_⟩
  rintro ⟨candidate, hMem, hFine⟩
  cases hFound : candidates.find? fun r => !isErrorOutput r with
  | none =>
      have hError := List.find?_eq_none.1 hFound candidate hMem
      rw [hFine] at hError
      exact absurd rfl hError
  | some winner =>
      have hWinner := List.find?_some hFound
      rw [Bool.not_eq_true'] at hWinner
      exact mem_fine.2 ⟨List.mem_of_find?_eq_some hFound, hWinner⟩

/-- Without a scored candidate the first one is selected, fine or not. -/
theorem selects_best_of_n_iff (judge : Uuid) :
    Selects candidates (E.consensus N D order "best_of_n" (some judge) candidates) ↔
      (∀ candidate ∈ candidates, isErrorOutput candidate = true) ∨
        (∃ c ∈ candidates.zipIdx, E.Scored N judge candidates.length c) ∨
          ∀ first ∈ candidates.head?, isErrorOutput first = false := by
  obtain ⟨hFine, hSome⟩ := E.bestOfN_scored N D judge candidates
  have hChosen : E.consensus N D order "best_of_n" (some judge) candidates =
      some ⟨((E.bestOfN N D judge candidates).best.map (·.2)).getD
        (firstOr candidates "All best_of_n candidates failed"),
        (E.bestOfN N D judge candidates).runs⟩ := rfl
  rw [← hSome, hChosen]
  constructor
  · rintro ⟨handled, hHandled, hSelects⟩
    cases hHandled
    cases hBest : (E.bestOfN N D judge candidates).best with
    | some best => exact .inr (.inl rfl)
    | none =>
        simp only [hBest, Option.map_none, Option.getD_none] at hSelects
        by_cases hAny : ∃ candidate ∈ candidates, isErrorOutput candidate = false
        · refine .inr (.inr fun first hFirst => ?_)
          have hIs : firstOr candidates "All best_of_n candidates failed" = first := by
            rw [firstOr, Option.mem_def.1 hFirst, Option.getD_some]
          have hWinner := hSelects hAny
          rw [hIs] at hWinner
          exact (mem_fine.1 hWinner).2
        · refine .inl fun candidate hMem => ?_
          rw [← Bool.not_eq_false]
          exact fun hIs => hAny ⟨candidate, hMem, hIs⟩
  · intro hCases
    refine ⟨_, rfl, ?_⟩
    rintro ⟨candidate, hMem, hIs⟩
    cases hBest : (E.bestOfN N D judge candidates).best with
    | some best => exact hFine best hBest
    | none =>
        obtain hAll | hScored | hFirst := hCases
        · rw [hAll candidate hMem] at hIs
          cases hIs
        · rw [hBest] at hScored
          cases hScored
        · cases candidates with
          | nil => exact absurd hMem List.not_mem_nil
          | cons first rest => exact mem_fine.2 ⟨List.mem_cons_self, hFirst first rfl⟩

theorem selects_majority_iff (h : VotesByMajority strategy judgeWfId) :
    Selects candidates (E.consensus N D order strategy judgeWfId candidates) ↔
      ∀ candidate ∈ fine candidates, CutsCleanly candidate := by
  rw [consensus_majority h]
  constructor
  · rintro ⟨handled, hHandled, -⟩
    rw [← majorityVote_isSome_iff order]
    obtain ⟨selected, hSelected, -⟩ := Option.map_eq_some_iff.1 hHandled
    rw [hSelected]
    rfl
  · intro hCuts
    obtain ⟨selected, hSelected, hFine, -⟩ := majorityVote_leads hCuts order
    refine ⟨⟨selected, []⟩, ?_, ?_⟩
    · rw [hSelected, Option.map_some]
    · rintro ⟨candidate, hMem, hIs⟩
      exact hFine (List.ne_nil_of_mem (mem_fine.2 ⟨hMem, hIs⟩))

theorem selects_iff : Selects candidates (E.consensus N D order strategy judgeWfId candidates) ↔
    E.Selectable N strategy judgeWfId candidates := by
  obtain rfl | ⟨judge, rfl, rfl⟩ | hVotes := strategy_cases strategy judgeWfId
  · refine iff_of_true (selects_first_pass judgeWfId) ?_
    constructor
    · intro judge hBest
      exact absurd hBest (by decide)
    · intro hVotes
      exact absurd rfl hVotes.1
  · rw [selects_best_of_n_iff]
    constructor
    · intro hScored
      refine ⟨fun other _ hJudge => ?_, fun hVotes => ?_⟩
      · cases hJudge
        exact hScored
      · cases hVotes.2 rfl
    · intro hSelectable
      exact hSelectable.scored judge rfl rfl
  · rw [selects_majority_iff hVotes]
    constructor
    · intro hCuts
      refine ⟨fun judge hBest hJudge => ?_, fun _ => hCuts⟩
      rw [hVotes.2 hBest] at hJudge
      cases hJudge
    · intro hSelectable
      exact hSelectable.counted hVotes

variable {inputs : Json} {childWfId : Uuid} {runCount : UInt32}

theorem dispatchEnsemble_annotates {chosen : Handled H Json}
    (hChosen : E.consensus N D order strategy judgeWfId
      (E.ensembleCandidates N inputs childWfId runCount) = some chosen) :
    ∃ handled, E.dispatchEnsemble N D order inputs childWfId runCount strategy judgeWfId =
      some handled ∧ Annotates chosen.report handled.report := by
  let added : List (String × Json) := [("__ensemble_method__", .string strategy),
    ("__ensemble_size__", .ofCount runCount.toNat)]
  refine ⟨⟨.object (insertFields (objectFields chosen.report) added), _⟩,
    Option.map_eq_some_iff.2 ⟨chosen, hChosen, rfl⟩, ?_⟩
  refine annotates_insertFields chosen.report ?_
  simp [added]
  decide

/-- An ensemble picks a working winner just when its candidates can be selected from. -/
theorem picks_working_iff :
    E.PicksWorking N D order inputs childWfId runCount strategy judgeWfId ↔
      E.Selectable N strategy judgeWfId (E.ensembleCandidates N inputs childWfId runCount) := by
  rw [← selects_iff (D := D), PicksWorking]
  constructor
  · rintro ⟨handled, chosen, -, hChosen, -, -, hWorking⟩
    refine ⟨chosen, hChosen, ?_⟩
    rintro ⟨candidate, hMem, hFine⟩
    exact hWorking candidate hMem hFine
  · rintro ⟨chosen, hChosen, hWorking⟩
    obtain ⟨handled, hHandled, hAnnotates⟩ := dispatchEnsemble_annotates hChosen
    refine ⟨handled, chosen, hHandled, hChosen, hAnnotates, ?_, ?_⟩
    · intro hError candidate hMem
      rw [hAnnotates.isErrorOutput_eq] at hError
      rw [← Bool.not_eq_false]
      intro hFine
      have hWinner := (mem_fine.1 (hWorking ⟨candidate, hMem, hFine⟩)).2
      rw [hError] at hWinner
      cases hWinner
    · intro candidate hMem hFine
      exact hWorking ⟨candidate, hMem, hFine⟩

end Strategies

end ParallelWorkflowEngine

section Samples

open Multigraph

def answerEngine : ParallelWorkflowEngine (bareHost true) :=
  { ParallelWorkflowEngine.new with
    graph := ⟨[7, 8, 9], [⟨0, 1, {}⟩, ⟨0, 2, {}⟩, ⟨1, 2, {}⟩], by decide⟩
    nodeMap := nodeTable [(7, 0), (8, 1), (9, 2)]
    nodeLabels := nodeTable [(7, "__trigger__"), (8, "draft"), (9, "answer")]
    nodeMeta := nodeTable [(8, moduleNode), (9, moduleNode)]
    moduleFetcher := some sampleFetcher
    secretsResolver := some ⟨fun _ => .ok ∅, fun _ _ => .ok ∅, fun _ => .ok ∅⟩
    userId := some 5 }

def draftOutput : Json := .object [("note", .string "draft")]

def answerOutput : Json := .object [("finished", .bool true), ("hint", .string "shorter")]

def answerContext : WorkflowContext where
  results := ((nodeTable [(7, .null)]).insert 8 draftOutput).insert 9 answerOutput

theorem answerEngine_returns : ∃ executionId initialResults s last t,
    answerEngine.Returns executionId initialResults s last t (.ok answerContext) := by
  have hReplay : (replay (answerEngine.reactor 9 (nodeTable [(7, .null)])).step (fun _ _ => True)
      [.pop .accepted, .finish 0 (.ok draftOutput) 1, .visit, .pop .accepted,
        .finish 0 (.ok answerOutput) 1]
      ((answerEngine.reactor 9 (nodeTable [(7, .null)])).initialState
        (nodeTable [(7, .null)]))).map (fun s => (decide s.Quiescent,
          (mapValues (answerEngine.reactor 9 (nodeTable [(7, .null)])).scrubOutput
            s.results).entries)) = some (true, answerContext.results.entries) := by
    decide
  exact returns_of_replay _ (acyclic_of_rank id (by decide)) rfl hReplay

def answerRun : NestedRun (bareHost true) := ⟨answerEngine, answerContext, answerEngine_returns⟩

/-- The first run of a workflow fails, and the others answer; workflow 6 is not there. -/
def answerNesting : Nesting (bareHost true) where
  getSubWorkflowGraph id _ := if id = 6 then none else some .null
  evaluateDispatchExpression _ _ := .error ""
  resolveTarget _ := none
  resolveByCapabilities _ := none
  debugStrings _ := ""
  deadline := none
  runGraph call _ _ := if call = 0 then .error (.execution "boom") else .ok answerRun

/-- A missing judge leaves the failed first child as the winner of a fine second one. -/
theorem best_of_n_picks_failed :
    (∃ handled, gatedEngine.dispatchEnsemble answerNesting sampleDoubles sampleVoteOrder .null 5 2
        "best_of_n" (some 6) = some handled ∧ isErrorOutput handled.report = true) ∧
      answerOutput ∈ gatedEngine.ensembleCandidates answerNesting .null 5 2 ∧
        isErrorOutput answerOutput = false := by
  have hError : ((gatedEngine.dispatchEnsemble answerNesting sampleDoubles sampleVoteOrder .null 5 2
      "best_of_n" (some 6)).map fun handled => isErrorOutput handled.report) = some true := by
    decide
  obtain ⟨handled, hHandled, hIs⟩ := Option.map_eq_some_iff.1 hError
  exact ⟨⟨handled, hHandled, hIs⟩, by decide, by decide⟩

end Samples

end TalosWorkflow
