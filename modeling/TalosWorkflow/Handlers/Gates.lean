import TalosWorkflow.Handlers.Nested

/-!
# Judges and ensembles

Verdicts, the judge that runs a stored workflow, and the consensus of an
ensemble.
-/

namespace TalosWorkflow

variable {H : Host}

/-- What the gates rely on from double precision numbers. -/
structure Doubles where
  asF64 : Number → Rat
  toJson : Rat → Json
  /-- `{:.2}`. -/
  twoDecimals : Rat → String

/-- The iteration order of the map in which votes are counted. -/
structure VoteOrder where
  iterate : List (String × Nat × Json) → List (String × Nat × Json)
  perm : ∀ votes, (iterate votes).Perm votes

structure JudgeVerdict where
  score : Rat
  passed : Bool
  reasoning : String
  feedback : String
  malformedFieldCount : Nat

namespace JudgeVerdict

variable (D : Doubles)

/-- A missing or mistyped field falls back to its default and is counted. -/
def fromCollapsed (verdict : Json) : JudgeVerdict :=
  let score := (verdict.get "score").bind fun
    | .number n => some (D.asF64 n)
    | _ => none
  let passed := (verdict.get "passed").bind Json.asBool
  let reasoning := (verdict.get "reasoning").bind Json.asStr
  let feedback := (verdict.get "feedback").bind Json.asStr
  { score := score.getD 0
    passed := passed.getD false
    reasoning := reasoning.getD ""
    feedback := feedback.getD ""
    malformedFieldCount :=
      [score.isNone, passed.isNone, reasoning.isNone, feedback.isNone].count true }

def passes (verdict : JudgeVerdict) (passThreshold : Option Rat) : Bool :=
  verdict.passed && passThreshold.all fun threshold => threshold ≤ verdict.score

/-- The envelope that `Judge` and `InlineJudge` make of a verdict. -/
def envelope (gate : String) (parentInputs : Json) (passThreshold : Option Rat)
    (onFailure : String) (verdict : JudgeVerdict) : Json :=
  if verdict.passes passThreshold then
    .object (insertFields (objectFields parentInputs)
      [("__judge_score__", D.toJson verdict.score), ("__judge_passed__", .bool true),
        ("__judge_reasoning__", .string verdict.reasoning),
        ("__judge_feedback__", .string verdict.feedback)])
  else if onFailure = "passthrough" then
    .object (insertFields (objectFields parentInputs)
      [("__judge_score__", D.toJson verdict.score), ("__judge_passed__", .bool false),
        ("__judge_rejected__", .bool true), ("__judge_reasoning__", .string verdict.reasoning),
        ("__judge_feedback__", .string verdict.feedback)])
  else
    .object (insertFields []
      [("__error", .bool true),
        ("error_message", .string (gate ++ " rejected output: " ++ verdict.reasoning ++
          " (score: " ++ D.twoDecimals verdict.score ++ ")")),
        ("__judge_score__", D.toJson verdict.score), ("__judge_passed__", .bool false),
        ("__judge_feedback__", .string verdict.feedback)])

end JudgeVerdict

section Votes

def maxVoteKeyBytes : Nat := 8192

/-- The capped vote key, unless the cap cuts a character. -/
def voteKey (candidate : Json) : Option String :=
  let text := (((candidate.get "result").or (candidate.get "output")).getD candidate).text
  if maxVoteKeyBytes < text.utf8ByteSize then
    (bytePrefix maxVoteKeyBytes text.toList).map String.ofList
  else some text

/-- The first candidate with a key stands for it. -/
def castVote (votes : List (String × Nat × Json)) (key : String) (candidate : Json) :
    List (String × Nat × Json) :=
  if (votes.lookup key).isSome then
    votes.map fun vote => if vote.1 = key then (key, vote.2.1 + 1, vote.2.2) else vote
  else votes ++ [(key, 1, candidate)]

def countVotes : List Json → List (String × Nat × Json) → Option (List (String × Nat × Json))
  | [], votes => some votes
  | candidate :: rest, votes =>
      if isErrorOutput candidate then countVotes rest votes
      else
        match voteKey candidate with
        | some key => countVotes rest (castVote votes key candidate)
        | none => none

/-- `max_by_key`: the last one of the maximal votes. -/
def maxVote (votes : List (String × Nat × Json)) : Option (String × Nat × Json) :=
  votes.foldl (fun best vote =>
    match best with
    | some b => if b.2.1 ≤ vote.2.1 then some vote else some b
    | none => some vote) none

end Votes

namespace ParallelWorkflowEngine

variable (E : ParallelWorkflowEngine H) (N : Nesting H) (D : Doubles)

def dispatchJudge (parentInputs : Json) (judgeWfId : Uuid) (rubric : String)
    (passThreshold : Option Rat) (onFailure : String) : Handled H Json :=
  let outcome := E.executeSubworkflowGraph N 0 judgeWfId
    (.object [("content", parentInputs), ("rubric", .string rubric)])
  { report :=
      match outcome with
      | .ok run =>
          JudgeVerdict.envelope D "Judge" parentInputs passThreshold onFailure
            (.fromCollapsed D run.collapsed)
      | .error e => e.intoErrorEnvelope "Judge"
    runs := returnedRuns outcome }

section Ensemble

/-- Child `i` of an ensemble. -/
def ensembleChild (childWfId : Uuid) (cleanInput : Json) (i : Nat) :
    Except SubflowError (NestedRun H) :=
  E.executeSubworkflowGraph N i childWfId cleanInput

def childOutput : Except SubflowError (NestedRun H) → Json
  | .ok run => run.collapsed
  | .error e => e.intoErrorEnvelope "Ensemble child"

/-- The candidate with the highest score so far, and the judge runs. -/
structure Selection (H : Host) where
  best : Option (Rat × Json)
  runs : List (NestedRun H)

/-- The judge runs are numbered after the children. -/
def judgeCandidate (judgeWfId : Uuid) (runCount : Nat) (selection : Selection H)
    (candidate : Json × Nat) : Selection H :=
  if isErrorOutput candidate.1 then selection
  else
    match E.executeSubworkflowGraph N (runCount + candidate.2) judgeWfId
        (.object [("content", candidate.1), ("rubric", .string "")]) with
    | .ok run =>
        let score := (JudgeVerdict.fromCollapsed D run.collapsed).score
        { best := if selection.best.all fun best => best.1 < score then some (score, candidate.1)
            else selection.best
          runs := selection.runs ++ [run] }
    | .error _ => selection

def bestOfN (judgeWfId : Uuid) (candidates : List Json) : Selection H :=
  candidates.zipIdx.foldl (E.judgeCandidate N D judgeWfId candidates.length) ⟨none, []⟩

def firstOr (candidates : List Json) (message : String) : Json :=
  candidates.head?.getD (errorEnvelope message)

/-- The winner and the judge runs, unless a vote key cuts a character. -/
def consensus (order : VoteOrder) (strategy : String) (judgeWfId : Option Uuid)
    (candidates : List Json) : Option (Handled H Json) :=
  match strategy, judgeWfId with
  | "first_pass", _ =>
      some ⟨(candidates.find? fun r => !isErrorOutput r).getD
        (firstOr candidates "All ensemble runs failed"), []⟩
  | "best_of_n", some judge =>
      let selection := E.bestOfN N D judge candidates
      some ⟨(selection.best.map (·.2)).getD
        (firstOr candidates "All best_of_n candidates failed"), selection.runs⟩
  | _, _ =>
      (countVotes candidates []).map fun votes =>
        ⟨((maxVote (order.iterate votes)).map (·.2.2)).getD
          (firstOr candidates "Ensemble majority_vote: all runs failed"), []⟩

def dispatchEnsemble (order : VoteOrder) (inputs : Json) (childWfId : Uuid) (runCount : UInt32)
    (strategy : String) (judgeWfId : Option Uuid) : Option (Handled H Json) :=
  let outcomes := (List.range runCount.toNat).map (E.ensembleChild N childWfId (stripReserved inputs))
  (E.consensus N D order strategy judgeWfId (outcomes.map childOutput)).map fun chosen =>
    ⟨.object (insertFields (objectFields chosen.report)
        [("__ensemble_method__", .string strategy),
          ("__ensemble_size__", .ofCount runCount.toNat)]),
      outcomes.flatMap returnedRuns ++ chosen.runs⟩

end Ensemble

section Refusals

variable {E : ParallelWorkflowEngine H} {N : Nesting H} {D : Doubles}

/-- A verdict that rejects is an error unless it is passed through. -/
theorem isErrorOutput_envelope {gate : String} {parentInputs : Json} {passThreshold : Option Rat}
    {onFailure : String} {verdict : JudgeVerdict} :
    isErrorOutput (verdict.envelope D gate parentInputs passThreshold onFailure) = true ↔
      verdict.passes passThreshold = false ∧ onFailure ≠ "passthrough" ∨
        isErrorOutput parentInputs = true := by
  unfold JudgeVerdict.envelope
  split
  · rename_i hPasses
    rw [isErrorOutput_insertFields (by simp), hPasses]
    simp
  · rename_i hRejects
    rw [Bool.not_eq_true] at hRejects
    split
    · rename_i hThrough
      rw [isErrorOutput_insertFields (by simp)]
      simp [hThrough]
    · rename_i hFails
      refine iff_of_true ?_ (.inl ⟨hRejects, hFails⟩)
      have hKept (added : List (String × Json)) (h : ∀ field ∈ added, "__error" ≠ field.1) :
          isErrorOutput (.object (insertFields [] (("__error", .bool true) :: added))) = true :=
        (isErrorOutput_congr (lookup_insertFields_ne h [("__error", .bool true)])).trans rfl
      exact hKept _ (by simp)

theorem dispatchJudge_refused {parentInputs : Json} {judgeWfId : Uuid} {rubric : String}
    {passThreshold : Option Rat} {onFailure : String}
    (h : isErrorOutput parentInputs = true ∨ onFailure ≠ "passthrough" ∧
      ∀ run ∈ (E.dispatchJudge N D parentInputs judgeWfId rubric passThreshold onFailure).runs,
        (JudgeVerdict.fromCollapsed D run.collapsed).passes passThreshold = false) :
    isErrorOutput
      (E.dispatchJudge N D parentInputs judgeWfId rubric passThreshold onFailure).report = true := by
  simp only [dispatchJudge] at h ⊢
  split
  · rename_i run hRun
    rw [isErrorOutput_envelope]
    obtain hInputs | ⟨hFails, hRejects⟩ := h
    · exact .inr hInputs
    · rw [hRun] at hRejects
      exact .inl ⟨hRejects run (List.mem_singleton_self run), hFails⟩
  · exact SubflowError.isErrorOutput_intoErrorEnvelope _ _

def Unjudged (E : ParallelWorkflowEngine H) (N : Nesting H) (judgeWfId : Uuid)
    (candidates : List Json) : Prop :=
  ∀ candidate ∈ candidates.zipIdx, isErrorOutput candidate.1 = false → ∀ run,
    E.executeSubworkflowGraph N (candidates.length + candidate.2) judgeWfId
      (.object [("content", candidate.1), ("rubric", .string "")]) ≠ .ok run

def NoConsensus (E : ParallelWorkflowEngine H) (N : Nesting H) (strategy : String)
    (judgeWfId : Option Uuid) (candidates : List Json) : Prop :=
  match strategy, judgeWfId with
  | "best_of_n", some judge =>
      E.Unjudged N judge candidates ∧ ∀ first ∈ candidates.head?, isErrorOutput first = true
  | _, _ => ∀ candidate ∈ candidates, isErrorOutput candidate = true

theorem isErrorOutput_firstOr {candidates : List Json} (message : String)
    (h : ∀ first ∈ candidates.head?, isErrorOutput first = true) :
    isErrorOutput (firstOr candidates message) = true := by
  cases candidates with
  | nil => rfl
  | cons first rest => exact h first rfl

theorem bestOfN_best {judgeWfId : Uuid} {candidates : List Json}
    (h : E.Unjudged N judgeWfId candidates) : (E.bestOfN N D judgeWfId candidates).best = none := by
  have hFold : ∀ (l : List (Json × Nat)) (selection : Selection H), l ⊆ candidates.zipIdx →
      l.foldl (E.judgeCandidate N D judgeWfId candidates.length) selection = selection := by
    intro l
    induction l with
    | nil => exact fun _ _ => rfl
    | cons candidate rest ih =>
        intro selection hSubset
        obtain ⟨hMem, hRest⟩ := List.cons_subset.1 hSubset
        rw [List.foldl_cons]
        have hKept : E.judgeCandidate N D judgeWfId candidates.length selection candidate =
            selection := by
          unfold judgeCandidate
          split
          · rfl
          · rename_i hFine
            split
            · rename_i run hRun
              exact absurd hRun (h candidate hMem (by simpa using hFine) run)
            · rfl
        rw [hKept]
        exact ih selection hRest
  rw [bestOfN, hFold _ _ (List.Subset.refl _)]

theorem countVotes_errors {candidates : List Json} {votes : List (String × Nat × Json)}
    (h : ∀ candidate ∈ candidates, isErrorOutput candidate = true) :
    countVotes candidates votes = some votes := by
  induction candidates with
  | nil => rfl
  | cons candidate rest ih =>
      rw [countVotes, if_pos (h candidate List.mem_cons_self)]
      exact ih fun other hOther => h other (List.mem_cons_of_mem _ hOther)

theorem consensus_refused {order : VoteOrder} {strategy : String} {judgeWfId : Option Uuid}
    {candidates : List Json} {chosen : Handled H Json}
    (hChosen : E.consensus N D order strategy judgeWfId candidates = some chosen)
    (h : E.NoConsensus N strategy judgeWfId candidates) : isErrorOutput chosen.report = true := by
  have hFirst : (∀ candidate ∈ candidates, isErrorOutput candidate = true) →
      ∀ first ∈ candidates.head?, isErrorOutput first = true :=
    fun hAll first hHead => hAll first (List.mem_of_mem_head? hHead)
  unfold consensus at hChosen
  split at hChosen
  · have hAll : ∀ candidate ∈ candidates, isErrorOutput candidate = true := h
    cases hChosen
    rw [List.find?_eq_none.2 (fun r hr => by simp [hAll r hr]), Option.getD_none]
    exact isErrorOutput_firstOr _ (hFirst hAll)
  · obtain ⟨hUnjudged, hHead⟩ := h
    cases hChosen
    simp only [bestOfN_best hUnjudged, Option.map_none, Option.getD_none]
    exact isErrorOutput_firstOr _ hHead
  · rename_i hNotFirst hNotBest
    have hAll : ∀ candidate ∈ candidates, isErrorOutput candidate = true := by
      unfold NoConsensus at h
      split at h
      · exact absurd rfl (hNotBest _ rfl)
      · exact h
    rw [countVotes_errors hAll, Option.map_some, Option.some.injEq] at hChosen
    subst hChosen
    have hEmpty : order.iterate [] = [] := List.perm_nil.1 (order.perm [])
    simp only [hEmpty]
    exact isErrorOutput_firstOr _ (hFirst hAll)

theorem dispatchEnsemble_refused {order : VoteOrder} {inputs : Json} {childWfId : Uuid}
    {runCount : UInt32} {strategy : String} {judgeWfId : Option Uuid} {handled : Handled H Json}
    (hHandled : E.dispatchEnsemble N D order inputs childWfId runCount strategy judgeWfId =
      some handled)
    (h : E.NoConsensus N strategy judgeWfId (((List.range runCount.toNat).map
      (E.ensembleChild N childWfId (stripReserved inputs))).map childOutput)) :
    isErrorOutput handled.report = true := by
  simp only [dispatchEnsemble, Option.map_eq_some_iff] at hHandled
  obtain ⟨chosen, hChosen, rfl⟩ := hHandled
  rw [isErrorOutput_insertFields (by simp)]
  exact consensus_refused hChosen h

end Refusals

end ParallelWorkflowEngine

end TalosWorkflow
