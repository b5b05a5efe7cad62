import TalosWorkflow.Handlers.Reflections

/-!
# Iterations of agent loops

An agent loop should stop at the first iteration whose body says so in the output
of its terminal node. It reads that output from a collapse of its own.
-/

namespace TalosWorkflow

variable {H : Host}

namespace NestedRun

def OneTerminal (run : NestedRun H) : Prop :=
  ∃ idx ∈ run.engine.graph.nodeIndices, ∀ other ∈ run.engine.graph.nodeIndices,
    (run.engine.graph.successors other).isEmpty = true ↔ other = idx

def named (run : NestedRun H) : List (Uuid × String × Json) :=
  run.engine.namedOutputs run.context.results

/-- The output of a terminal node without reserved fields. -/
def terminalOutput (run : NestedRun H) : Option Json :=
  (run.named.find? fun e => run.engine.isTerminal e.1).map fun e => stripReserved e.2.2

/-- No other node has an output that is neither skipped nor the trigger's. -/
def OnlyTerminal (run : NestedRun H) : Prop := ∀ e ∈ run.named, run.engine.isTerminal e.1 = true

instance (run : NestedRun H) : Decidable run.OnlyTerminal := by
  unfold OnlyTerminal
  infer_instance

variable {run : NestedRun H}

section Terminals

theorem namedOutputs_keys (E : ParallelWorkflowEngine H) (results : Table Json) :
    ((E.namedOutputs results).map (·.1)).Nodup := by
  have hSublist : ∀ entries : List (Sigma fun _ : Uuid => Json),
      ((entries.filterMap fun entry =>
        if isSkippedOutput entry.2 || E.labelOrId entry.1 = "__trigger__" then none
        else some (entry.1, E.labelOrId entry.1, unwrapOutput entry.2)).map (·.1)).Sublist
        entries.keys := by
    intro entries
    induction entries with
    | nil => exact .slnil
    | cons entry rest ih =>
        rw [List.filterMap_cons, List.keys_cons]
        split
        · exact ih.cons _
        · rename_i e hEntry
          split at hEntry
          · cases hEntry
          · cases hEntry
            exact ih.cons_cons _
  exact (hSublist results.entries).nodup results.nodupKeys

theorem isTerminal_cases {E : ParallelWorkflowEngine H} {id : Uuid}
    (h : E.isTerminal id = true) : ∃ idx ∈ E.graph.nodeIndices, E.nodeId idx = id ∧
      (E.graph.successors idx).isEmpty = true := by
  unfold ParallelWorkflowEngine.isTerminal at h
  split at h
  · rename_i idx hFound
    have hIs := List.find?_some hFound
    have hMem := List.mem_reverse.1 (List.mem_of_find?_eq_some hFound)
    exact ⟨idx, hMem, of_decide_eq_true hIs, h⟩
  · cases h

theorem OneTerminal.id_eq (h : run.OneTerminal) {id id' : Uuid}
    (hFirst : run.engine.isTerminal id = true) (hSecond : run.engine.isTerminal id' = true) :
    id = id' := by
  obtain ⟨idx, -, hOnly⟩ := h
  obtain ⟨i, hMem, rfl, hLeaf⟩ := isTerminal_cases hFirst
  obtain ⟨j, hMem', rfl, hLeaf'⟩ := isTerminal_cases hSecond
  rw [(hOnly i hMem).1 hLeaf, (hOnly j hMem').1 hLeaf']

/-- A list without repeated keys has one entry if all its entries have one key. -/
theorem eq_singleton_of_keys {α β : Type*} {key : α → β} {l : List α} {e : α}
    (hKeys : (l.map key).Nodup) (hIn : e ∈ l) (hSame : ∀ other ∈ l, key other = key e) :
    l = [e] := by
  cases l with
  | nil => exact absurd hIn List.not_mem_nil
  | cons first rest =>
      cases rest with
      | nil => rw [List.mem_singleton.1 hIn]
      | cons second rest =>
          rw [List.map_cons, List.map_cons, List.nodup_cons] at hKeys
          have hClash : key first = key second :=
            (hSame first List.mem_cons_self).trans
              (hSame second (List.mem_cons_of_mem _ List.mem_cons_self)).symm
          exact absurd (hClash ▸ List.mem_cons_self) hKeys.1

theorem OneTerminal.filter_named (h : run.OneTerminal) {e : Uuid × String × Json}
    (hMem : e ∈ run.named) (hTerminal : run.engine.isTerminal e.1 = true) :
    (run.named.filter fun e => run.engine.isTerminal e.1) = [e] := by
  have hKeys : ((run.named.filter fun e => run.engine.isTerminal e.1).map (·.1)).Nodup :=
    (List.filter_sublist.map _).nodup (namedOutputs_keys run.engine run.context.results)
  have hIn : e ∈ run.named.filter fun e => run.engine.isTerminal e.1 :=
    List.mem_filter.2 ⟨hMem, hTerminal⟩
  exact eq_singleton_of_keys hKeys hIn fun other hOther =>
    h.id_eq (List.mem_filter.1 hOther).2 hTerminal

theorem terminalOutput_cases {output : Json} (h : run.terminalOutput = some output) :
    ∃ e ∈ run.named, run.engine.isTerminal e.1 = true ∧ output = stripReserved e.2.2 := by
  obtain ⟨e, hFound, rfl⟩ := Option.map_eq_some_iff.1 h
  obtain ⟨hTerminal, -⟩ := List.find?_eq_some_iff_append.1 hFound
  exact ⟨e, List.mem_of_find?_eq_some hFound, hTerminal, rfl⟩

theorem OneTerminal.collapsed_eq (h : run.OneTerminal) {output : Json}
    (hOutput : run.terminalOutput = some output) : output = stripReserved run.collapsed := by
  obtain ⟨e, hMem, hTerminal, rfl⟩ := terminalOutput_cases hOutput
  have hFilter := h.filter_named hMem hTerminal
  rw [collapsed, ParallelWorkflowEngine.collapseSubworkflowOutput, List.partition_eq_filter_filter]
  rw [named] at hFilter
  simp only [hFilter]

end Terminals

section Collapses

theorem lookup_insertFields_mem {added : List (String × Json)} {key : String} {value : Json}
    (hKeys : (added.map Prod.fst).Nodup) (h : (key, value) ∈ added) :
    (insertFields [] added).lookup key = some value := by
  have hLast : added.reverse.lookup key = some value := by
    obtain ⟨before, after, hSplit⟩ := List.append_of_mem (List.mem_reverse.2 h)
    have hReversed : ((added.reverse).map Prod.fst).Nodup := by
      rwa [List.map_reverse, List.nodup_reverse]
    rw [hSplit, List.map_append, List.nodup_append] at hReversed
    refine List.lookup_eq_some_iff.2 ⟨before, after, hSplit, ?_⟩
    intro field hField
    apply bne_iff_ne.2
    intro hSame
    exact hReversed.2.2 field.1 (List.mem_map_of_mem hField) key List.mem_cons_self hSame.symm
  rw [lookup_insertFields, hLast, Option.some_or]

theorem agentOutput_eq {l : List (Uuid × String × Json)} (h : run.named = l) :
    ParallelWorkflowEngine.agentOutput run =
      match insertFields [] (l.map fun e => (e.2.1, stripReserved e.2.2)) with
      | [(_, output)] => output
      | fields => .object fields := by
  rw [ParallelWorkflowEngine.agentOutput, labelled, ← named, h, List.map_map]
  rfl

/-- The loop reads the output of the only node that has one. -/
theorem OneTerminal.agentOutput_of_only (h : run.OneTerminal) (hOnly : run.OnlyTerminal) :
    ParallelWorkflowEngine.agentOutput run = run.terminalOutput.getD (.object []) := by
  cases hNamed : run.named with
  | nil =>
      rw [agentOutput_eq hNamed, terminalOutput, hNamed]
      rfl
  | cons e rest =>
      have hTerminal : run.engine.isTerminal e.1 = true := by
        refine hOnly e ?_
        rw [hNamed]
        exact List.mem_cons_self
      have hSingle : run.named = [e] := by
        have hFilter := h.filter_named (hNamed ▸ List.mem_cons_self) hTerminal
        rwa [List.filter_eq_self.2 hOnly] at hFilter
      rw [agentOutput_eq hSingle, terminalOutput, hSingle, List.find?_cons, hTerminal]
      rfl

/-- With labels of their own, other outputs beside it hide the terminal one in a map. -/
theorem agentOutput_eq_iff (hLabels : (run.labelled.map Prod.fst).Nodup) (h : run.OneTerminal)
    {output : Json} (hOutput : run.terminalOutput = some output) :
    ParallelWorkflowEngine.agentOutput run = output ↔ run.OnlyTerminal := by
  constructor
  · intro hSame
    obtain ⟨e, hMem, hTerminal, rfl⟩ := terminalOutput_cases hOutput
    intro other hOther
    rw [← Bool.not_eq_false]
    intro hInner
    rw [labelled, ← named, List.map_map] at hLabels
    let field (e : Uuid × String × Json) : String × Json := (e.2.1, stripReserved e.2.2)
    have hKeys : ((run.named.map field).map Prod.fst).Nodup := by
      rw [List.map_map]
      exact hLabels
    have hFirst := lookup_insertFields_mem hKeys (List.mem_map_of_mem (f := field) hMem)
    have hSecond := lookup_insertFields_mem hKeys (List.mem_map_of_mem (f := field) hOther)
    rw [agentOutput_eq rfl] at hSame
    split at hSame
    · rename_i key single hFields
      have hKey {k : String} {v : Json}
          (hFound : (insertFields [] (run.named.map field)).lookup k = some v) : k = key := by
        have hIn := Json.mem_of_lookup hFound
        rw [hFields, List.mem_singleton] at hIn
        exact congrArg Prod.fst hIn
      have hIs := List.inj_on_of_nodup_map hLabels hMem hOther ((hKey hFirst).trans (hKey hSecond).symm)
      rw [← hIs, hTerminal] at hInner
      cases hInner
    · exact Json.object_ne_field (Json.mem_of_lookup hFirst) hSame
  · intro hOnly
    rw [h.agentOutput_of_only hOnly, hOutput, Option.getD_some]

end Collapses

end NestedRun

section Signals

/-- The output of the terminal node, if the body has run and the node has one. -/
def terminalOf : Outcome H → Option Json
  | .ok run => run.terminalOutput
  | .error _ => none

def signals (outcome : Outcome H) : Bool :=
  (terminalOf outcome).any ParallelWorkflowEngine.agentFinished

def iterationOutput : Outcome H → Json
  | .ok run => ParallelWorkflowEngine.agentOutput run
  | .error (.build e) => errorEnvelope ("Failed to build agent body: " ++ e)
  | .error (.execution e) => errorEnvelope e

variable {outcome : Outcome H}

theorem iterationOutput_of_only (hOne : ∀ run, outcome = .ok run → run.OneTerminal)
    (hOnly : ∀ run, outcome = .ok run → run.OnlyTerminal) {output : Json}
    (h : terminalOf outcome = some output) : iterationOutput outcome = output := by
  cases outcome with
  | ok run =>
      have hTerminal : run.terminalOutput = some output := h
      rw [iterationOutput, (hOne run rfl).agentOutput_of_only (hOnly run rfl), hTerminal,
        Option.getD_some]
  | error e => cases h

/-- The loop reads the signal of the terminal node when it is the only one with an output. -/
theorem agentFinished_iterationOutput (hOne : ∀ run, outcome = .ok run → run.OneTerminal)
    (hOnly : ∀ run, outcome = .ok run → run.OnlyTerminal) :
    ParallelWorkflowEngine.agentFinished (iterationOutput outcome) = signals outcome := by
  cases outcome with
  | ok run =>
      rw [iterationOutput, (hOne run rfl).agentOutput_of_only (hOnly run rfl), signals, terminalOf]
      cases run.terminalOutput <;> rfl
  | error e => cases e <;> rfl

end Signals

namespace ParallelWorkflowEngine

section Iterations

variable (E : ParallelWorkflowEngine H) (N : Nesting H) (graphJson inputs : Json)
  (injectHistory : Bool)

def iterationOutcome (st : AgentState H) : Outcome H :=
  N.runGraph (st.iterationsRun + 1) graphJson
    (E.agentInput inputs (st.iterationsRun + 1) injectHistory st.history)

def bodyOutcomes : Nat → AgentState H → List (Outcome H)
  | 0, _ => []
  | remaining + 1, st =>
      let next := E.agentStep N graphJson inputs injectHistory st
      E.iterationOutcome N graphJson inputs injectHistory st ::
        if next.finished then [] else bodyOutcomes remaining next

/-- What a number of iterations makes of a state, by the outcomes of their body runs. -/
structure Iterated (remaining : Nat) (st final : AgentState H) (outcomes : List (Outcome H)) :
    Prop where
  count : final.iterationsRun = st.iterationsRun + outcomes.length
  length_le : outcomes.length ≤ remaining
  unchanged : outcomes = [] → final = st
  last : ∀ outcome ∈ outcomes.getLast?, final.lastOutput = iterationOutput outcome ∧
    final.finished = agentFinished (iterationOutput outcome)
  goesOn : ∀ (j : Nat) (outcome : Outcome H), outcomes[j]? = some outcome →
    j + 1 < outcomes.length → agentFinished (iterationOutput outcome) = false
  stops : outcomes.length = remaining ∨ final.finished = true

variable {E N graphJson inputs injectHistory}

theorem agentStep_eq (st : AgentState H) :
    (E.agentStep N graphJson inputs injectHistory st).iterationsRun = st.iterationsRun + 1 ∧
    (E.agentStep N graphJson inputs injectHistory st).lastOutput =
      iterationOutput (E.iterationOutcome N graphJson inputs injectHistory st) ∧
    (E.agentStep N graphJson inputs injectHistory st).finished =
      agentFinished (iterationOutput (E.iterationOutcome N graphJson inputs injectHistory st)) := by
  have hOutput : (E.agentStep N graphJson inputs injectHistory st).lastOutput =
      iterationOutput (E.iterationOutcome N graphJson inputs injectHistory st) := by
    simp only [agentStep, iterationOutcome]
    split <;> rename_i hOutcome <;> rw [hOutcome] <;> rfl
  refine ⟨rfl, hOutput, ?_⟩
  rw [← hOutput]
  rfl

theorem Iterated.cons {remaining : Nat} {st next final : AgentState H} {outcome : Outcome H}
    {rest : List (Outcome H)} (h : Iterated remaining next final rest)
    (hCount : next.iterationsRun = st.iterationsRun + 1)
    (hOutput : next.lastOutput = iterationOutput outcome)
    (hFinished : next.finished = agentFinished (iterationOutput outcome))
    (hGoesOn : next.finished = false) : Iterated (remaining + 1) st final (outcome :: rest) where
  count := by
    rw [h.count, hCount, List.length_cons]
    omega
  length_le := Nat.succ_le_succ h.length_le
  unchanged hNil := absurd hNil (List.cons_ne_nil _ _)
  last other hLast := by
    cases rest with
    | nil =>
        cases hLast
        rw [h.unchanged rfl]
        exact ⟨hOutput, hFinished⟩
    | cons second rest => exact h.last other hLast
  goesOn j other hAt hMore := by
    cases j with
    | zero =>
        cases hAt
        rw [← hFinished, hGoesOn]
    | succ j => exact h.goesOn j other hAt (Nat.lt_of_succ_lt_succ hMore)
  stops := by
    obtain hFull | hDone := h.stops
    · exact .inl (congrArg (· + 1) hFull)
    · exact .inr hDone

theorem iterated_agentIterations (remaining : Nat) (st : AgentState H) :
    Iterated remaining st (E.agentIterations N graphJson inputs injectHistory remaining st)
      (E.bodyOutcomes N graphJson inputs injectHistory remaining st) := by
  induction remaining generalizing st with
  | zero =>
      rw [agentIterations, bodyOutcomes]
      exact ⟨rfl, Nat.le_refl _, fun _ => rfl, fun _ h => absurd h (Option.not_mem_none _),
        fun j outcome h => absurd h (by simp), .inl rfl⟩
  | succ remaining ih =>
      obtain ⟨hCount, hOutput, hFinished⟩ := @agentStep_eq H E N graphJson inputs injectHistory st
      rw [agentIterations, bodyOutcomes]
      split
      · rename_i hDone
        constructor
        · exact hCount
        · exact Nat.succ_le_succ (Nat.zero_le _)
        · exact fun hNil => absurd hNil (List.cons_ne_nil _ _)
        · rintro outcome ⟨⟩
          exact ⟨hOutput, hFinished⟩
        · intro j outcome _ hMore
          rw [List.length_singleton] at hMore
          omega
        · exact .inr hDone
      · rename_i hGoesOn
        rw [Bool.not_eq_true] at hGoesOn
        exact (ih _).cons hCount hOutput hFinished hGoesOn

/-- The loop ends at the first iteration whose terminal output signals completion, else at the
limit, and reports the last terminal output. -/
structure StopsWhenTold (limit : Nat) (outcomes : List (Outcome H)) (final : AgentState H) : Prop
    where
  count : final.iterationsRun = outcomes.length
  length_le : outcomes.length ≤ limit
  silent : ∀ (j : Nat) (outcome : Outcome H), outcomes[j]? = some outcome →
    j + 1 < outcomes.length → signals outcome = false
  stops : outcomes.length = limit ∨ ∃ last ∈ outcomes.getLast?, signals last = true
  finished : ∀ last ∈ outcomes.getLast?, final.finished = signals last
  output : ∀ last ∈ outcomes.getLast?, ∀ output, terminalOf last = some output →
    final.lastOutput = output

def agentStart : AgentState H := ⟨[], .object [], false, 0, []⟩

theorem stopsWhenTold_of_only {limit : Nat} {final : AgentState H} {outcomes : List (Outcome H)}
    (h : Iterated limit agentStart final outcomes)
    (hOne : ∀ run, .ok run ∈ outcomes → run.OneTerminal)
    (hOnly : ∀ run, .ok run ∈ outcomes → run.OnlyTerminal) :
    StopsWhenTold limit outcomes final := by
  have hRead : ∀ outcome ∈ outcomes,
      agentFinished (iterationOutput outcome) = signals outcome := by
    intro outcome hMem
    refine agentFinished_iterationOutput (fun run hIs => ?_) fun run hIs => ?_
    · exact hOne run (hIs ▸ hMem)
    · exact hOnly run (hIs ▸ hMem)
  have hLast : ∀ last ∈ outcomes.getLast?, last ∈ outcomes :=
    fun last hIs => List.mem_of_getLast? hIs
  constructor
  · exact h.count.trans (Nat.zero_add _)
  · exact h.length_le
  · intro j outcome hAt hMore
    rw [← hRead outcome (List.mem_of_getElem? hAt)]
    exact h.goesOn j outcome hAt hMore
  · obtain hFull | hDone := h.stops
    · exact .inl hFull
    · cases hIs : outcomes.getLast? with
      | none =>
          rw [h.unchanged (List.getLast?_eq_none_iff.1 hIs)] at hDone
          cases hDone
      | some last =>
          refine .inr ⟨last, rfl, ?_⟩
          rw [← hRead last (hLast last hIs), ← (h.last last hIs).2, hDone]
  · intro last hIs
    rw [(h.last last hIs).2, hRead last (hLast last hIs)]
  · intro last hIs output hOutput
    rw [(h.last last hIs).1]
    refine iterationOutput_of_only (fun run hRun => ?_) (fun run hRun => ?_) hOutput
    · exact hOne run (hRun ▸ hLast last hIs)
    · exact hOnly run (hRun ▸ hLast last hIs)

variable {bodyWfId userId : Uuid} {maxIters : UInt32}

theorem tryDispatchAgentLoop_inTime (hFetcher : E.moduleFetcher.isNone = false)
    (hUser : E.userId = some userId)
    (hGraph : N.getSubWorkflowGraph bodyWfId userId = some graphJson) {final : AgentState H}
    (hFinal : final = E.agentIterations N graphJson inputs injectHistory
      (min (N.deadline.getD maxIters.toNat) maxIters.toNat) agentStart)
    (hInTime : (∀ limit ∈ N.deadline, maxIters.toNat ≤ limit) ∨ final.finished = true)
    (timeoutSecs : UInt64) :
    E.tryDispatchAgentLoop N bodyWfId maxIters injectHistory timeoutSecs inputs =
      ⟨.object [("final_output", final.lastOutput), ("finished", .bool final.finished),
        ("history", .array final.history), ("iterations", .ofCount final.iterationsRun)],
        final.runs⟩ := by
  have hNot : (!final.finished && decide (N.deadline.getD maxIters.toNat < maxIters.toNat)) =
      false := by
    obtain hLimit | hDone := hInTime
    · have hEnough : ¬ N.deadline.getD maxIters.toNat < maxIters.toNat := by
        cases hIs : N.deadline with
        | none => exact Nat.lt_irrefl _
        | some limit => exact Nat.not_lt.2 (hLimit limit hIs)
      rw [decide_eq_false hEnough, Bool.and_false]
    · rw [hDone, Bool.not_true, Bool.false_and]
  subst hFinal
  rw [agentStart] at hNot ⊢
  simp only [tryDispatchAgentLoop, hFetcher, hUser, hGraph, hNot, Bool.false_eq_true, if_false]

/-- An agent loop stops when it is told to as long as the terminal nodes of its body runs are the
only ones with an output, and a run with another output beside it is misread. -/
theorem agent_loop_stops_when_told (hFetcher : E.moduleFetcher.isNone = false)
    (hUser : E.userId = some userId)
    (hGraph : N.getSubWorkflowGraph bodyWfId userId = some graphJson)
    (hDeadline : ∀ limit ∈ N.deadline, maxIters.toNat ≤ limit) (timeoutSecs : UInt64) :
    ∃ final outcomes,
      outcomes = E.bodyOutcomes N graphJson inputs injectHistory maxIters.toNat agentStart ∧
      E.tryDispatchAgentLoop N bodyWfId maxIters injectHistory timeoutSecs inputs =
        ⟨.object [("final_output", final.lastOutput), ("finished", .bool final.finished),
          ("history", .array final.history), ("iterations", .ofCount final.iterationsRun)],
          final.runs⟩ ∧
      ((∀ run, .ok run ∈ outcomes → run.OneTerminal) →
        (∀ run, .ok run ∈ outcomes → run.OnlyTerminal) →
          StopsWhenTold maxIters.toNat outcomes final) ∧
      ∀ run, .ok run ∈ outcomes → run.OneTerminal → (run.labelled.map Prod.fst).Nodup →
        ∀ output, run.terminalOutput = some output →
          output = stripReserved run.collapsed ∧
            (agentOutput run = output ↔ run.OnlyTerminal) := by
  refine ⟨E.agentIterations N graphJson inputs injectHistory maxIters.toNat agentStart, _, rfl, ?_,
    stopsWhenTold_of_only (iterated_agentIterations _ _), ?_⟩
  · have hLimit : maxIters.toNat ≤ N.deadline.getD maxIters.toNat := by
      cases hIs : N.deadline with
      | none => exact Nat.le_refl _
      | some limit => exact hDeadline limit hIs
    exact tryDispatchAgentLoop_inTime hFetcher hUser hGraph (by rw [Nat.min_eq_right hLimit])
      (.inl hDeadline) timeoutSecs
  · intro run _ hOne hLabels output hOutput
    exact ⟨hOne.collapsed_eq hOutput, NestedRun.agentOutput_eq_iff hLabels hOne hOutput⟩

end Iterations

end ParallelWorkflowEngine

section Samples

open Multigraph

def singleEngine : ParallelWorkflowEngine (bareHost true) :=
  { answerEngine with
    graph := ⟨[7, 9], [⟨0, 1, {}⟩], by decide⟩
    nodeMap := nodeTable [(7, 0), (9, 1)] }

def singleContext (output : Json) : WorkflowContext where
  results := (nodeTable [(7, .null)]).insert 9 output

theorem singleEngine_returns {output : Json} (h : output = draftOutput ∨ output = answerOutput) :
    ∃ executionId initialResults s last t,
      singleEngine.Returns executionId initialResults s last t (.ok (singleContext output)) := by
  have hReplay : (replay (singleEngine.reactor 9 (nodeTable [(7, .null)])).step (fun _ _ => True)
      [.pop .accepted, .finish 0 (.ok output) 1]
      ((singleEngine.reactor 9 (nodeTable [(7, .null)])).initialState
        (nodeTable [(7, .null)]))).map (fun s => (decide s.Quiescent,
          (mapValues (singleEngine.reactor 9 (nodeTable [(7, .null)])).scrubOutput
            s.results).entries)) = some (true, (singleContext output).results.entries) := by
    obtain rfl | rfl := h
    · decide
    · decide
  exact returns_of_replay _ (acyclic_of_rank id (by decide)) rfl hReplay

def draftRun : NestedRun (bareHost true) :=
  ⟨singleEngine, singleContext draftOutput, singleEngine_returns (.inl rfl)⟩

def finalRun : NestedRun (bareHost true) :=
  ⟨singleEngine, singleContext answerOutput, singleEngine_returns (.inr rfl)⟩

/-- Two drafts, and then the answer that ends the loop. -/
def singleNesting : Nesting (bareHost true) :=
  { answerNesting with runGraph := fun call _ _ => .ok (if call < 3 then draftRun else finalRun) }

theorem agent_loop_stops_when_told_third :
    ∃ final, (gatedEngine.tryDispatchAgentLoop singleNesting 5 7 true 60 .null).report =
        .object [("final_output", final.lastOutput), ("finished", .bool final.finished),
          ("history", .array final.history), ("iterations", .ofCount final.iterationsRun)] ∧
      ParallelWorkflowEngine.StopsWhenTold 7 [.ok draftRun, .ok draftRun, .ok finalRun] final ∧
      final.iterationsRun = 3 ∧ final.finished = true := by
  obtain ⟨final, outcomes, hOutcomes, hReport, hStops, -⟩ :=
    @ParallelWorkflowEngine.agent_loop_stops_when_told (bareHost true) gatedEngine singleNesting
      .null .null true 5 5 7 rfl rfl rfl (fun _ h => absurd h (Option.not_mem_none _)) 60
  obtain rfl : outcomes = [.ok draftRun, .ok draftRun, .ok finalRun] := hOutcomes
  have hRuns : ∀ run, (.ok run : Outcome (bareHost true)) ∈
      [.ok draftRun, .ok draftRun, .ok finalRun] → run = draftRun ∨ run = finalRun := by
    intro run hMem
    simpa using hMem
  have hTold := hStops ?_ ?_
  · exact ⟨final, congrArg Handled.report hReport, hTold, hTold.count,
      hTold.finished (.ok finalRun) rfl⟩
  · intro run hMem
    obtain rfl | rfl := hRuns run hMem
    · exact ⟨1, by decide, by decide⟩
    · exact ⟨1, by decide, by decide⟩
  · intro run hMem
    obtain rfl | rfl := hRuns run hMem
    · decide
    · decide

/-- The answer says that the loop is finished, and the draft beside it keeps it going. -/
theorem agent_loop_misses_signal :
    answerRun.OneTerminal ∧ answerRun.terminalOutput = some answerOutput ∧
      ParallelWorkflowEngine.agentFinished answerOutput = true ∧
      (gatedEngine.bodyOutcomes answerNesting .null .null true 3
          ParallelWorkflowEngine.agentStart).map terminalOf =
        [some answerOutput, some answerOutput, some answerOutput] ∧
      let report := (gatedEngine.tryDispatchAgentLoop answerNesting 5 3 true 60 .null).report
      report.get "iterations" = some (.ofCount 3) ∧
        report.get "finished" = some (.bool false) ∧
        report.get "final_output" =
          some (.object [("answer", answerOutput), ("draft", draftOutput)]) := by
  refine ⟨?_, by decide, by decide, by decide, by decide, by decide, by decide⟩
  exact ⟨2, by decide, by decide⟩

end Samples

end TalosWorkflow
