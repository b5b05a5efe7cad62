import TalosWorkflow.Documents.Trigger
import TalosWorkflow.Gating.Seeds

/-!
# Trigger inputs of nested runs

A sub-workflow is triggered with the cleaned inputs of its node. The trigger
input of its parent is a reserved field, and cleaning removes it.
-/

namespace TalosWorkflow

open Json Multigraph

variable {H : Host}

section Cleaning

/-- The inputs of a sub-workflow node as the trigger of its run. -/
def withoutReserved : Json → Json
  | .object fields => .object (fields.filter fun field => !isReserved field.1)
  | .null => .object []
  | value => .object [("input", value)]

theorem filter_insertField {key : String} (h : isReserved key = true) (value : Json)
    (fields : List (String × Json)) :
    (insertField key value fields).filter (fun field => !isReserved field.1) =
      fields.filter fun field => !isReserved field.1 := by
  induction fields with
  | nil => simp [insertField, h]
  | cons field rest ih =>
      obtain ⟨k, v⟩ := field
      rw [insertField]
      split
      · rename_i hKey
        rw [← hKey, List.filter_cons_of_neg (by simp [h]), List.filter_cons_of_neg (by simp [h])]
      · split
        · rw [List.filter_cons_of_neg (by simp [h])]
        · rw [List.filter_cons, List.filter_cons, ih]

theorem stripReserved_childTrigger (inputs trigger : Json) :
    stripReserved (ParallelWorkflowEngine.childTrigger inputs (some trigger)) =
      withoutReserved inputs := by
  have hTrigger : isReserved "__trigger_input__" = true := by decide
  have hInput : isReserved "input" = false := by decide
  cases inputs with
  | object fields => exact congrArg Json.object (filter_insertField hTrigger trigger fields)
  | _ => simp [ParallelWorkflowEngine.childTrigger, stripReserved, withoutReserved, hTrigger, hInput]

theorem lookup_filter_reserved {key : String} (h : isReserved key = true)
    (fields : List (String × Json)) :
    (fields.filter fun field => !isReserved field.1).lookup key = none := by
  rw [List.lookup_eq_none_iff]
  intro field hField
  apply bne_iff_ne.2
  rintro rfl
  have hKept := (List.mem_filter.1 hField).2
  rw [h] at hKept
  cases hKept

theorem get_withoutReserved {key : String} (h : isReserved key = true) (inputs : Json) :
    (withoutReserved inputs).get key = none := by
  cases inputs with
  | object fields => exact lookup_filter_reserved h fields
  | null => rfl
  | _ =>
      have hInput : isReserved "input" = false := by decide
      have hNe : key ≠ "input" := by
        rintro rfl
        rw [hInput] at h
        cases h
      change [("input", _)].lookup key = none
      rw [List.lookup_cons, beq_false_of_ne hNe]
      rfl

end Cleaning

namespace ParallelWorkflowEngine

variable (E : ParallelWorkflowEngine H)

section Payloads

/-- The input that the run of a sub-workflow node is triggered with. -/
def subWorkflowTrigger (idx : NodeIndex) (results : Table Json) : Json :=
  stripReserved (childTrigger (E.gatherInputs idx results) (E.extractTriggerInput results))

/-- A loop prefers what its inputs carry, and takes the trigger's output as it is. -/
def loopTriggerInput (idx : NodeIndex) (results : Table Json) : Option Json :=
  ((E.gatherInputs idx results).get "__trigger_input__").or (E.triggerOutput results)

variable {E}

theorem wrappedInput_trigger {d : DispatchContext} {trigger : Json}
    (h : d.triggerInput = some trigger) (config inputs : Json) :
    (E.wrappedInput d config inputs).get "__trigger_input__" = some trigger := by
  unfold wrappedInput
  rw [h]
  exact lookup_insertField_self _ _ _

theorem loopInput_trigger {d : DispatchContext} {trigger : Json}
    (h : d.triggerInput = some trigger) (bodyId : Uuid) (iteration : UInt32) (current : Json) :
    (E.loopInput d bodyId iteration current).get "__trigger_input__" = some trigger := by
  rw [loopInput, h]
  change (orInsertField (orInsertField (insertField "__trigger_input__" trigger _) _) _).lookup
    "__trigger_input__" = _
  rw [lookup_orInsertField_ne (by decide), lookup_orInsertField_ne (by decide),
    lookup_insertField_self]

end Payloads

end ParallelWorkflowEngine

section Jobs

variable (R : Reactor H)

/-- The jobs of module nodes that a state sends when it takes its next node, with the trigger
input that the inputs of a loop carry. -/
inductive Reactor.SendsJob (s : State) : Option Json → DispatchJob → Prop
  | single (d : DispatchContext) (idx : NodeIndex) (job : DispatchJob)
      (hHead : s.ready.head? = some idx) (hSkips : R.skips s idx = none)
      (hKind : R.runsModule idx = true) (hTrigger : d.triggerInput = R.extractTriggerInput s.results)
      (hJob : R.runSingleNodeDispatch d (R.nodeId idx) (R.gatherInputs idx s.results) = .ok job) :
      SendsJob s none job
  | iterated (d : DispatchContext) (idx : NodeIndex) (maxIterations : UInt32) (condition : String)
      (bodyId moduleId : Uuid) (artifact : WasmModuleArtifact) (iteration : UInt32) (current : Json)
      (hHead : s.ready.head? = some idx) (hSkips : R.skips s idx = none)
      (hKind : R.kindOf (R.nodeId idx) = some (.loop maxIterations condition))
      (hBody : R.loopBody (R.nodeId idx) = some (bodyId, moduleId))
      (hFetch : R.fetchModule d bodyId = .ok artifact)
      (hTrigger : d.triggerInput = R.loopTriggerInput idx s.results) :
      SendsJob s ((R.gatherInputs idx s.results).get "__trigger_input__")
        (R.loopJob d bodyId moduleId artifact iteration current)

variable {R}

/-- What the jobs of a state see, when the trigger's output carries no outer trigger input. -/
theorem Reactor.SendsJob.sees {s : State} {own : Option Json} {job : DispatchJob} {input : Json}
    (h : R.SendsJob s own job) (hOutput : R.triggerOutput s.results = some input)
    (hPlain : input.get "__trigger_input__" = none) :
    job.inputPayload.get "__trigger_input__" = some (own.getD input) := by
  cases h with
  | single d idx job hHead hSkips hKind hTrigger hJob =>
      obtain ⟨artifact, -, -, rfl⟩ := ParallelWorkflowEngine.runSingleNodeDispatch_ok hJob
      rw [ParallelWorkflowEngine.extractTriggerInput, hOutput, Option.map_some, hPlain] at hTrigger
      exact ParallelWorkflowEngine.wrappedInput_trigger hTrigger _ _
  | iterated d idx maxIterations condition bodyId moduleId artifact iteration current hHead hSkips
      hKind hBody hFetch hTrigger =>
      rw [ParallelWorkflowEngine.loopTriggerInput, hOutput] at hTrigger
      apply ParallelWorkflowEngine.loopInput_trigger
      rw [hTrigger]
      cases (R.gatherInputs idx s.results).get "__trigger_input__" <;> rfl

end Jobs

section Levels

def seedTrigger (trigger : Uuid) (input : Json) : Table Json := (∅ : Table Json).insert trigger input

/-- A state of a run that was seeded with the input of its trigger. -/
structure TriggeredRun (H : Host) where
  engine : ParallelWorkflowEngine H
  trigger : Uuid
  input : Json
  executionId : Uuid
  state : State
  labelled : engine.triggerId = some trigger
  reached : engine.Runs executionId (seedTrigger trigger input)
    (AvoidsSeeds (seedTrigger trigger input)) state

namespace TriggeredRun

def reactor (run : TriggeredRun H) : Reactor H :=
  run.engine.reactor run.executionId (seedTrigger run.trigger run.input)

/-- The engine of a nested run with its trigger. -/
def Spawns (parent E : ParallelWorkflowEngine H) (trigger : Uuid) : Prop :=
  ∃ read graphJson loaded actorContext fresh,
    parent.adapterSet.intoEngineWithGraph read graphJson = .ok loaded ∧
      ({ loaded with actorContext := actorContext } :
        ParallelWorkflowEngine H).ensureTriggerNodeWiredToRoots fresh = some (E, trigger)

/-- A queued sub-workflow node of the parent starts the run of the child. -/
structure Starts (parent child : TriggeredRun H) (idx : NodeIndex) : Prop where
  ready : idx ∈ parent.state.ready
  kind : ∃ workflowId timeoutSecs, parent.engine.kindOf (parent.engine.nodeId idx) =
    some (.subWorkflow workflowId timeoutSecs)
  spawned : Spawns parent.engine child.engine child.trigger
  input : child.input = parent.engine.subWorkflowTrigger idx parent.state.results

def StartsSome (parent child : TriggeredRun H) : Prop := ∃ idx, parent.Starts child idx

/-- The input that the parent gathers at a node, without reserved fields. -/
def cleanedInput (run : TriggeredRun H) (idx : NodeIndex) : Json :=
  withoutReserved (run.engine.gatherInputs idx run.state.results)

theorem triggerOutput (run : TriggeredRun H) :
    run.engine.triggerOutput run.state.results = some run.input := by
  have hSeed : run.trigger ∈ seedTrigger run.trigger run.input :=
    (AList.mem_insert _).2 (.inl rfl)
  rw [ParallelWorkflowEngine.triggerOutput, run.labelled, Option.bind_some,
    (SeedsKept.of_runs run.reached).results _ hSeed]
  exact AList.lookup_insert _

theorem Starts.input_eq {parent child : TriggeredRun H} {idx : NodeIndex}
    (h : parent.Starts child idx) : child.input = parent.cleanedInput idx := by
  rw [h.input, ParallelWorkflowEngine.subWorkflowTrigger, ParallelWorkflowEngine.extractTriggerInput,
    parent.triggerOutput]
  exact stripReserved_childTrigger _ _

/-- A job of a nested run sees what its own inputs carry, or else what started the run. -/
theorem Starts.sees {parent child : TriggeredRun H} {idx : NodeIndex} {own : Option Json}
    {job : DispatchJob} (h : parent.Starts child idx)
    (hSends : child.reactor.SendsJob child.state own job) :
    job.inputPayload.get "__trigger_input__" = some (own.getD (parent.cleanedInput idx)) := by
  have hPlain : child.input.get "__trigger_input__" = none := by
    rw [h.input_eq]
    exact get_withoutReserved (by decide) _
  rw [← h.input_eq]
  exact hSends.sees child.triggerOutput hPlain

/-- At every depth the jobs of nested runs see the input of the root exactly if it is what each
nested run is started with. -/
theorem trigger_input_survives_iff (root : TriggeredRun H) :
    (∀ run, Relation.TransGen StartsSome root run → ∀ own job,
      run.reactor.SendsJob run.state own job →
        job.inputPayload.get "__trigger_input__" = some root.input) ↔
      ∀ parent child idx, Relation.ReflTransGen StartsSome root parent →
        parent.Starts child idx → ∀ own job, child.reactor.SendsJob child.state own job →
          own.getD (parent.cleanedInput idx) = root.input := by
  constructor
  · intro hSurvives parent child idx hAbove hStarts own job hSends
    have hSeen := hSurvives child (.tail' hAbove ⟨idx, hStarts⟩) own job hSends
    rw [hStarts.sees hSends] at hSeen
    exact Option.some.inj hSeen
  · intro hStarted run hBelow own job hSends
    obtain ⟨parent, hAbove, idx, hStarts⟩ := Relation.TransGen.tail'_iff.1 hBelow
    rw [hStarts.sees hSends, hStarted parent run idx hAbove hStarts own job hSends]

end TriggeredRun

end Levels

section Samples

def askingEngine : ParallelWorkflowEngine (bareHost true) :=
  { ParallelWorkflowEngine.new with
    graph := ⟨[9, 1, 2], [⟨0, 1, {}⟩, ⟨1, 2, {}⟩], by decide⟩
    nodeMap := nodeTable [(9, 0), (1, 1), (2, 2)]
    nodeLabels := nodeTable [(9, "__trigger__")]
    nodeMeta := nodeTable
      [(9, ⟨none, none, none⟩), (1, moduleNode), (2, systemNode (.subWorkflow 6 30))]
    userId := some 5 }

def askedQuestion : Json := .object [("question", .string "why")]

def givenAnswer : Json := .object [("answer", .string "so")]

def askedEngine : ParallelWorkflowEngine (bareHost true) :=
  match askingEngine.adapterSet.intoEngineWithGraph plainFormat.graphReader
      ParallelWorkflowEngine.singleNodeGraph with
  | .ok E => ((E.ensureTriggerNodeWiredToRoots 8).map Prod.fst).getD E
  | .error _ => .new

def askedContext : DispatchContext where
  executionId := 4
  freshJobId := 0
  workerSharedKey := none
  prefetchedModules := nodeTable
    [(1, ⟨2, "", [0], none, 0, "minimal", [], [], [], [], none, none⟩)]
  localModule := none
  accumulated := none
  triggerInput := some givenAnswer
  defaultNodeTimeoutSecs := 30
  natsTimeoutFloorSecs := 0

/-- The module between the trigger and the sub-workflow replaces the question. -/
theorem trigger_input_replaced :
    ¬ ∀ (root run : TriggeredRun (bareHost true)) (own : Option Json) (job : DispatchJob),
      root.input.get "__trigger_input__" = none →
      Relation.TransGen TriggeredRun.StartsSome root run →
      run.reactor.SendsJob run.state own job →
      job.inputPayload.get "__trigger_input__" = some root.input := by
  intro hAll
  let R := askingEngine.reactor 3 (seedTrigger 9 askedQuestion)
  have hReplay : (replay R.step (AvoidsSeeds (seedTrigger 9 askedQuestion) R)
      [.pop .accepted, .finish 0 (.ok givenAnswer) 1, .visit]
      (R.initialState (seedTrigger 9 askedQuestion))).map (fun s =>
        (s.ready, askingEngine.subWorkflowTrigger 2 s.results)) = some ([2], givenAnswer) := by
    decide
  obtain ⟨s, hs, hState⟩ := Option.map_eq_some_iff.1 hReplay
  obtain ⟨hReady, hTrigger⟩ := Prod.mk.inj hState
  have hKind : askingEngine.kindOf (askingEngine.nodeId 2) = some (.subWorkflow 6 30) := by decide
  have hAcyclic : askingEngine.graph.Acyclic := acyclic_of_rank id (by decide)
  let root : TriggeredRun (bareHost true) :=
    ⟨askingEngine, 9, askedQuestion, 3, s, by decide, hAcyclic, replay_run hs⟩
  have hSpawned : askedEngine.triggerId = some 8 := by decide
  have hAcyclic' : askedEngine.graph.Acyclic := acyclic_of_rank (fun n => 1 - n) (by decide)
  let run : TriggeredRun (bareHost true) :=
    ⟨askedEngine, 8, givenAnswer, 4, (askedEngine.reactor 4 (seedTrigger 8 givenAnswer)).initialState
      (seedTrigger 8 givenAnswer), hSpawned, hAcyclic', .refl⟩
  have hStarts : root.Starts run 2 := by
    constructor
    · change 2 ∈ s.ready
      rw [hReady]
      exact List.mem_singleton_self _
    · exact ⟨6, 30, hKind⟩
    · exact ⟨plainFormat.graphReader, ParallelWorkflowEngine.singleNodeGraph, _, none, 8, rfl, rfl⟩
    · exact hTrigger.symm
  have hHead : ((askedEngine.reactor 4 (seedTrigger 8 givenAnswer)).initialState
      (seedTrigger 8 givenAnswer)).ready.head? = some 0 := by decide
  have hSends : run.reactor.SendsJob run.state none
      (askedEngine.singleJob askedContext 1
        ⟨2, "", [0], none, 0, "minimal", [], [], [], [], none, none⟩ givenAnswer) := by
    apply Reactor.SendsJob.single askedContext 0
    · exact hHead
    · rfl
    · rfl
    · rfl
    · rfl
  have hSeen := hAll root run none _ rfl (.single ⟨2, hStarts⟩) hSends
  exact absurd hSeen (by decide : some givenAnswer ≠ some askedQuestion)

end Samples

end TalosWorkflow
