import TalosWorkflow.Handlers.Triggers
import TalosWorkflow.Library.Bounded

/-!
# Iterations of a loop node

Each iteration is given the output of the one before, with a counter where that
output has none. The condition is evaluated on the output, with the same counter.
-/

namespace TalosWorkflow

open Json

variable {H : Host}

/-- The counter of an iteration, as a JSON number. -/
def iterationCount (k : Nat) : Json := unsigned (UInt32.ofNat k).toUInt64

/-- What `fetch_module` answers when it fails. -/
def DispatchFailure.fetchError : DispatchFailure → String
  | .fetchFailed message => message
  | _ => "Module execution requires user context (user_id not set)"

structure LoopFailure where
  terminationReason : String
  lastOutput : Json
  message : String

namespace ParallelWorkflowEngine

section Iterations

variable (E : ParallelWorkflowEngine H) (d : Nat → DispatchContext)
  (body : Nat → DispatchJob → Except String Json) (bodyId moduleId : Uuid)
  (trigger : Option Json)

/-- The output as the condition sees it after `k` iterations. -/
def conditionContext (k : Nat) : Json → Json
  | .object fields =>
      .object (orInsertField (orInsertField fields ("iteration_count", iterationCount k))
        ("iteration", iterationCount k))
  | output =>
      .object [("iteration", iterationCount k), ("iteration_count", iterationCount k),
        ("output", output)]

def iterationJob (k : Nat) (artifact : WasmModuleArtifact) (current : Json) : DispatchJob :=
  E.loopJob { d k with triggerInput := trigger } bodyId moduleId artifact (UInt32.ofNat k) current

/-- Iteration `k`; an error envelope of the body counts as its failure. -/
def runIteration (k : Nat) (current : Json) : Turn Json LoopFailure :=
  match E.fetchModule (d k) bodyId with
  | .error failure =>
      let message := "Module fetch failed: " ++ failure.fetchError
      .stop ⟨"module_fetch_error", errorEnvelope message, message⟩
  | .ok artifact =>
      match body k (E.iterationJob d bodyId moduleId trigger k artifact current) with
      | .error message => .stop ⟨"body_error", errorEnvelope message, message⟩
      | .ok output =>
          let clean := unwrapOutput output
          if isErrorOutput clean then
            .stop ⟨"body_error", clean,
              errorMessageOr clean "loop body returned an error envelope"⟩
          else .next clean

def loopReport (iterations : Nat) : Ending Json LoopFailure → Json
  | .refused output =>
      .object [("iterations", iterationCount iterations), ("output", output),
        ("termination_reason", .string "condition_false")]
  | .exhausted output =>
      .object [("iterations", iterationCount iterations), ("output", output),
        ("termination_reason", .string "max_iterations")]
  | .stopped failure =>
      .object [("__error", .bool true), ("error_message", .string failure.message),
        ("iterations", iterationCount iterations), ("output", failure.lastOutput),
        ("termination_reason", .string failure.terminationReason)]

/-- The inputs of the loop come before the output of the trigger. -/
def iterationTrigger (inputs : Json) (results : Table Json) : Option Json :=
  (inputs.get "__trigger_input__").or (E.triggerOutput results)

def loopContinues (condition : String) (k : Nat) (output : Json) : Bool :=
  E.evalBool condition (conditionContext k output)

def runLoopIterations (inputs : Json) (condition : String) (maxIters : UInt32)
    (results : Table Json) : Json :=
  let (iterations, ending) := boundedLoop
    (E.runIteration d body bodyId moduleId (E.iterationTrigger inputs results))
    (E.loopContinues condition) maxIters.toNat 0 inputs
  loopReport iterations ending

/-- The counter that an input of an iteration brings along, if any. -/
def inheritedCount (current : Json) : Option Json :=
  ((Json.insertAll [] (current.asObject.getD [])).lookup "iteration_count").or
    ((E.nodeConfigs.lookup bodyId).bind (·.get "iteration_count"))

end Iterations

section Counters

theorem lookup_foldl_orInsertField (more fields : List (String × Json)) (key : String) :
    (more.foldl orInsertField fields).lookup key = (fields.lookup key).or (more.lookup key) := by
  induction more generalizing fields with
  | nil => rw [List.foldl_nil, List.lookup_nil, Option.or_none]
  | cons field rest ih =>
      obtain ⟨k, v⟩ := field
      rw [List.foldl_cons, ih]
      by_cases hKey : key = k
      · rw [hKey, lookup_orInsertField_self, List.lookup_cons_self]
        cases fields.lookup k <;> rfl
      · rw [lookup_orInsertField_ne hKey, List.lookup_cons, beq_false_of_ne hKey]

variable {E : ParallelWorkflowEngine H}

/-- The configuration of the body only adds a counter that the input does not have. -/
theorem loopInput_count (d : DispatchContext) (bodyId : Uuid) (iteration : UInt32)
    (current : Json) :
    (E.loopInput d bodyId iteration current).get "iteration_count" =
      some ((E.inheritedCount bodyId current).getD (unsigned iteration.toUInt64)) := by
  have hOptional : ∀ (value : Option Json) (fields : List (String × Json)),
      (Json.insertOptional "__trigger_input__" value fields).lookup "iteration_count" =
        fields.lookup "iteration_count" := by
    intro value fields
    cases value with
    | none => rfl
    | some v => exact lookup_insertField_ne (by decide) v fields
  have hInput : ∀ fields : List (String × Json),
      (if current = .null ∨ current = .object [] then fields
        else orInsertField fields ("input", current)).lookup "iteration_count" =
          fields.lookup "iteration_count" := by
    intro fields
    split
    · rfl
    · exact lookup_orInsertField_ne (by decide) current fields
  rw [loopInput]
  change (orInsertField (orInsertField (Json.insertOptional _ _ _) _) _).lookup "iteration_count" = _
  rw [lookup_orInsertField_ne (by decide), lookup_orInsertField_self, hOptional, hInput,
    inheritedCount]
  refine congrArg (fun found : Option Json => some (found.getD (unsigned iteration.toUInt64))) ?_
  split
  · rename_i field rest hFound
    rw [lookup_foldl_orInsertField, lookup_insertField_ne (by decide), hFound]
    rfl
  · rename_i hNone
    cases hFound : E.nodeConfigs.lookup bodyId with
    | none => rw [Option.bind_none, Option.or_none]
    | some config =>
        cases config with
        | object settings =>
            cases settings with
            | nil => exact (Option.or_none).symm
            | cons field rest => exact absurd hFound (hNone field rest)
        | null | bool b | number n | string s | array items => exact (Option.or_none).symm

theorem conditionContext_count (k : Nat) (output : Json) :
    (conditionContext k output).get "iteration_count" =
      some ((output.get "iteration_count").getD (iterationCount k)) := by
  cases output with
  | object fields =>
      change (orInsertField (orInsertField fields _) _).lookup "iteration_count" = _
      rw [lookup_orInsertField_ne (by decide), lookup_orInsertField_self]
      rfl
  | null | bool b | number n | string s | array items => rfl

end Counters

end ParallelWorkflowEngine

/-- One call of `run_loop_iterations`, with the contexts and the answers of its dispatches. -/
structure LoopRun (H : Host) where
  engine : ParallelWorkflowEngine H
  d : Nat → DispatchContext
  body : Nat → DispatchJob → Except String Json
  bodyId : Uuid
  moduleId : Uuid
  inputs : Json
  condition : String
  maxIters : UInt32
  results : Table Json

namespace LoopRun

section Calls

variable (run : LoopRun H)

def report : Json :=
  run.engine.runLoopIterations run.d run.body run.bodyId run.moduleId run.inputs run.condition
    run.maxIters run.results

def trigger : Option Json := run.engine.iterationTrigger run.inputs run.results

def iteration : Nat → Json → Turn Json LoopFailure :=
  run.engine.runIteration run.d run.body run.bodyId run.moduleId run.trigger

/-- The input of iteration `n + 1`. -/
def Given : Nat → Json → Prop :=
  IsTurned run.iteration (run.engine.loopContinues run.condition) run.maxIters.toNat run.inputs

/-- The output of iteration `n`, on which the condition is evaluated. -/
def Tested : Nat → Json → Prop :=
  IsTested run.iteration (run.engine.loopContinues run.condition) run.maxIters.toNat run.inputs

/-- The condition says that the counter is below `b`. -/
def CountsBelow (b : Nat) : Prop :=
  ∀ k context, k ≤ run.maxIters.toNat → context.get "iteration_count" = some (iterationCount k) →
    run.engine.evalBool run.condition context = decide (k < b)

/-- The payload and the context of iteration `k` carry the counter `k`, which therefore ends the
loop where the condition says so. -/
structure CounterAdvances : Prop where
  payload : ∀ n current artifact, run.Given n current →
    run.engine.fetchModule (run.d (n + 1)) run.bodyId = .ok artifact →
      (run.engine.iterationJob run.d run.bodyId run.moduleId run.trigger (n + 1) artifact
        current).inputPayload.get "iteration_count" = some (iterationCount (n + 1))
  context : ∀ n output, run.Tested n output →
    (ParallelWorkflowEngine.conditionContext n output).get "iteration_count" =
      some (iterationCount n)
  ends : ∀ b, 0 < b → b ≤ run.maxIters.toNat → run.CountsBelow b →
    (∀ n current, run.Given n current → ∃ output, run.iteration (n + 1) current = .next output) →
      run.report.get "iterations" = some (iterationCount b)

/-- What is found is the counter `k`, if anything is. -/
def Agrees (found : Option Json) (k : Nat) : Prop := ∀ count ∈ found, count = iterationCount k

/-- No iteration inherits or returns a counter other than its own. -/
structure CounterFree : Prop where
  inherited : ∀ n current artifact, run.Given n current →
    run.engine.fetchModule (run.d (n + 1)) run.bodyId = .ok artifact →
      Agrees (run.engine.inheritedCount run.bodyId current) (n + 1)
  returned : ∀ n output, run.Tested n output → Agrees (output.get "iteration_count") n

end Calls

variable {run : LoopRun H}

theorem agrees_iff {found : Option Json} {k : Nat} :
    some (found.getD (iterationCount k)) = some (iterationCount k) ↔ Agrees found k := by
  cases found with
  | none => exact ⟨fun _ count hNone => absurd hNone (Option.not_mem_none count), fun _ => rfl⟩
  | some count =>
      constructor
      · rintro hSame found hFound
        cases hFound
        exact Option.some.inj hSame
      · intro hAgrees
        exact congrArg some (hAgrees count rfl)

theorem loopReport_iterations (iterations : Nat) (ending : Ending Json LoopFailure) :
    (ParallelWorkflowEngine.loopReport iterations ending).get "iterations" =
      some (iterationCount iterations) := by
  cases ending <;> rfl

theorem report_iterations : run.report.get "iterations" =
    some (iterationCount (boundedLoop run.iteration (run.engine.loopContinues run.condition)
      run.maxIters.toNat 0 run.inputs).1) :=
  loopReport_iterations _ _

/-- The counter advances exactly when no iteration inherits or returns another one. -/
theorem counter_advances_iff (run : LoopRun H) : run.CounterAdvances ↔ run.CounterFree := by
  have hPayload : ∀ n current artifact,
      (run.engine.iterationJob run.d run.bodyId run.moduleId run.trigger (n + 1) artifact
        current).inputPayload.get "iteration_count" =
      some ((run.engine.inheritedCount run.bodyId current).getD (iterationCount (n + 1))) :=
    fun n current artifact => ParallelWorkflowEngine.loopInput_count _ _ _ _
  constructor
  · intro hAdvances
    constructor
    · intro n current artifact hGiven hFetch
      rw [← agrees_iff, ← hPayload n current artifact]
      exact hAdvances.payload n current artifact hGiven hFetch
    · intro n output hTested
      rw [← agrees_iff, ← ParallelWorkflowEngine.conditionContext_count]
      exact hAdvances.context n output hTested
  · intro hFree
    have hContext : ∀ n output, run.Tested n output →
        (ParallelWorkflowEngine.conditionContext n output).get "iteration_count" =
          some (iterationCount n) := by
      intro n output hTested
      rw [ParallelWorkflowEngine.conditionContext_count]
      exact agrees_iff.2 (hFree.returned n output hTested)
    refine ⟨fun n current artifact hGiven hFetch => ?_, hContext, fun b hPos hLe hBelow hNext => ?_⟩
    · rw [hPayload]
      exact agrees_iff.2 (hFree.inherited n current artifact hGiven hFetch)
    · rw [report_iterations]
      refine congrArg (fun k => some (iterationCount k)) (boundedLoop_count hPos hLe ?_ hNext)
      intro n output hTested
      exact hBelow n _ hTested.lt.le (hContext n output hTested)

section Samples

/-- The condition `iteration_count < 2`, whatever its text. -/
def belowTwo : ExpressionEvaluator :=
  ⟨fun _ context => ((context.get "iteration_count").bind asU64).any (· < 2)⟩

def echoRun : LoopRun (bareHost true) where
  engine :=
    { (ParallelWorkflowEngine.new : ParallelWorkflowEngine (bareHost true)) with
      expressionEvaluator := some belowTwo }
  d _ := ⟨9, 0, none, ∅, some (.ok [1]), none, none, 60, 0⟩
  body _ job := .ok job.inputPayload
  bodyId := 1
  moduleId := 7
  inputs := .object []
  condition := "iteration_count < 2"
  maxIters := 3
  results := ∅

/-- The first payload is echoed, and its counter is that of every later iteration. -/
theorem echoed_counter_stays :
    echoRun.report.get "iterations" = some (iterationCount 3) ∧
      echoRun.report.get "termination_reason" = some (.string "max_iterations") ∧
      ¬ echoRun.CounterAdvances := by
  refine ⟨by decide, by decide, fun hAdvances => ?_⟩
  have hFirst : ∃ output, echoRun.iteration 1 echoRun.inputs = .next output ∧
      echoRun.engine.loopContinues echoRun.condition 1 output = true ∧
      ∃ artifact, echoRun.engine.fetchModule (echoRun.d 2) echoRun.bodyId = .ok artifact ∧
        (echoRun.engine.iterationJob echoRun.d echoRun.bodyId echoRun.moduleId echoRun.trigger 2
          artifact output).inputPayload.get "iteration_count" = some (iterationCount 1) :=
    ⟨_, rfl, rfl, _, rfl, rfl⟩
  obtain ⟨output, hTurn, hTest, artifact, hFetch, hCount⟩ := hFirst
  have hGiven : echoRun.Given 1 output :=
    { atHead := .turned .start (by decide) (fun hPos => absurd hPos (by decide)) hTurn
      lt := by decide
      test := fun _ => hTest }
  have hSecond := hAdvances.payload 1 output artifact hGiven hFetch
  rw [hCount] at hSecond
  exact absurd hSecond (by decide)

end Samples

end LoopRun

end TalosWorkflow
