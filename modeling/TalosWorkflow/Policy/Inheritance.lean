import TalosWorkflow.Adapters
import TalosWorkflow.Ledger.FreshRuns

/-!
# Inheritance of policy

Nested engines keep what their adapter sets hand on, except for the tier
ceiling.
-/

namespace TalosWorkflow

variable {H : Host}

section Nesting

/-- An engine that `depth` constructions lead to. In between, handlers prepare the graph of an
engine and its actor context. -/
inductive Nested (root : ParallelWorkflowEngine H) : Nat → ParallelWorkflowEngine H → Prop
  | root : Nested root 0 root
  | prepared (depth : Nat) (E : ParallelWorkflowEngine H) (document : GraphDocument)
      (actorContext : Option Json) (hNested : Nested root depth E) :
      Nested root depth { E.withDocument document with actorContext := actorContext }
  | built (depth : Nat) (E : ParallelWorkflowEngine H) (hNested : Nested root depth E) :
      Nested root (depth + 1) E.adapterSet.intoEngine
  | loaded (depth : Nat) (E E' : ParallelWorkflowEngine H) (read : GraphReader) (graphJson : Json)
      (hNested : Nested root depth E)
      (hLoaded : E.adapterSet.intoEngineWithGraph read graphJson = .ok E') :
      Nested root (depth + 1) E'

variable {root E E' : ParallelWorkflowEngine H} {depth : Nat}

/-- The adapters and settings of an engine, apart from its tier ceiling and depth. -/
def ParallelWorkflowEngine.inherited (E : ParallelWorkflowEngine H) : AdapterSet H :=
  { E.adapterSet with maxLlmTier := default, currentSubflowDepth := 0 }

theorem intoEngineWithGraph_ok {read : GraphReader} {graphJson : Json}
    (h : E.adapterSet.intoEngineWithGraph read graphJson = .ok E') :
    saturatingAdd E.currentSubflowDepth 1 ≤ E.maxSubflowDepth ∧
      ∃ document, E' = E.adapterSet.intoEngine.withDocument document := by
  rw [AdapterSet.intoEngineWithGraph] at h
  dsimp only at h
  split at h
  · cases h
  · rename_i hDepth
    refine ⟨UInt64.not_lt.1 hDepth, ?_⟩
    cases hRead : read E.adapterSet.intoEngine.maxWorkflowNodes E.adapterSet.intoEngine.actorId
        graphJson with
    | error e =>
        rw [hRead] at h
        cases h
    | ok document =>
        rw [hRead] at h
        cases h
        exact ⟨document, rfl⟩

theorem Nested.inherited (h : Nested root depth E) : E.inherited = root.inherited := by
  induction h with
  | root => rfl
  | prepared depth E document actorContext hNested ih => exact ih
  | built depth E hNested ih => exact ih
  | loaded depth E E' read graphJson hNested hLoaded ih =>
      obtain ⟨-, document, rfl⟩ := intoEngineWithGraph_ok hLoaded
      exact ih

/-- The ceiling of a nested engine is the default, whatever the root's is. -/
theorem Nested.maxLlmTier (h : Nested root depth E) :
    E.maxLlmTier = if depth = 0 then root.maxLlmTier else .tier2 := by
  induction h with
  | root => rfl
  | prepared depth E document actorContext hNested ih => exact ih
  | built depth E hNested ih => rfl
  | loaded depth E E' read graphJson hNested hLoaded ih =>
      obtain ⟨-, document, rfl⟩ := intoEngineWithGraph_ok hLoaded
      rfl

theorem saturatingAdd_one (a : UInt64) :
    (saturatingAdd a 1).toNat = min (a.toNat + 1) usizeMax := by
  have hSize : a.toNat < 2 ^ 64 := a.toNat_lt
  have hOne : (1 : UInt64).toNat = 1 := rfl
  rw [saturatingAdd]
  split
  · rename_i hFits
    rw [hOne] at hFits
    rw [UInt64.toNat_add, hOne, min_eq_left hFits, Nat.mod_eq_of_lt]
    rw [usizeMax] at hFits
    omega
  · rename_i hFull
    rw [hOne] at hFull
    rw [min_eq_right (by omega)]
    rfl

theorem Nested.currentSubflowDepth (h : Nested root depth E) :
    E.currentSubflowDepth.toNat = min (root.currentSubflowDepth.toNat + depth) usizeMax := by
  have hStep : ∀ {n : Nat} {a : UInt64},
      a.toNat = min (root.currentSubflowDepth.toNat + n) usizeMax →
        (saturatingAdd a 1).toNat = min (root.currentSubflowDepth.toNat + (n + 1)) usizeMax := by
    intro n a ha
    rw [saturatingAdd_one, ha]
    omega
  induction h with
  | root =>
      have hSize : root.currentSubflowDepth.toNat < 2 ^ 64 := root.currentSubflowDepth.toNat_lt
      rw [Nat.add_zero, min_eq_left]
      rw [usizeMax]
      omega
  | prepared depth E document actorContext hNested ih => exact ih
  | built depth E hNested ih => exact hStep ih
  | loaded depth E E' read graphJson hNested hLoaded ih =>
      obtain ⟨-, document, rfl⟩ := intoEngineWithGraph_ok hLoaded
      exact hStep ih

end Nesting

section Inheritance

/-- Jobs and sealed secrets of `E` obey the ceiling of `root`, the other settings are those of
`root`, and `E` lies `depth` levels below it. -/
structure InheritsPolicy (root E : ParallelWorkflowEngine H) (depth : Nat) : Prop where
  singleJobs : ∀ d nodeId artifact inputs,
    (E.singleJob d nodeId artifact inputs).maxLlmTier = root.maxLlmTier
  loopJobs : ∀ d bodyId moduleId artifact iteration current,
    (E.loopJob d bodyId moduleId artifact iteration current).maxLlmTier = root.maxLlmTier
  chains : ∀ d head rest chainInput request,
    E.runPipelineChainDispatch d head rest chainInput = .ok request →
      request.maxLlmTier = root.maxLlmTier ∧ ∀ job ∈ request.steps, job.maxLlmTier = root.maxLlmTier
  prefetch : prefetchesLlmKeys E.maxLlmTier = prefetchesLlmKeys root.maxLlmTier
  secrets : E.secretsFor = root.secretsFor
  inherited : E.inherited = root.inherited
  depth : E.currentSubflowDepth.toNat = root.currentSubflowDepth.toNat + depth

variable {root E : ParallelWorkflowEngine H} {depth : Nat}

theorem secretsFor_eq (hInherited : E.inherited = root.inherited)
    (hTier : E.maxLlmTier = root.maxLlmTier) : E.secretsFor = root.secretsFor := by
  have hResolver : E.secretsResolver = root.secretsResolver :=
    congrArg AdapterSet.secretsResolver hInherited
  have hEnvelope : E.secretEnvelope = root.secretEnvelope :=
    congrArg AdapterSet.secretEnvelope hInherited
  have hUser : E.userId = root.userId := congrArg AdapterSet.userId hInherited
  funext d nodeId vaultPaths extraPaths
  rw [ParallelWorkflowEngine.secretsFor, ParallelWorkflowEngine.secretsFor, hResolver, hEnvelope,
    hUser, hTier]

/-- A nested engine inherits the policy of the root exactly if no ceiling is lost on the way and
its depth can be counted. -/
theorem nested_inherits_policy_iff (root E : ParallelWorkflowEngine H) (depth : Nat)
    (hNested : Nested root depth E) :
    InheritsPolicy root E depth ↔
      (depth = 0 ∨ root.maxLlmTier = .tier2) ∧
        root.currentSubflowDepth.toNat + depth ≤ usizeMax := by
  have hTier := hNested.maxLlmTier
  have hDepth := hNested.currentSubflowDepth
  constructor
  · intro h
    have hJob := h.singleJobs
      ⟨0, 0, none, ∅, none, none, none, 0, 0⟩ 0 ⟨0, "", [], none, 0, "", [], [], [], [], none, none⟩
      .null
    have hSame : E.maxLlmTier = root.maxLlmTier := hJob
    refine ⟨?_, ?_⟩
    · rw [hTier] at hSame
      split at hSame
      · exact .inl ‹_›
      · exact .inr hSame.symm
    · rw [h.depth] at hDepth
      omega
  · rintro ⟨hKept, hFits⟩
    have hSame : E.maxLlmTier = root.maxLlmTier := by
      rw [hTier]
      obtain hZero | hCeiling := hKept
      · rw [if_pos hZero]
      · rw [hCeiling, ite_self]
    exact
      { singleJobs := fun _ _ _ _ => hSame
        loopJobs := fun _ _ _ _ _ _ => hSame
        chains := fun d head rest chainInput request hRequest => by
          obtain ⟨hChain, -, hSteps⟩ := ParallelWorkflowEngine.runPipelineChainDispatch_ok hRequest
          refine ⟨hChain.trans hSame, fun job hJob => ?_⟩
          obtain ⟨userId, nodeId, artifact, input, rfl⟩ := hSteps job hJob
          exact hSame
        prefetch := by rw [hSame]
        secrets := secretsFor_eq hNested.inherited hSame
        inherited := hNested.inherited
        depth := by
          rw [hDepth]
          omega }

/-- Three levels below an engine without a ceiling. -/
theorem nested_inherits_policy_three_levels :
    ∃ E : ParallelWorkflowEngine (bareHost true),
      Nested .new 3 E ∧ E.currentSubflowDepth = 3 ∧ InheritsPolicy .new E 3 := by
  let first : ParallelWorkflowEngine (bareHost true) :=
    ParallelWorkflowEngine.new.adapterSet.intoEngine
  have hFirst : Nested .new 1 first := .built 0 _ .root
  have hSecond : Nested .new 2 first.adapterSet.intoEngine := .built 1 _ hFirst
  have hThird : Nested .new 3 first.adapterSet.intoEngine.adapterSet.intoEngine := .built 2 _ hSecond
  exact ⟨_, hThird, rfl,
    (nested_inherits_policy_iff .new _ 3 hThird).2 ⟨.inr rfl, by decide⟩⟩

/-- The ceiling of an engine is lost one level below it. -/
theorem nested_engine_loses_ceiling :
    ¬ ∀ (H : Host) (root E : ParallelWorkflowEngine H) (depth : Nat),
      Nested root depth E → InheritsPolicy root E depth := by
  intro hAll
  let root : ParallelWorkflowEngine (bareHost true) :=
    { ParallelWorkflowEngine.new with maxLlmTier := .tier1 }
  have hInherits := hAll _ root root.adapterSet.intoEngine 1 (.built 0 root .root)
  have hPrefetch : true = false := hInherits.prefetch
  cases hPrefetch

end Inheritance

end TalosWorkflow
