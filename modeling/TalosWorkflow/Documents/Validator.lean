import TalosWorkflow.Documents.Trigger

/-!
# The validator of graph documents

It counts nodes without loading them. Where its classes and the loader's
branches differ, the counts still agree if the differences cancel.
-/

namespace TalosWorkflow

open Json

variable {H : Host}

inductive GraphJsonError where
  | notAnObject (found : String)
  | nodesNotArray (found : String)
  | edgesNotArray (found : String)
  deriving DecidableEq

structure GraphSummary where
  nodeCount : Nat := 0
  edgeCount : Nat := 0
  moduleNodeCount : Nat := 0
  systemNodeCount : Nat := 0
  annotationNodeCount : Nat := 0
  executionTimeoutSecs : Option UInt64
  systemNodeKinds : List String := []
  warnings : List String := []

def jsonTypeName : Json → String
  | .null => "null"
  | .bool _ => "bool"
  | .number _ => "number"
  | .string _ => "string"
  | .array _ => "array"
  | .object _ => "object"

def knownSystemKindsBase : List String :=
  ["wait", "sub_workflow", "loop", "while_loop", "repeat_loop", "fan_in", "error_handler",
    "collect", "synthesize", "verify", "dispatch", "capability_dispatch"]

def knownSystemKindsLlm : List String :=
  ["agent_loop", "react_loop", "judge", "inline_judge", "ensemble", "confidence_gate",
    "reflective_retry", "llm_dispatch"]

def GraphSummary.counts (summary : GraphSummary) : Nat × Nat × Nat :=
  (summary.moduleNodeCount, summary.systemNodeCount, summary.annotationNodeCount)

def GraphSummary.warn (summary : GraphSummary) (warning : String) : GraphSummary :=
  { summary with warnings := summary.warnings ++ [warning] }

namespace GraphFormat

variable (F : GraphFormat)

def knownSystemKind (kind : String) : Bool :=
  knownSystemKindsBase.contains kind || F.llmPrimitives && knownSystemKindsLlm.contains kind

def knownLlmSystemKind (kind : String) : Bool :=
  !F.llmPrimitives && knownSystemKindsLlm.contains kind

/-- The type or `data.moduleId` is a UUID. -/
def isModule (node : Json) : Bool :=
  ((node.strField "type").filter fun s => (F.parseUuid s).isSome).isSome ||
    (((node.get "data").bind (·.strField "moduleId")).filter fun s => (F.parseUuid s).isSome).isSome

/-- A kind settles the class of a node, whatever its other fields say. -/
def classifyNode (summary : GraphSummary) (node : Json × Nat) : GraphSummary :=
  let index := "node[" ++ node.2.repr ++ "]"
  let summary :=
    if ((node.1.strField "id").getD "") = "" then
      summary.warn (index ++ " missing or empty `id`")
    else summary
  match node.1.strField "kind" with
  | some kind =>
      if F.knownSystemKind kind then
        { summary with systemNodeCount := summary.systemNodeCount + 1 }
      else if F.knownLlmSystemKind kind then
        { summary.warn (index ++ " `kind: " ++ kind ++ "` is an LLM-gated system kind but the " ++
            "`llm-primitives` feature is disabled on talos-workflow-engine; the engine will " ++
            "reject this node at dispatch time") with
          annotationNodeCount := summary.annotationNodeCount + 1 }
      else
        { summary.warn (index ++ " `kind: " ++ kind ++ "` is not a known system kind; the " ++
            "engine will reject this node at dispatch time") with
          annotationNodeCount := summary.annotationNodeCount + 1 }
  | none =>
      if F.isModule node.1 then
        { summary with moduleNodeCount := summary.moduleNodeCount + 1 }
      else if ((node.1.strField "type").getD "") = "" then
        { summary with annotationNodeCount := summary.annotationNodeCount + 1 }
      else
        { summary.warn (index ++ " has `type` but it is neither a UUID nor a known system " ++
            "kind; the engine will silently skip this node") with
          annotationNodeCount := summary.annotationNodeCount + 1 }

def inspectEdge (summary : GraphSummary) (edge : Json × Nat) : GraphSummary :=
  let index := "edge[" ++ edge.2.repr ++ "]"
  let summary :=
    if ((edge.1.strField "source").getD "") = "" then
      summary.warn (index ++ " missing or empty `source`")
    else summary
  if ((edge.1.strField "target").getD "") = "" then
    summary.warn (index ++ " missing or empty `target`")
  else summary

def kindsSeen (nodes : List Json) : List String :=
  (OrderedMap.collect (nodes.filterMap fun node =>
    (node.strField "kind").map fun kind => (kind, ()))).map Prod.fst

def validateNodes (summary : GraphSummary) : Option Json → Except GraphJsonError GraphSummary
  | some (.array nodes) =>
      .ok { nodes.zipIdx.foldl F.classifyNode { summary with nodeCount := nodes.length } with
        systemNodeKinds := kindsSeen nodes }
  | some other => .error (.nodesNotArray (jsonTypeName other))
  | none => .ok summary

def validateEdges (summary : GraphSummary) : Option Json → Except GraphJsonError GraphSummary
  | some (.array edges) =>
      .ok (edges.zipIdx.foldl inspectEdge { summary with edgeCount := edges.length })
  | some other => .error (.edgesNotArray (jsonTypeName other))
  | none => .ok summary

def validateValue : Json → Except GraphJsonError GraphSummary
  | .object fields => do
      let summary ← F.validateNodes
        { executionTimeoutSecs := (fields.lookup "execution_timeout_secs").bind asU64 }
        (fields.lookup "nodes")
      validateEdges summary (fields.lookup "edges")
  | value => .error (.notAnObject (jsonTypeName value))

/-- The type has the prefix of system types, and no `data.moduleId` takes precedence. -/
def systemTyped (node : Json) : Bool :=
  isSystemType node && ((node.get "data").bind (·.strField "moduleId")).isNone

/-- A known kind on a node that is neither a module nor of a system type. -/
def overrated (node : Json) : Bool :=
  ((node.strField "kind").any F.knownSystemKind) && !F.isModule node && !systemTyped node

/-- A module or a node of a system type under a kind that is not known, and a node of a system
type without a kind. -/
def underrated (node : Json) : Bool :=
  match node.strField "kind" with
  | some kind => !F.knownSystemKind kind && (F.isModule node || systemTyped node)
  | none => !F.isModule node && systemTyped node

def isLoaded (node : Json) : Bool := F.isModule node || systemTyped node

end GraphFormat

section Counting

open ParallelWorkflowEngine

variable {F : GraphFormat} {E : ParallelWorkflowEngine H}

theorem GraphFormat.isSome_readNode (actorId : Option Uuid) (node : Json) :
    (F.readNode actorId node).isSome = F.isLoaded node := by
  rw [readNode, moduleIdStr, isLoaded, isModule, systemTyped]
  cases hType : (node.strField "type").filter fun s => (F.parseUuid s).isSome with
  | some s =>
      have hUuid := (Option.filter_eq_some_iff.1 hType).2
      simp [hUuid]
  | none =>
      cases (node.get "data").bind (·.strField "moduleId") with
      | some s =>
          by_cases hUuid : (F.parseUuid s).isSome = true
          · simp [Option.filter_some, hUuid]
          · simp [Option.filter_some, hUuid]
      | none =>
          cases isSystemType node <;> rfl

theorem GraphFormat.classifyNode_counts (summary : GraphSummary) (node : Json × Nat) :
    (F.classifyNode summary node).moduleNodeCount + (F.classifyNode summary node).systemNodeCount +
        (F.underrated node.1).toNat =
      summary.moduleNodeCount + summary.systemNodeCount + (F.isLoaded node.1).toNat +
        (F.overrated node.1).toNat ∧
    (F.classifyNode summary node).moduleNodeCount +
        (F.classifyNode summary node).systemNodeCount +
        (F.classifyNode summary node).annotationNodeCount =
      summary.moduleNodeCount + summary.systemNodeCount + summary.annotationNodeCount + 1 := by
  rw [underrated, isLoaded, overrated, classifyNode]
  dsimp only
  generalize hFirst : (if ((node.1.strField "id").getD "") = "" then
    summary.warn ("node[" ++ node.2.repr ++ "]" ++ " missing or empty `id`") else summary) = first
  have hModules : first.moduleNodeCount = summary.moduleNodeCount := by
    rw [← hFirst]
    split <;> rfl
  have hSystem : first.systemNodeCount = summary.systemNodeCount := by
    rw [← hFirst]
    split <;> rfl
  have hAnnotations : first.annotationNodeCount = summary.annotationNodeCount := by
    rw [← hFirst]
    split <;> rfl
  rw [← hModules, ← hSystem, ← hAnnotations]
  cases node.1.strField "kind" with
  | some kind =>
      cases hKnown : F.knownSystemKind kind with
      | true =>
          cases hModule : F.isModule node.1 <;> cases hTyped : systemTyped node.1 <;>
            simp [hKnown] <;> omega
      | false =>
          dsimp only
          rw [if_neg (by simp [hKnown])]
          split <;> cases hModule : F.isModule node.1 <;> cases hTyped : systemTyped node.1 <;>
            simp [hKnown, GraphSummary.warn] <;> omega
  | none =>
      cases hModule : F.isModule node.1 with
      | true => cases hTyped : systemTyped node.1 <;> simp <;> omega
      | false =>
          dsimp only
          rw [if_neg (by simp)]
          split <;> cases hTyped : systemTyped node.1 <;> simp [GraphSummary.warn] <;> omega

theorem GraphFormat.classifyNodes_counts (nodes : List (Json × Nat)) (summary : GraphSummary) :
    (nodes.foldl F.classifyNode summary).moduleNodeCount +
        (nodes.foldl F.classifyNode summary).systemNodeCount +
        nodes.countP (F.underrated ·.1) =
      summary.moduleNodeCount + summary.systemNodeCount + nodes.countP (F.isLoaded ·.1) +
        nodes.countP (F.overrated ·.1) ∧
    (nodes.foldl F.classifyNode summary).moduleNodeCount +
        (nodes.foldl F.classifyNode summary).systemNodeCount +
        (nodes.foldl F.classifyNode summary).annotationNodeCount =
      summary.moduleNodeCount + summary.systemNodeCount + summary.annotationNodeCount +
        nodes.length := by
  induction nodes generalizing summary with
  | nil => exact ⟨rfl, rfl⟩
  | cons node rest ih =>
      obtain ⟨hFirst, hFirstAll⟩ := F.classifyNode_counts summary node
      obtain ⟨hRest, hRestAll⟩ := ih (F.classifyNode summary node)
      have hToNat : ∀ b : Bool, (if b = true then 1 else 0) = b.toNat := by decide
      rw [List.foldl_cons, List.countP_cons, List.countP_cons, List.countP_cons, List.length_cons,
        hToNat, hToNat, hToNat]
      omega

theorem nodeCount_load_nodes (nodes : List Json) (rfToNode : RfIds)
    (hRoom : E.nodeCount + nodes.length ≤ E.maxWorkflowNodes.toNat) :
    (nodes.foldl F.loadNode (E, rfToNode)).1.nodeCount = E.nodeCount + nodes.countP F.isLoaded := by
  induction nodes generalizing E rfToNode with
  | nil => rfl
  | cons node rest ih =>
      rw [List.length_cons] at hRoom
      rw [List.foldl_cons, GraphFormat.loadNode, List.countP_cons,
        ← GraphFormat.isSome_readNode E.actorId]
      cases F.readNode E.actorId node with
      | none => exact ih rfToNode (by omega)
      | some entry =>
          have hPlaces := places_install (E := E) entry
          have hCount := nodeCount_of_graph (hPlaces.room (by omega)).1
          dsimp only
          rw [ih _ (by rw [hPlaces.limit, hCount]; omega), hCount]
          simp
          omega

theorem counts_inspectEdges (edges : List (Json × Nat)) (summary : GraphSummary) :
    (edges.foldl GraphFormat.inspectEdge summary).counts = summary.counts := by
  induction edges generalizing summary with
  | nil => rfl
  | cons edge rest ih =>
      have hEdge : (GraphFormat.inspectEdge summary edge).counts = summary.counts := by
        unfold GraphFormat.inspectEdge
        dsimp only
        split <;> split <;> rfl
      exact (ih _).trans hEdge

theorem GraphFormat.validateNodes_ok {first summary : GraphSummary} {field : Option Json}
    (h : F.validateNodes first field = .ok summary) :
    ∃ first' : GraphSummary, first'.counts = first.counts ∧ summary.counts =
      (((field.bind asArray).getD []).zipIdx.foldl F.classifyNode first').counts := by
  unfold validateNodes at h
  split at h
  · rename_i nodes
    cases h
    exact ⟨{ first with nodeCount := nodes.length }, rfl, rfl⟩
  · cases h
  · cases h
    exact ⟨first, rfl, rfl⟩

theorem GraphFormat.validateEdges_ok {first summary : GraphSummary} {field : Option Json}
    (h : validateEdges first field = .ok summary) : summary.counts = first.counts := by
  unfold validateEdges at h
  split at h
  · cases h
    exact counts_inspectEdges _ _
  · cases h
  · cases h
    rfl

theorem GraphFormat.validateValue_ok {graph : Json} {summary : GraphSummary}
    (h : F.validateValue graph = .ok summary) :
    ∃ first : GraphSummary, first.counts = (0, 0, 0) ∧
      summary.counts = ((documentNodes graph).zipIdx.foldl F.classifyNode first).counts := by
  cases graph with
  | object fields =>
      rw [validateValue] at h
      cases hNodes : F.validateNodes
          { executionTimeoutSecs := (fields.lookup "execution_timeout_secs").bind asU64 }
          (fields.lookup "nodes") with
      | error e =>
          rw [hNodes] at h
          cases h
      | ok loaded =>
          rw [hNodes] at h
          obtain ⟨first, hFirst, hLoaded⟩ := validateNodes_ok hNodes
          exact ⟨first, hFirst, (validateEdges_ok h).trans hLoaded⟩
  | _ => cases h

/-- The validator's counts are those of the loader exactly if as many nodes are overrated as
underrated. -/
theorem validator_agrees_iff (F : GraphFormat) (E₀ E : ParallelWorkflowEngine H) (graph : Json)
    (summary : GraphSummary)
    (hRoom : (GraphFormat.documentNodes graph).length ≤ E₀.maxWorkflowNodes.toNat)
    (hValid : F.validateValue graph = .ok summary)
    (hLoad : F.parseGraphDocument (E₀.withDocument .empty) graph = .ok E) :
    summary.moduleNodeCount + summary.systemNodeCount = E.nodeCount ∧
        summary.annotationNodeCount + E.nodeCount = (GraphFormat.documentNodes graph).length ↔
      (GraphFormat.documentNodes graph).countP F.overrated =
        (GraphFormat.documentNodes graph).countP F.underrated := by
  obtain ⟨first, hFirst, hCounts⟩ := GraphFormat.validateValue_ok hValid
  obtain ⟨-, hSame⟩ := GraphFormat.parseGraphDocument_ok hLoad
  have hLoaded := nodeCount_load_nodes (F := F) (E := E₀.withDocument .empty)
    (GraphFormat.documentNodes graph) ∅ ((Nat.zero_add _).trans_le hRoom)
  rw [← hSame.nodeCount] at hLoaded
  have hBlank : (E₀.withDocument .empty).nodeCount = 0 := rfl
  obtain ⟨hModules, hAll⟩ :=
    F.classifyNodes_counts (GraphFormat.documentNodes graph).zipIdx first
  have hZip : ∀ p : Json → Bool, (GraphFormat.documentNodes graph).zipIdx.countP (fun n => p n.1) =
      (GraphFormat.documentNodes graph).countP p := by
    intro p
    have hFst := List.zipIdx_map_fst 0 (GraphFormat.documentNodes graph)
    conv_rhs => rw [← hFst, List.countP_map]
    rfl
  rw [hZip, hZip, hZip] at hModules
  rw [List.length_zipIdx] at hAll
  simp only [GraphSummary.counts, Prod.mk.injEq] at hFirst hCounts
  omega

theorem validator_agrees_branched :
    ∃ summary, plainFormat.validateValue branchedGraph = .ok summary ∧
      summary.counts = (2, 1, 1) ∧
      summary.moduleNodeCount + summary.systemNodeCount =
        (loadedWithin 500 branchedGraph).nodeCount ∧
      summary.annotationNodeCount + (loadedWithin 500 branchedGraph).nodeCount =
        (GraphFormat.documentNodes branchedGraph).length := by
  have hRoom : (GraphFormat.documentNodes branchedGraph).length ≤
      (limitedEngine 500).maxWorkflowNodes.toNat := by decide
  have hSame : (GraphFormat.documentNodes branchedGraph).countP plainFormat.overrated =
      (GraphFormat.documentNodes branchedGraph).countP plainFormat.underrated := by decide
  refine ⟨_, rfl, by decide, ?_⟩
  exact (validator_agrees_iff plainFormat (limitedEngine 500) (loadedWithin 500 branchedGraph)
    branchedGraph _ hRoom rfl rfl).2 hSame

def kindOnlyGraph : Json :=
  .object [("nodes", .array [.object [("id", GraphFormat.uuidJson 1), ("kind", .string "wait")]])]

/-- The validator counts such a node as a system node, and the loader leaves it out. -/
theorem validator_counts_kind_only_node :
    ¬ ∀ (F : GraphFormat) (E₀ E : ParallelWorkflowEngine (bareHost true)) (graph : Json)
      (summary : GraphSummary),
      ((GraphFormat.documentNodes graph).map fun node =>
        F.nodeIdFor (GraphFormat.rfId node)).Nodup →
      GraphFormat.documentNodes graph ≠ [] →
      (GraphFormat.documentNodes graph).length ≤ E₀.maxWorkflowNodes.toNat →
      F.validateValue graph = .ok summary →
      F.parseGraphDocument (E₀.withDocument .empty) graph = .ok E →
      summary.moduleNodeCount + summary.systemNodeCount = E.nodeCount ∧
        summary.annotationNodeCount + E.nodeCount =
          (GraphFormat.documentNodes graph).length := by
  intro hAll
  obtain ⟨hCount, -⟩ := hAll plainFormat (limitedEngine 500)
    ((limitedEngine 500).withDocument .empty) kindOnlyGraph _ (by decide) (by decide) (by decide)
    rfl rfl
  cases hCount

end Counting

end TalosWorkflow
