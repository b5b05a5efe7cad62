import Mathlib.Data.List.Dedup
import Mathlib.Data.List.Perm.Subperm
import TalosWorkflow.Inputs
import TalosWorkflow.Ledger.FreshRuns

/-!
# Parents of a node

When the gathered input of a node shows which parents have completed, and the
output of each of them.
-/

namespace TalosWorkflow

namespace ParallelWorkflowEngine

variable {H : Host} (E : ParallelWorkflowEngine H)

/-- The parents of a node that have a result, each of them once. -/
def completedParents (idx : NodeIndex) (results : Table Json) : List NodeIndex :=
  ((E.graph.predecessors idx).filter fun p => (results.lookup (E.nodeId p)).isSome).dedup

/-- What a node is given depends on its parents and not on the edges or the labels. -/
structure GathersByParent (idx : NodeIndex) (results : Table Json) : Prop where
  sole : ∀ p output, E.completedParents idx results = [p] →
    results.lookup (E.nodeId p) = some output → E.gatherInputs idx results = unwrapOutput output
  several : 2 ≤ (E.completedParents idx results).length →
    ∃ (fields : List (String × Json)) (key : NodeIndex → String),
      E.gatherInputs idx results = .object fields ∧
        ((E.completedParents idx results).map key).Nodup ∧
          ∀ p ∈ E.completedParents idx results, ∀ output,
            results.lookup (E.nodeId p) = some output →
              fields.lookup (key p) = some (unwrapOutput output)

/-- A parent on its own is joined to the node by one edge, and several go by different labels. -/
structure ParentsApart (idx : NodeIndex) (results : Table Json) : Prop where
  sole : ∀ p, E.completedParents idx results = [p] → (E.graph.edgesConnecting p idx).length = 1
  several : ((E.completedParents idx results).map fun p => E.labelOrId (E.nodeId p)).Nodup

section Parents

variable {E} {idx : NodeIndex} {results : Table Json} {p : NodeIndex} {output : Json}

theorem mem_completedParents :
    p ∈ E.completedParents idx results ↔
      E.graph.Arc p idx ∧ ∃ output, results.lookup (E.nodeId p) = some output := by
  rw [completedParents, List.mem_dedup, List.mem_filter, Multigraph.mem_predecessors,
    Option.isSome_iff_exists]

theorem mem_parentOutputs {parent : Uuid × Json} :
    parent ∈ E.parentOutputs idx results ↔
      ∃ p ∈ E.completedParents idx results, E.nodeId p = parent.1 ∧
        results.lookup (E.nodeId p) = some parent.2 := by
  rw [parentOutputs, List.mem_filterMap]
  constructor
  · rintro ⟨p, hArc, hOutput⟩
    obtain ⟨output, hLookup, rfl⟩ := Option.map_eq_some_iff.1 hOutput
    exact ⟨p, mem_completedParents.2 ⟨(E.graph.mem_predecessors).1 hArc, output, hLookup⟩, rfl,
      hLookup⟩
  · rintro ⟨p, hParent, hId, hLookup⟩
    refine ⟨p, (E.graph.mem_predecessors).2 (mem_completedParents.1 hParent).1, ?_⟩
    rw [hLookup, Option.map_some, hId]

theorem length_parentOutputs :
    (E.parentOutputs idx results).length =
      ((E.graph.predecessors idx).filter fun p =>
        (results.lookup (E.nodeId p)).isSome).length := by
  rw [parentOutputs, List.length_filterMap_eq_countP, ← List.countP_eq_length_filter]
  refine List.countP_congr fun p _ => ?_
  rw [Option.isSome_map]

theorem length_completedParents_le :
    (E.completedParents idx results).length ≤ (E.parentOutputs idx results).length := by
  rw [length_parentOutputs]
  exact (List.dedup_sublist _).length_le

theorem length_parentOutputs_sole (hSole : E.completedParents idx results = [p]) :
    (E.parentOutputs idx results).length = (E.graph.edgesConnecting p idx).length := by
  have hAll : ∀ q ∈ (E.graph.predecessors idx).filter fun p =>
      (results.lookup (E.nodeId p)).isSome, p = q := by
    intro q hq
    rw [← List.mem_dedup, ← completedParents, hSole] at hq
    exact (List.mem_singleton.1 hq).symm
  have hParent : p ∈ E.completedParents idx results := hSole ▸ List.mem_singleton_self p
  obtain ⟨output, hLookup⟩ := (mem_completedParents.1 hParent).2
  rw [length_parentOutputs, Multigraph.length_edgesConnecting, ← List.count_eq_length.2 hAll,
    List.count_filter (by rw [hLookup]; rfl)]

theorem exists_of_two_le {α : Type*} {l : List α} (h : 2 ≤ l.length) :
    ∃ first second rest, l = first :: second :: rest := by
  cases l with
  | nil => exact absurd h (Nat.not_succ_le_zero 1)
  | cons first l =>
      cases l with
      | nil => exact absurd h (Nat.not_succ_le_self 1)
      | cons second rest => exact ⟨first, second, rest, rfl⟩

theorem gatherInputs_several (h : 2 ≤ (E.parentOutputs idx results).length) :
    E.gatherInputs idx results =
      .object (((E.parentOutputs idx results).map fun parent =>
        (parent.1, unwrapOutput parent.2)).foldl
          (fun fields parent => Json.insertField (E.labelOrId parent.1) parent.2 fields) []) := by
  obtain ⟨first, second, rest, hParents⟩ := exists_of_two_le h
  rw [gatherInputs, gatherParents, hParents]
  rfl

theorem mem_labels_of_lookup {outputs : List (Uuid × Json)} {fields : List (String × Json)}
    {label : String} {value : Json}
    (h : (outputs.foldl (fun fields parent => Json.insertField (E.labelOrId parent.1) parent.2
      fields) fields).lookup label = some value) :
    (∃ parent ∈ outputs, E.labelOrId parent.1 = label) ∨ fields.lookup label = some value := by
  induction outputs generalizing fields with
  | nil => exact .inr h
  | cons first rest ih =>
      by_cases hFirst : E.labelOrId first.1 = label
      · exact .inl ⟨first, List.mem_cons_self, hFirst⟩
      · obtain ⟨parent, hIn, hLabel⟩ | h := ih h
        · exact .inl ⟨parent, List.mem_cons_of_mem first hIn, hLabel⟩
        · right
          rw [← h, Json.lookup_insertField_ne (Ne.symm hFirst)]

theorem lookup_label (hApart : ((E.completedParents idx results).map fun p =>
    E.labelOrId (E.nodeId p)).Nodup) (hSeveral : 2 ≤ (E.parentOutputs idx results).length)
    (hParent : p ∈ E.completedParents idx results)
    (hLookup : results.lookup (E.nodeId p) = some output) :
    (E.gatherInputs idx results).get (E.labelOrId (E.nodeId p)) = some (unwrapOutput output) := by
  have hListed : (E.nodeId p, output) ∈ E.parentOutputs idx results :=
    mem_parentOutputs.2 ⟨p, hParent, rfl, hLookup⟩
  have hSole : E.SoleLabel idx results (E.nodeId p) := by
    intro parent hIn hLabel
    obtain ⟨q, hq, hId, -⟩ := mem_parentOutputs.1 hIn
    rw [← hId] at hLabel ⊢
    rw [List.inj_on_of_nodup_map hApart hq hParent hLabel]
  obtain ⟨first, second, rest, hParents⟩ := exists_of_two_le hSeveral
  rw [← receivedFrom_eq hListed hSole, receivedFrom, hParents]

/-- As many keys as parents leave no two parents with one label. -/
theorem labels_nodup_of_keys {fields : List (String × Json)} {key : NodeIndex → String}
    (hSeveral : 2 ≤ (E.parentOutputs idx results).length)
    (hFields : E.gatherInputs idx results = .object fields)
    (hKeys : ((E.completedParents idx results).map key).Nodup)
    (hOwn : ∀ p ∈ E.completedParents idx results, ∀ output,
      results.lookup (E.nodeId p) = some output →
        fields.lookup (key p) = some (unwrapOutput output)) :
    ((E.completedParents idx results).map fun p => E.labelOrId (E.nodeId p)).Nodup := by
  rw [gatherInputs_several hSeveral, Json.object.injEq] at hFields
  have hLabels : (E.completedParents idx results).map key ⊆
      (E.completedParents idx results).map fun p => E.labelOrId (E.nodeId p) := by
    intro label hLabel
    obtain ⟨p, hp, rfl⟩ := List.mem_map.1 hLabel
    obtain ⟨output, hLookup⟩ := (mem_completedParents.1 hp).2
    have hFound := hOwn p hp output hLookup
    rw [← hFields] at hFound
    obtain ⟨parent, hIn, hParent⟩ | hNone := mem_labels_of_lookup hFound
    · obtain ⟨given, hGiven, rfl⟩ := List.mem_map.1 hIn
      obtain ⟨q, hq, hId, -⟩ := mem_parentOutputs.1 hGiven
      exact List.mem_map.2 ⟨q, hq, by rw [hId, hParent]⟩
    · cases hNone
  have hPerm := (List.subperm_of_subset hKeys hLabels).perm_of_length_le
    (by rw [List.length_map, List.length_map])
  exact hPerm.nodup_iff.1 hKeys

theorem gathersByParent_of_apart (h : E.ParentsApart idx results) :
    E.GathersByParent idx results where
  sole p output hSole hLookup := by
    have hParent : p ∈ E.completedParents idx results := hSole ▸ List.mem_singleton_self p
    have hListed : (E.nodeId p, output) ∈ E.parentOutputs idx results :=
      mem_parentOutputs.2 ⟨p, hParent, rfl, hLookup⟩
    obtain ⟨parent, hOne⟩ := List.length_eq_one_iff.1
      ((length_parentOutputs_sole hSole).trans (h.sole p hSole))
    rw [hOne] at hListed
    obtain rfl := List.mem_singleton.1 hListed
    rw [gatherInputs, hOne, gatherParents, List.map_singleton]
  several hSeveral := by
    have hOutputs := hSeveral.trans length_completedParents_le
    refine ⟨_, fun p => E.labelOrId (E.nodeId p), gatherInputs_several hOutputs, h.several, ?_⟩
    intro p hp output hLookup
    have hGot := lookup_label h.several hOutputs hp hLookup
    rw [gatherInputs_several hOutputs] at hGot
    exact hGot

theorem apart_of_gathersByParent (h : E.GathersByParent idx results) :
    E.ParentsApart idx results where
  sole p hSole := by
    have hParent : p ∈ E.completedParents idx results := hSole ▸ List.mem_singleton_self p
    obtain ⟨hArc, output, hLookup⟩ := mem_completedParents.1 hParent
    by_contra hEdges
    have hOutputs : 2 ≤ (E.parentOutputs idx results).length := by
      have hSome := List.length_pos_iff.2 (Multigraph.arc_iff_edgesConnecting.1 hArc)
      rw [length_parentOutputs_sole hSole]
      omega
    have hLabel : ((E.completedParents idx results).map fun p =>
        E.labelOrId (E.nodeId p)).Nodup := by
      rw [hSole]
      exact List.nodup_singleton _
    have hGot := lookup_label hLabel hOutputs hParent hLookup
    have hGiven := h.sole p output hSole hLookup
    rw [gatherInputs_several hOutputs] at hGot hGiven
    exact Json.object_ne_field (Json.mem_of_lookup hGot) hGiven
  several := by
    by_cases hSeveral : 2 ≤ (E.completedParents idx results).length
    · obtain ⟨fields, key, hFields, hKeys, hOwn⟩ := h.several hSeveral
      exact labels_nodup_of_keys (hSeveral.trans length_completedParents_le) hFields hKeys hOwn
    · match E.completedParents idx results, hSeveral with
      | [], _ => exact List.nodup_nil
      | [_], _ => exact List.nodup_singleton _
      | _ :: _ :: _, hShort => exact absurd (Nat.le_add_left 2 _) hShort

end Parents

end ParallelWorkflowEngine

/-- The input of a node shows its parents exactly when one parent has one edge to it and several
have different labels. -/
theorem gathers_by_parent_iff (H : Host) (E : ParallelWorkflowEngine H) (idx : NodeIndex)
    (results : Table Json) : E.GathersByParent idx results ↔ E.ParentsApart idx results :=
  ⟨ParallelWorkflowEngine.apart_of_gathersByParent,
    ParallelWorkflowEngine.gathersByParent_of_apart⟩

section Samples

/-- Two nodes labelled `fetch` in front of a third. -/
def sharedLabelEngine : ParallelWorkflowEngine (bareHost true) :=
  { (.new : ParallelWorkflowEngine (bareHost true)) with
    graph := (((Multigraph.empty.addNode 1).addNode 2).addNode 3).addEdge 0 2 {}
      (by decide) (by decide) |>.addEdge 1 2 {} (by decide) (by decide)
    nodeLabels := (AList.insert 1 "fetch" ∅).insert 2 "fetch" }

/-- One node labelled `fetch` with two edges to a second. -/
def doubleEdgeEngine : ParallelWorkflowEngine (bareHost true) :=
  { (.new : ParallelWorkflowEngine (bareHost true)) with
    graph := ((Multigraph.empty.addNode 1).addNode 2).addEdge 0 1 {}
      (by decide) (by decide) |>.addEdge 0 1 {} (by decide) (by decide)
    nodeLabels := AList.insert 1 "fetch" ∅ }

/-- Two edges wrap the output of a single parent, and of two parents with one label the input holds
one. -/
theorem parents_confused :
    doubleEdgeEngine.gatherInputs 1 (AList.insert 1 (.bool true) ∅) =
        .object [("fetch", .bool true)] ∧
      ¬ doubleEdgeEngine.GathersByParent 1 (AList.insert 1 (.bool true) ∅) ∧
      sharedLabelEngine.gatherInputs 2 ((AList.insert 1 (.bool true) ∅).insert 2 .null) =
        .object [("fetch", .bool true)] ∧
      ¬ sharedLabelEngine.GathersByParent 2 ((AList.insert 1 (.bool true) ∅).insert 2 .null) := by
  refine ⟨by decide, fun hGathers => ?_, by decide, fun hGathers => ?_⟩
  · have hSole := (ParallelWorkflowEngine.apart_of_gathersByParent hGathers).sole 0 (by decide)
    exact absurd hSole (by decide)
  · have hLabels := (ParallelWorkflowEngine.apart_of_gathersByParent hGathers).several
    exact absurd hLabels (by decide)

end Samples

end TalosWorkflow
