import TalosWorkflow.Handlers.AgentLoops
import TalosWorkflow.Library.OrderedMap

/-!
# Collapsed results

What is returned of the results of a sub-workflow: the output of its one leaf
with a result, or an object with the outputs of all nodes that have one.
-/

namespace TalosWorkflow

theorem insertField_eq_insert (key : String) (value : Json) (fields : List (String × Json)) :
    Json.insertField key value fields = OrderedMap.insert key value fields := by
  induction fields with
  | nil => rfl
  | cons field rest ih =>
      rw [Json.insertField, OrderedMap.insert, ih]
      split
      · rename_i hKey
        rw [hKey]
      · rfl

theorem insertFields_eq_collect (added : List (String × Json)) :
    insertFields [] added = OrderedMap.collect added := by
  rw [insertFields, OrderedMap.collect]
  congr 1
  funext fields field
  exact insertField_eq_insert field.1 field.2 fields

namespace ParallelWorkflowEngine

variable {H : Host} (E : ParallelWorkflowEngine H)

/-- The node has a result that is neither skipped nor the trigger's, and this is what it holds. -/
def Reports (results : Table Json) (id : Uuid) (output : Json) : Prop :=
  ∃ raw, results.lookup id = some raw ∧ isSkippedOutput raw = false ∧
    E.labelOrId id ≠ "__trigger__" ∧ output = unwrapOutput raw

def Leaf (id : Uuid) : Prop :=
  ∃ idx ∈ E.graph.nodeIndices, E.nodeId idx = id ∧ ∀ other, ¬ E.graph.Arc idx other

def SoleLeaf (results : Table Json) (id : Uuid) (output : Json) : Prop :=
  E.Leaf id ∧ E.Reports results id output ∧
    ∀ other output', E.Leaf other → E.Reports results other output' → other = id

variable {E} {results : Table Json} {id : Uuid} {output : Json}

theorem mem_namedOutputs {e : Uuid × String × Json} :
    e ∈ E.namedOutputs results ↔ e.2.1 = E.labelOrId e.1 ∧ E.Reports results e.1 e.2.2 := by
  obtain ⟨id, label, output⟩ := e
  rw [namedOutputs, List.mem_filterMap]
  constructor
  · rintro ⟨⟨other, raw⟩, hEntry, hNamed⟩
    split at hNamed
    · cases hNamed
    · rename_i hKept
      cases hNamed
      rw [Bool.or_eq_true, not_or, Bool.not_eq_true, decide_eq_true_eq] at hKept
      exact ⟨rfl, raw, AList.mem_lookup_iff.2 hEntry, hKept.1, hKept.2, rfl⟩
  · rintro ⟨hLabel, raw, hLookup, hSkipped, hTrigger, hOutput⟩
    refine ⟨⟨id, raw⟩, AList.mem_lookup_iff.1 hLookup, ?_⟩
    dsimp only at hLabel hOutput hTrigger ⊢
    rw [if_neg, hLabel, hOutput]
    rw [Bool.or_eq_true, not_or, Bool.not_eq_true, decide_eq_true_eq]
    exact ⟨hSkipped, hTrigger⟩

variable (hLabels : (E.graph.nodes.map E.labelOrId).Nodup)
  (hResults : ∀ id output, results.lookup id = some output → id ∈ E.graph.nodes)

section Terminals

include hLabels

theorem index_eq_of_nodeId {i j : NodeIndex} (hi : i ∈ E.graph.nodeIndices)
    (hj : j ∈ E.graph.nodeIndices) (hSame : E.nodeId i = E.nodeId j) : i = j := by
  rw [Multigraph.mem_nodeIndices] at hi hj
  have hNodup : E.graph.nodes.Nodup := hLabels.of_map
  rw [nodeId, nodeId, List.getElem?_eq_getElem hi, List.getElem?_eq_getElem hj, Option.getD_some,
    Option.getD_some] at hSame
  exact (List.Nodup.getElem_inj_iff hNodup).1 hSame

theorem isTerminal_iff : E.isTerminal id = true ↔ E.Leaf id := by
  have hNoArc (idx : NodeIndex) :
      (E.graph.successors idx).isEmpty = true ↔ ∀ other, ¬ E.graph.Arc idx other := by
    rw [List.isEmpty_iff, List.eq_nil_iff_forall_not_mem]
    exact forall_congr' fun other => not_congr (E.graph.mem_successors)
  constructor
  · intro hTerminal
    obtain ⟨idx, hIn, hId, hEmpty⟩ := NestedRun.isTerminal_cases hTerminal
    exact ⟨idx, hIn, hId, (hNoArc idx).1 hEmpty⟩
  · rintro ⟨idx, hIn, hId, hNone⟩
    have hIndex : E.indexOf id = some idx := by
      cases hFound : E.indexOf id with
      | none =>
          have hOther := List.find?_eq_none.1 hFound idx (List.mem_reverse.2 hIn)
          exact absurd (decide_eq_true hId) hOther
      | some other =>
          have hOther := List.mem_reverse.1 (List.mem_of_find?_eq_some hFound)
          have hSame := List.find?_some hFound
          rw [index_eq_of_nodeId hLabels hOther hIn ((of_decide_eq_true hSame).trans hId.symm)]
    rw [isTerminal, hIndex]
    exact (hNoArc idx).2 hNone

/-- The terminal outputs are a single one just when one leaf has a result. -/
theorem terminals_eq_singleton_iff :
    (∃ e, ((E.namedOutputs results).filter fun e => E.isTerminal e.1) = [e] ∧
        e.1 = id ∧ e.2.2 = output) ↔ E.SoleLeaf results id output := by
  have hMem {e : Uuid × String × Json} :
      e ∈ (E.namedOutputs results).filter (fun e => E.isTerminal e.1) ↔
        e.2.1 = E.labelOrId e.1 ∧ E.Reports results e.1 e.2.2 ∧ E.Leaf e.1 := by
    rw [List.mem_filter, mem_namedOutputs, isTerminal_iff hLabels, and_assoc]
  constructor
  · rintro ⟨e, hSingle, rfl, rfl⟩
    obtain ⟨-, hReports, hLeaf⟩ := hMem.1 (hSingle ▸ List.mem_singleton_self e)
    refine ⟨hLeaf, hReports, fun other output' hOther hReports' => ?_⟩
    have hIn := (hMem (e := (other, E.labelOrId other, output'))).2 ⟨rfl, hReports', hOther⟩
    rw [hSingle, List.mem_singleton] at hIn
    exact congrArg Prod.fst hIn
  · rintro ⟨hLeaf, hReports, hSole⟩
    refine ⟨(id, E.labelOrId id, output), ?_, rfl, rfl⟩
    have hKeys := ((List.filter_sublist (p := fun e => E.isTerminal e.1)).map Prod.fst).nodup
      (NestedRun.namedOutputs_keys E results)
    refine NestedRun.eq_singleton_of_keys hKeys (hMem.2 ⟨rfl, hReports, hLeaf⟩)
      fun other hOther => ?_
    obtain ⟨-, hReports', hLeaf'⟩ := hMem.1 hOther
    exact hSole other.1 other.2.2 hLeaf' hReports'

end Terminals

def labelledOutputs (E : ParallelWorkflowEngine H) (results : Table Json) : List (String × Json) :=
  (((E.namedOutputs results).filter fun e => !E.isTerminal e.1) ++
    (E.namedOutputs results).filter fun e => E.isTerminal e.1).map (·.2)

theorem labelledOutputs_perm :
    (E.labelledOutputs results).Perm ((E.namedOutputs results).map (·.2)) := by
  refine List.Perm.map _ (List.perm_append_comm.trans ?_)
  exact List.filter_append_perm _ _

theorem collapse_singleton {e : Uuid × String × Json}
    (h : ((E.namedOutputs results).filter fun e => E.isTerminal e.1) = [e]) :
    E.collapseSubworkflowOutput results = e.2.2 := by
  rw [collapseSubworkflowOutput, List.partition_eq_filter_filter]
  simp only [h]

theorem collapse_object
    (h : ∀ e, ((E.namedOutputs results).filter fun e => E.isTerminal e.1) ≠ [e]) :
    E.collapseSubworkflowOutput results =
      .object (OrderedMap.collect (E.labelledOutputs results)) := by
  rw [collapseSubworkflowOutput, List.partition_eq_filter_filter, labelledOutputs,
    ← insertFields_eq_collect]
  dsimp only
  split
  · rename_i id label output hSingle
    exact absurd hSingle (h (id, label, output))
  · rfl

include hLabels hResults in
theorem labelledOutputs_keys : ((E.labelledOutputs results).map Prod.fst).Nodup := by
  rw [(labelledOutputs_perm.map Prod.fst).nodup_iff, List.map_map]
  refine List.Nodup.map_on ?_ (NestedRun.namedOutputs_keys E results).of_map
  intro a ha b hb hSame
  obtain ⟨hLabel, raw, hLookup, -⟩ := mem_namedOutputs.1 ha
  obtain ⟨hLabel', raw', hLookup', -⟩ := mem_namedOutputs.1 hb
  have hId : a.1 = b.1 := List.inj_on_of_nodup_map hLabels (hResults _ _ hLookup)
    (hResults _ _ hLookup') (hLabel.symm.trans (Eq.trans hSame hLabel'))
  exact List.inj_on_of_nodup_map (NestedRun.namedOutputs_keys E results) ha hb hId

theorem namedOutputs_congr {results' : Table Json}
    (hPerm : results'.entries.Perm results.entries) :
    (E.namedOutputs results').Perm (E.namedOutputs results) :=
  hPerm.filterMap _

include hLabels in
theorem collapse_of_soleLeaf (h : E.SoleLeaf results id output) :
    E.collapseSubworkflowOutput results = output := by
  obtain ⟨e, hSingle, -, rfl⟩ := (terminals_eq_singleton_iff hLabels).2 h
  exact collapse_singleton hSingle

include hLabels hResults in
theorem collapse_of_no_soleLeaf (h : ¬ ∃ id output, E.SoleLeaf results id output) :
    ∃ fields, E.collapseSubworkflowOutput results = .object fields ∧
      (fields.map Prod.fst).Nodup ∧ ∀ label output, (label, output) ∈ fields ↔
        ∃ id, E.labelOrId id = label ∧ E.Reports results id output := by
  have hKeys := labelledOutputs_keys hLabels hResults
  have hObject : ∀ e, ((E.namedOutputs results).filter fun e => E.isTerminal e.1) ≠ [e] :=
    fun e hSingle => h ⟨e.1, e.2.2, (terminals_eq_singleton_iff hLabels).1 ⟨e, hSingle, rfl, rfl⟩⟩
  have hFields := OrderedMap.collect_perm hKeys
  refine ⟨_, collapse_object hObject, (hFields.map Prod.fst).nodup_iff.2 hKeys, ?_⟩
  intro label output
  rw [hFields.mem_iff, labelledOutputs_perm.mem_iff, List.mem_map]
  constructor
  · rintro ⟨e, he, hField⟩
    obtain ⟨hLabel, hReports⟩ := mem_namedOutputs.1 he
    rw [hField] at hLabel hReports
    exact ⟨e.1, hLabel.symm, hReports⟩
  · rintro ⟨id, hLabel, hReports⟩
    exact ⟨(id, label, output), mem_namedOutputs.2 ⟨hLabel.symm, hReports⟩, rfl⟩

include hLabels hResults in
theorem collapse_congr {results' : Table Json} (hPerm : results'.entries.Perm results.entries) :
    E.collapseSubworkflowOutput results' = E.collapseSubworkflowOutput results := by
  have hNamed := namedOutputs_congr (E := E) hPerm
  have hTerminals := hNamed.filter fun e => E.isTerminal e.1
  by_cases hSingle : ∃ e, ((E.namedOutputs results).filter fun e => E.isTerminal e.1) = [e]
  · obtain ⟨e, hSingle⟩ := hSingle
    rw [collapse_singleton hSingle, collapse_singleton (List.perm_singleton.1
      (hSingle ▸ hTerminals))]
  · have hOther : ∀ e, ((E.namedOutputs results').filter fun e => E.isTerminal e.1) ≠ [e] :=
      fun e hIs => hSingle ⟨e, List.perm_singleton.1 (hIs ▸ hTerminals.symm)⟩
    rw [collapse_object hOther, collapse_object fun e hIs => hSingle ⟨e, hIs⟩]
    have hPermuted : (E.labelledOutputs results).Perm (E.labelledOutputs results') :=
      labelledOutputs_perm.trans ((hNamed.symm.map (·.2)).trans labelledOutputs_perm.symm)
    rw [OrderedMap.collect_congr (labelledOutputs_keys hLabels hResults) hPermuted]

end ParallelWorkflowEngine

open ParallelWorkflowEngine

/-- The collapse is the output of the one leaf with a result, or an object with one field for each
node with a result, in whatever order the results come. -/
theorem collapse_exact {H : Host} (E : ParallelWorkflowEngine H) (results : Table Json)
    (hLabels : (E.graph.nodes.map E.labelOrId).Nodup)
    (hResults : ∀ id output, results.lookup id = some output → id ∈ E.graph.nodes) :
    (∀ id output, E.SoleLeaf results id output → E.collapseSubworkflowOutput results = output) ∧
      ((¬ ∃ id output, E.SoleLeaf results id output) →
        ∃ fields, E.collapseSubworkflowOutput results = .object fields ∧
          (fields.map Prod.fst).Nodup ∧ ∀ label output, (label, output) ∈ fields ↔
            ∃ id, E.labelOrId id = label ∧ E.Reports results id output) ∧
      ∀ results' : Table Json, results'.entries.Perm results.entries →
        E.collapseSubworkflowOutput results' = E.collapseSubworkflowOutput results :=
  ⟨fun _ _ => collapse_of_soleLeaf hLabels, collapse_of_no_soleLeaf hLabels hResults,
    fun _ => collapse_congr hLabels hResults⟩

section Samples

def twoLeaves : ParallelWorkflowEngine (bareHost true) :=
  { (.new : ParallelWorkflowEngine (bareHost true)) with
    graph := (((Multigraph.empty.addNode 4).addNode 2).addNode 3).addEdge 0 1 {}
      (by decide) (by decide) |>.addEdge 0 2 {} (by decide) (by decide)
    nodeLabels := ((AList.insert 4 "a" ∅).insert 2 "b").insert 3 "c" }

def twoResults : Table Json := (AList.insert 3 (.bool true) ∅).insert 2 .null

theorem twoLeaves_leaf {idx : NodeIndex} (h : idx = 1 ∨ idx = 2) :
    twoLeaves.Leaf (twoLeaves.nodeId idx) := by
  obtain rfl | rfl := h
  · exact ⟨1, by decide, rfl, fun other hArc =>
      absurd ((twoLeaves.graph.mem_successors).2 hArc) (List.not_mem_nil)⟩
  · exact ⟨2, by decide, rfl, fun other hArc =>
      absurd ((twoLeaves.graph.mem_successors).2 hArc) (List.not_mem_nil)⟩

theorem collapse_exact_twoLeaves :
    ∃ fields, twoLeaves.collapseSubworkflowOutput twoResults = .object fields ∧
      (fields.map Prod.fst).Nodup ∧ ∀ label output, (label, output) ∈ fields ↔
        ∃ id, twoLeaves.labelOrId id = label ∧ twoLeaves.Reports twoResults id output := by
  refine (collapse_exact twoLeaves twoResults (by decide) ?_).2.1 ?_
  · intro id output hLookup
    have hEntry : id ∈ twoResults.keys :=
      AList.lookup_isSome.1 (Option.isSome_iff_exists.2 ⟨output, hLookup⟩)
    have hAll : (twoResults.keys.all fun id => id ∈ twoLeaves.graph.nodes) = true := by decide
    exact of_decide_eq_true (List.all_eq_true.1 hAll id hEntry)
  · rintro ⟨id, output, -, -, hSole⟩
    have hFirst := hSole 2 .null (twoLeaves_leaf (.inl rfl)) ⟨.null, by decide, rfl, by decide, rfl⟩
    have hSecond := hSole 3 (.bool true) (twoLeaves_leaf (.inr rfl))
      ⟨.bool true, by decide, rfl, by decide, rfl⟩
    exact absurd (hFirst.trans hSecond.symm) (by decide)

end Samples

end TalosWorkflow
