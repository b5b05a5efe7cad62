import TalosWorkflow.Documents.Representation

/-!
# What a document leaves behind

If the recognised nodes of a document have distinct ids and there is room for
them, the loaded engine consists of their entries, in order.
-/

namespace TalosWorkflow

open ParallelWorkflowEngine

variable {H : Host}

namespace NodeEntry

variable {entry : NodeEntry} {configs : Table Json} {id : Uuid}

def dataFields (entry : NodeEntry) : Option (List (String × Json)) :=
  match entry.data with
  | some (.object (field :: rest)) => some (field :: rest)
  | _ => none

def skipFields (entry : NodeEntry) : Option (List (String × Json)) :=
  match entry.skipCondition with
  | some condition =>
      some (Json.insertField "__skip_condition" (.string condition) (entry.dataFields.getD []))
  | none => entry.dataFields

def continueFields (entry : NodeEntry) : Option (List (String × Json)) :=
  if entry.continueOnError then
    some (Json.insertField "__continue_on_error" (.bool true) (entry.skipFields.getD []))
  else entry.skipFields

def config (entry : NodeEntry) : Option Json := entry.continueFields.map .object

theorem lookup_reserve_ne {id' : Uuid} (h : id ≠ id') (key : String) (value : Json) :
    (reserve configs id' key value).lookup id = configs.lookup id := by
  rw [reserve, AList.lookup_insert_ne h]

theorem lookup_reserve {fields : Option (List (String × Json))}
    (h : configs.lookup id = fields.map .object) (key : String) (value : Json) :
    (reserve configs id key value).lookup id =
      some (.object (Json.insertField key value (fields.getD []))) := by
  rw [reserve, AList.lookup_insert, h]
  cases fields with
  | none => rfl
  | some fields => rfl

theorem lookup_configure_ne (h : id ≠ entry.id) :
    (entry.configure configs).lookup id = configs.lookup id := by
  have hData : (entry.storeData configs).lookup id = configs.lookup id := by
    unfold storeData
    split
    · exact AList.lookup_insert_ne h
    · rfl
  have hSkip : (entry.storeSkipCondition (entry.storeData configs)).lookup id =
      configs.lookup id := by
    unfold storeSkipCondition
    split
    · rw [lookup_reserve_ne h, hData]
    · exact hData
  unfold configure storeContinueOnError
  split
  · rw [lookup_reserve_ne h, hSkip]
  · exact hSkip

theorem lookup_storeData (h : configs.lookup entry.id = none) :
    (entry.storeData configs).lookup entry.id = entry.dataFields.map .object := by
  rw [storeData, dataFields]
  cases entry.data with
  | none => exact h
  | some data =>
      cases data with
      | object fields =>
          cases fields with
          | nil => exact h
          | cons field rest => exact AList.lookup_insert _
      | _ => exact h

theorem lookup_configure (h : configs.lookup entry.id = none) :
    (entry.configure configs).lookup entry.id = entry.config := by
  have hData := lookup_storeData h
  have hSkip : (entry.storeSkipCondition (entry.storeData configs)).lookup entry.id =
      entry.skipFields.map .object := by
    rw [storeSkipCondition, skipFields]
    cases entry.skipCondition with
    | none => exact hData
    | some condition => exact lookup_reserve hData _ _
  rw [configure, storeContinueOnError, config, continueFields]
  split
  · exact lookup_reserve hSkip _ _
  · exact hSkip

theorem install_of_room {E : ParallelWorkflowEngine H}
    (h : E.nodeCount < E.maxWorkflowNodes.toNat) :
    entry.install E =
      { E with
        graph := E.graph.addNode entry.id
        nodeMap := E.nodeMap.insert entry.id E.nodeCount
        nodeLabels := E.nodeLabels.insert entry.id entry.rfId
        nodeConfigs := entry.configure E.nodeConfigs
        nodeMeta := E.nodeMeta.insert entry.id entry.info
        nodeTimeouts :=
          match entry.timeoutSecs with
          | some t => E.nodeTimeouts.insert entry.id t
          | none => E.nodeTimeouts } := by
  let labelled : ParallelWorkflowEngine H :=
    { E with
      nodeLabels := E.nodeLabels.insert entry.id entry.rfId
      nodeConfigs := entry.configure E.nodeConfigs }
  have hRoom : labelled.nodeCount < labelled.maxWorkflowNodes.toNat := h
  rw [install]
  change (match entry.timeoutSecs with
    | some t => { labelled.addNode entry.id entry.info with
        nodeTimeouts := (labelled.addNode entry.id entry.info).nodeTimeouts.insert entry.id t }
    | none => labelled.addNode entry.id entry.info) = _
  rw [addNode_of_room hRoom]
  split <;> rfl

end NodeEntry

section Holding

variable {F : GraphFormat} {E : ParallelWorkflowEngine H} {rfToNode : RfIds}
  {entries : List NodeEntry}

/-- The engine consists of the nodes of these entries. -/
structure Holds (E : ParallelWorkflowEngine H) (rfToNode : RfIds) (entries : List NodeEntry) :
    Prop where
  nodes : E.graph.nodes = entries.map (·.id)
  nodeMap : ∀ (i : Nat) (entry : NodeEntry), entries[i]? = some entry →
    E.nodeMap.lookup entry.id = some i
  info : ∀ entry ∈ entries, E.nodeMeta.lookup entry.id = some entry.info
  config : ∀ entry ∈ entries, E.nodeConfigs.lookup entry.id = entry.config
  unknown : ∀ id ∉ entries.map (·.id), E.nodeConfigs.lookup id = none
  rfId : ∀ entry ∈ entries, rfToNode.lookup entry.rfId = some entry.id
  known : ∀ s id, rfToNode.lookup s = some id → ∃ entry ∈ entries, entry.rfId = s

theorem Holds.install {entry : NodeEntry} (h : Holds E rfToNode entries)
    (hRoom : entries.length < E.maxWorkflowNodes.toNat)
    (hNew : entry.id ∉ entries.map (·.id)) (hNewRf : entry.rfId ∉ entries.map (·.rfId)) :
    Holds (entry.install E) (rfToNode.insert entry.rfId entry.id) (entries ++ [entry]) := by
  have hCount : E.nodeCount = entries.length := by
    rw [nodeCount, h.nodes, List.length_map]
  have hOther : ∀ e ∈ entries, e.id ≠ entry.id := by
    intro e he hSame
    exact hNew (List.mem_map.2 ⟨e, he, hSame⟩)
  have hMem : ∀ e ∈ entries ++ [entry], e ∈ entries ∨ e = entry := by
    intro e he
    exact (List.mem_append.1 he).imp_right List.mem_singleton.1
  rw [NodeEntry.install_of_room (hCount ▸ hRoom)]
  refine ⟨?_, ?_, ?_, ?_, ?_, ?_, ?_⟩
  · rw [List.map_append, ← h.nodes]
    rfl
  · intro i e hi
    dsimp only
    obtain hLt | hGe := Nat.lt_or_ge i entries.length
    · rw [List.getElem?_append_left hLt] at hi
      rw [AList.lookup_insert_ne (hOther e (List.mem_of_getElem? hi))]
      exact h.nodeMap i e hi
    · rw [List.getElem?_append_right hGe] at hi
      have hZero : i - entries.length = 0 := by
        have hLt := (List.getElem?_eq_some_iff.1 hi).1
        rw [List.length_singleton] at hLt
        omega
      have hLast : entries.length = i := by omega
      rw [hZero] at hi
      cases hi
      rw [AList.lookup_insert, hCount, hLast]
  · intro e he
    dsimp only
    obtain he | rfl := hMem e he
    · rw [AList.lookup_insert_ne (hOther e he)]
      exact h.info e he
    · exact AList.lookup_insert _
  · intro e he
    obtain he | rfl := hMem e he
    · exact (NodeEntry.lookup_configure_ne (hOther e he)).trans (h.config e he)
    · exact NodeEntry.lookup_configure (h.unknown e.id hNew)
  · intro id hId
    rw [List.map_append, List.mem_append, not_or] at hId
    have hNe : id ≠ entry.id := fun hSame => hId.2 (List.mem_singleton.2 hSame)
    exact (NodeEntry.lookup_configure_ne hNe).trans (h.unknown id hId.1)
  · intro e he
    obtain he | rfl := hMem e he
    · rw [AList.lookup_insert_ne]
      · exact h.rfId e he
      · intro hSame
        exact hNewRf (List.mem_map.2 ⟨e, he, hSame⟩)
    · exact AList.lookup_insert _
  · intro s id hs
    by_cases hSame : s = entry.rfId
    · exact ⟨entry, List.mem_append_right _ (List.mem_singleton_self entry), hSame.symm⟩
    · rw [AList.lookup_insert_ne hSame] at hs
      obtain ⟨e, he, hKnown⟩ := h.known s id hs
      exact ⟨e, List.mem_append_left _ he, hKnown⟩

theorem GraphFormat.readNode_rfId {actorId : Option Uuid} {node : Json} {entry : NodeEntry}
    (h : F.readNode actorId node = some entry) : entry.id = F.nodeIdFor entry.rfId := by
  rw [readNode] at h
  split at h
  · obtain ⟨moduleId, -, rfl⟩ := Option.map_eq_some_iff.1 h
    rfl
  · split at h
    · cases h
      rfl
    · cases h

theorem holds_load_nodes (nodes : List Json) (entries : List NodeEntry)
    (hHolds : Holds E rfToNode entries)
    (hIds : ∀ entry ∈ entries, entry.id = F.nodeIdFor entry.rfId)
    (hNodup : ((entries ++ nodes.filterMap (F.readNode E.actorId)).map (·.id)).Nodup)
    (hRoom : entries.length + nodes.length ≤ E.maxWorkflowNodes.toNat) :
    Holds (nodes.foldl F.loadNode (E, rfToNode)).1 (nodes.foldl F.loadNode (E, rfToNode)).2
      (entries ++ nodes.filterMap (F.readNode E.actorId)) := by
  induction nodes generalizing E rfToNode entries with
  | nil =>
      rw [List.filterMap_nil, List.append_nil]
      exact hHolds
  | cons node rest ih =>
      rw [List.length_cons] at hRoom
      rw [List.foldl_cons, GraphFormat.loadNode]
      cases hRead : F.readNode E.actorId node with
      | none =>
          rw [List.filterMap_cons_none hRead] at hNodup ⊢
          exact ih entries hHolds hIds hNodup (by omega)
      | some entry =>
          rw [List.filterMap_cons_some hRead] at hNodup ⊢
          rw [← List.singleton_append, ← List.append_assoc] at hNodup ⊢
          have hId : entry.id = F.nodeIdFor entry.rfId := F.readNode_rfId hRead
          have hNew : entry.id ∉ entries.map (·.id) := by
            rw [List.map_append, List.map_append] at hNodup
            intro hMem
            have hDisjoint := (List.nodup_append.1 (List.nodup_append.1 hNodup).1).2.2
            exact hDisjoint _ hMem _ (List.mem_singleton_self _) rfl
          have hNewRf : entry.rfId ∉ entries.map (·.rfId) := by
            intro hMem
            obtain ⟨e, he, hSame⟩ := List.mem_map.1 hMem
            have hSameId : e.id = entry.id := by rw [hIds e he, hSame, hId]
            exact hNew (List.mem_map.2 ⟨e, he, hSameId⟩)
          have hLt : entries.length < E.maxWorkflowNodes.toNat := by omega
          have hCount : E.nodeCount = entries.length := by
            rw [nodeCount, hHolds.nodes, List.length_map]
          have hActor := untouched_actorId.install entry E
          have hLimit := (places_install (E := E) entry).limit
          rw [← hActor] at hNodup ⊢
          apply ih (entries ++ [entry]) (hHolds.install hLt hNew hNewRf)
          · intro e he
            obtain he | he := List.mem_append.1 he
            · exact hIds e he
            · rw [List.mem_singleton.1 he]
              exact hId
          · exact hNodup
          · rw [hLimit, List.length_append, List.length_singleton]
            omega

theorem edges_load_nodes (nodes : List Json) (rfToNode : RfIds) :
    (nodes.foldl F.loadNode (E, rfToNode)).1.graph.edges = E.graph.edges := by
  apply load_nodes_invariant (F := F) (I := fun E' => E'.graph.edges = E.graph.edges)
  · intro E₁ E₂ id hPlaces h
    obtain hRoom | hFull := Nat.lt_or_ge E₁.nodeCount E₁.maxWorkflowNodes.toNat
    · rw [(hPlaces.room hRoom).1]
      exact h
    · rw [(hPlaces.full hFull).1]
      exact h
  · rfl

end Holding

section Joining

variable {F : GraphFormat} {E : ParallelWorkflowEngine H} {rfToNode : RfIds}
  {entries : List NodeEntry}

def ParallelWorkflowEngine.edgeList (E : ParallelWorkflowEngine H) :
    List (Uuid × Uuid × EdgeLogic) :=
  E.graph.edges.map fun e => (E.nodeId e.source, E.nodeId e.target, e.weight)

/-- The edge of a document, if both of its ends are known. -/
def resolveEdge (rfToNode : RfIds) (edge : Json) : Option (Uuid × Uuid × EdgeLogic) :=
  match rfToNode.lookup ((edge.strField "source").getD ""),
      rfToNode.lookup ((edge.strField "target").getD "") with
  | some source, some target => some (source, target, readEdge edge)
  | _, _ => none

theorem loadEdge_eq (E : ParallelWorkflowEngine H) (rfToNode : RfIds) (edge : Json) :
    ∃ g : Multigraph Uuid EdgeLogic, g.nodes = E.graph.nodes ∧
      loadEdge rfToNode E edge = { E with graph := g } := by
  unfold loadEdge
  split
  · split
    · rename_i hAdded
      rw [ParallelWorkflowEngine.addEdge] at hAdded
      split at hAdded
      · cases hAdded
      · cases hAdded
      · split at hAdded
        · cases hAdded
          exact ⟨E.graph.addEdge _ _ _ _ _, rfl, rfl⟩
        · cases hAdded
    · exact ⟨E.graph, rfl, rfl⟩
  · exact ⟨E.graph, rfl, rfl⟩

theorem Holds.rewired (h : Holds E rfToNode entries) {g : Multigraph Uuid EdgeLogic}
    (hNodes : g.nodes = E.graph.nodes) : Holds { E with graph := g } rfToNode entries :=
  ⟨hNodes.trans h.nodes, h.nodeMap, h.info, h.config, h.unknown, h.rfId, h.known⟩

theorem Holds.located (h : Holds E rfToNode entries) {s : String} {id : Uuid}
    (hKnown : rfToNode.lookup s = some id) :
    ∃ idx, E.nodeMap.lookup id = some idx ∧ idx < E.graph.nodes.length ∧ E.nodeId idx = id := by
  obtain ⟨entry, hEntry, rfl⟩ := h.known s id hKnown
  have hId : entry.id = id := by
    rw [h.rfId entry hEntry] at hKnown
    exact Option.some.inj hKnown
  obtain ⟨idx, hIdx⟩ := List.mem_iff_getElem?.1 hEntry
  have hNode : E.graph.nodes[idx]? = some id := by
    rw [h.nodes, List.getElem?_map, hIdx, Option.map_some, hId]
  refine ⟨idx, ?_, (List.getElem?_eq_some_iff.1 hNode).1, nodeId_of_getElem? hNode⟩
  rw [← hId]
  exact h.nodeMap idx entry hIdx

theorem edgeList_loadEdge (h : Holds E rfToNode entries) (edge : Json) :
    (loadEdge rfToNode E edge).edgeList = E.edgeList ++ (resolveEdge rfToNode edge).toList := by
  rw [loadEdge, resolveEdge]
  cases hSource : rfToNode.lookup ((edge.strField "source").getD "") with
  | none => exact (List.append_nil _).symm
  | some source =>
      cases hTarget : rfToNode.lookup ((edge.strField "target").getD "") with
      | none => exact (List.append_nil _).symm
      | some target =>
          obtain ⟨a, hA, hALt, hAId⟩ := h.located hSource
          obtain ⟨b, hB, hBLt, hBId⟩ := h.located hTarget
          have hAdded : E.addEdge source target (readEdge edge) =
              .ok { E with graph := E.graph.addEdge a b (readEdge edge) hALt hBLt } := by
            simp only [ParallelWorkflowEngine.addEdge, hA, hB]
            exact dif_pos ⟨hALt, hBLt⟩
          dsimp only
          rw [hAdded]
          change (E.graph.edges ++ [_]).map _ = _
          rw [List.map_append, List.map_singleton]
          change E.edgeList ++ [(E.nodeId a, E.nodeId b, readEdge edge)] = _
          rw [hAId, hBId]
          rfl

theorem holds_load_edges (edges : List Json) (h : Holds E rfToNode entries) :
    Holds (edges.foldl (loadEdge rfToNode) E) rfToNode entries ∧
      (edges.foldl (loadEdge rfToNode) E).edgeList =
        E.edgeList ++ edges.filterMap (resolveEdge rfToNode) := by
  induction edges generalizing E with
  | nil => exact ⟨h, (List.append_nil _).symm⟩
  | cons edge rest ih =>
      obtain ⟨g, hNodes, hEdge⟩ := loadEdge_eq E rfToNode edge
      have hNext : Holds (loadEdge rfToNode E edge) rfToNode entries := by
        rw [hEdge]
        exact h.rewired hNodes
      obtain ⟨hHolds, hList⟩ := ih hNext
      refine ⟨hHolds, ?_⟩
      rw [List.foldl_cons, hList, edgeList_loadEdge h, List.append_assoc, List.filterMap_cons]
      cases resolveEdge rfToNode edge with
      | none => rfl
      | some resolved => rfl

/-- The engine that a document is loaded into, if its recognised nodes have distinct ids. -/
theorem holds_document {E₀ : ParallelWorkflowEngine H} {graph : Json}
    (hLoad : F.parseGraphDocument (E₀.withDocument .empty) graph = .ok E)
    (hNodup : (((GraphFormat.documentNodes graph).filterMap (F.readNode E₀.actorId)).map
      (·.id)).Nodup)
    (hRoom : (GraphFormat.documentNodes graph).length ≤ E₀.maxWorkflowNodes.toNat) :
    ∃ rfToNode, Holds E rfToNode
        ((GraphFormat.documentNodes graph).filterMap (F.readNode E₀.actorId)) ∧
      E.edgeList = (GraphFormat.documentEdges graph).filterMap (resolveEdge rfToNode) := by
  have hBlank : Holds (E₀.withDocument .empty) ∅ [] := by
    refine ⟨rfl, ?_, ?_, ?_, ?_, ?_, ?_⟩
    · intro i entry hi
      cases hi
    · intro entry hEntry
      cases hEntry
    · intro entry hEntry
      cases hEntry
    · intro id _
      rfl
    · intro entry hEntry
      cases hEntry
    · intro s id hs
      cases hs
  rw [GraphFormat.parseGraphDocument] at hLoad
  split at hLoad
  · cases hLoad
  · cases hLoad
    have hNodes := holds_load_nodes (F := F) (GraphFormat.documentNodes graph) [] hBlank
      (fun entry hEntry => by cases hEntry) hNodup ((Nat.zero_add _).trans_le hRoom)
    obtain ⟨hHolds, hList⟩ := holds_load_edges (GraphFormat.documentEdges graph) hNodes
    refine ⟨_, hHolds, hList.trans ?_⟩
    rw [edgeList, edges_load_nodes]
    rfl

end Joining

end TalosWorkflow
