import TalosWorkflow.Documents.Codec
import TalosWorkflow.Documents.Loader

/-!
# The tables of the graph

Which calls keep the tables of an engine in step with its graph.
-/

namespace TalosWorkflow

variable {H : Host}

/-- A call that builds the graph. After an asynchronous load the rate limits of the fetcher are
stored as well. -/
inductive GraphCall where
  | load (graph : Json) (limits : List (Uuid × Int))
  | addNode (id : Uuid) (info : NodeMeta)
  | addEdge (source target : Uuid) (logic : EdgeLogic)

/-- A call that fails leaves the engine as it was. -/
def GraphCall.apply (F : GraphFormat) (E : ParallelWorkflowEngine H) :
    GraphCall → ParallelWorkflowEngine H
  | .load graph limits =>
      match F.parseGraphDocument E graph with
      | .ok E' => { E' with rateLimits := limits.foldl (fun m l => m.insert l.1 l.2) E'.rateLimits }
      | .error _ => E
  | .addNode id info => E.addNode id info
  | .addEdge source target logic =>
      match E.addEdge source target logic with
      | .ok E' => E'
      | .error _ => E

def GraphDocument.empty : GraphDocument where
  graph := .empty
  nodeMap := ∅
  nodeLabels := ∅
  nodeConfigs := ∅
  nodeMeta := ∅
  nodeTimeouts := ∅
  rateLimits := ∅

namespace ParallelWorkflowEngine

variable (E : ParallelWorkflowEngine H)

def nodeCount : Nat := E.graph.nodes.length

/-- A key of one of the tables that describe nodes. -/
def Mentions (id : Uuid) : Prop :=
  id ∈ E.nodeMeta ∨ id ∈ E.nodeConfigs ∨ id ∈ E.nodeLabels ∨ id ∈ E.nodeTimeouts

/-- `nodeMap` is a bijection onto the node indices, and the other tables have no further keys. -/
structure Represented : Prop where
  lt : ∀ id idx, E.nodeMap.lookup id = some idx → idx < E.nodeCount
  injective : ∀ id id' idx, E.nodeMap.lookup id = some idx → E.nodeMap.lookup id' = some idx →
    id = id'
  surjective : ∀ idx < E.nodeCount, ∃ id, E.nodeMap.lookup id = some idx
  known : ∀ id, E.Mentions id → id ∈ E.nodeMap

/-- Every entry of `nodeMap` leads to a node of that weight. -/
def Weighted : Prop := ∀ id idx, E.nodeMap.lookup id = some idx → E.graph.nodes[idx]? = some id

end ParallelWorkflowEngine

/-- Up to the limit every id is new, and from there on none is. -/
def Fits (limit : Nat) : List Uuid → List Uuid → Prop
  | _, [] => True
  | known, id :: rest =>
      if known.length < limit then id ∉ known ∧ Fits limit (id :: known) rest
      else id ∈ known ∧ Fits limit known rest

namespace GraphFormat

variable (F : GraphFormat)

def nodeIds (graph : Json) : List Uuid :=
  (documentNodes graph).filterMap fun node => (F.readNode none node).map (·.id)

end GraphFormat

def GraphCall.Fits (F : GraphFormat) (E : ParallelWorkflowEngine H) : GraphCall → Prop
  | .load graph _ => TalosWorkflow.Fits E.maxWorkflowNodes.toNat E.nodeMap.keys (F.nodeIds graph)
  | .addNode id _ => E.nodeMap.keys.length < E.maxWorkflowNodes.toNat → id ∉ E.nodeMap.keys
  | .addEdge .. => True

/-- Each call fits the engine that the calls before it have left. -/
def AllFit (F : GraphFormat) : ParallelWorkflowEngine H → List GraphCall → Prop
  | _, [] => True
  | E, call :: calls => call.Fits F E ∧ AllFit F (call.apply F E) calls

section Entries

variable {F : GraphFormat} {entry : NodeEntry} {configs : Table Json} {id : Uuid}

theorem NodeEntry.mem_reserve {key : String} {value : Json} {id' : Uuid} :
    id ∈ NodeEntry.reserve configs id' key value ↔ id = id' ∨ id ∈ configs := by
  rw [NodeEntry.reserve, AList.mem_insert]

theorem NodeEntry.mem_storeData_of_mem (h : id ∈ configs) : id ∈ entry.storeData configs := by
  unfold storeData
  split
  · exact (AList.mem_insert _).2 (.inr h)
  · exact h

theorem NodeEntry.mem_configure_of_mem (h : id ∈ configs) : id ∈ entry.configure configs := by
  have hData : id ∈ entry.storeData configs := mem_storeData_of_mem h
  have hSkip : id ∈ entry.storeSkipCondition (entry.storeData configs) := by
    unfold storeSkipCondition
    split
    · exact mem_reserve.2 (.inr hData)
    · exact hData
  unfold configure storeContinueOnError
  split
  · exact mem_reserve.2 (.inr hSkip)
  · exact hSkip

theorem NodeEntry.mem_of_mem_configure (h : id ∈ entry.configure configs) :
    id = entry.id ∨ id ∈ configs := by
  have hData : id ∈ entry.storeData configs → id = entry.id ∨ id ∈ configs := by
    unfold storeData
    split
    · exact (AList.mem_insert _).1
    · exact .inr
  have hSkip : id ∈ entry.storeSkipCondition (entry.storeData configs) →
      id = entry.id ∨ id ∈ configs := by
    unfold storeSkipCondition
    split
    · rw [mem_reserve]
      rintro (h | h)
      · exact .inl h
      · exact hData h
    · exact hData
  revert h
  unfold configure storeContinueOnError
  split
  · rw [mem_reserve]
    rintro (h | h)
    · exact .inl h
    · exact hSkip h
  · exact hSkip

end Entries

namespace ParallelWorkflowEngine

section Placing

variable {E E' : ParallelWorkflowEngine H} {id : Uuid}

/-- A node of this id is added if there is room, and its settings are stored in any case. -/
structure Places (E E' : ParallelWorkflowEngine H) (id : Uuid) : Prop where
  room : E.nodeCount < E.maxWorkflowNodes.toNat →
    E'.graph = E.graph.addNode id ∧ E'.nodeMap = E.nodeMap.insert id E.nodeCount
  full : E.maxWorkflowNodes.toNat ≤ E.nodeCount → E'.graph = E.graph ∧ E'.nodeMap = E.nodeMap
  limit : E'.maxWorkflowNodes = E.maxWorkflowNodes
  old : ∀ i, E.Mentions i → E'.Mentions i
  new : ∀ i, E'.Mentions i → i = id ∨ E.Mentions i

theorem addNode_of_room {info : NodeMeta} (h : E.nodeCount < E.maxWorkflowNodes.toNat) :
    E.addNode id info =
      { E with
        graph := E.graph.addNode id
        nodeMap := E.nodeMap.insert id E.nodeCount
        nodeMeta := E.nodeMeta.insert id info } :=
  if_neg (Nat.not_le.2 h)

theorem addNode_of_full {info : NodeMeta} (h : E.maxWorkflowNodes.toNat ≤ E.nodeCount) :
    E.addNode id info = E :=
  if_pos h

theorem places_addNode (id : Uuid) (info : NodeMeta) : E.Places (E.addNode id info) id := by
  obtain hRoom | hFull := Nat.lt_or_ge E.nodeCount E.maxWorkflowNodes.toNat
  · rw [addNode_of_room hRoom]
    exact
      { room := fun _ => ⟨rfl, rfl⟩
        full := fun hFull => absurd hFull (Nat.not_le.2 hRoom)
        limit := rfl
        old := fun i h => h.imp_left fun h => (AList.mem_insert _).2 (.inr h)
        new := fun i h => by
          obtain h | h := h
          · exact ((AList.mem_insert _).1 h).imp_right .inl
          · exact .inr (.inr h) }
  · rw [addNode_of_full hFull]
    exact
      { room := fun hRoom => absurd hFull (Nat.not_le.2 hRoom)
        full := fun _ => ⟨rfl, rfl⟩
        limit := rfl
        old := fun _ h => h
        new := fun _ => .inr }

theorem places_install (entry : NodeEntry) : E.Places (entry.install E) entry.id := by
  let labelled : ParallelWorkflowEngine H :=
    { E with
      nodeLabels := E.nodeLabels.insert entry.id entry.rfId
      nodeConfigs := entry.configure E.nodeConfigs }
  have hAdded : labelled.Places (labelled.addNode entry.id entry.info) entry.id :=
    places_addNode entry.id entry.info
  have hOld : ∀ i, E.Mentions i → labelled.Mentions i := by
    rintro i (h | h | h | h)
    · exact .inl h
    · exact .inr (.inl (NodeEntry.mem_configure_of_mem h))
    · exact .inr (.inr (.inl ((AList.mem_insert _).2 (.inr h))))
    · exact .inr (.inr (.inr h))
  have hNew : ∀ i, labelled.Mentions i → i = entry.id ∨ E.Mentions i := by
    rintro i (h | h | h | h)
    · exact .inr (.inl h)
    · exact (NodeEntry.mem_of_mem_configure h).imp_right fun h => .inr (.inl h)
    · exact ((AList.mem_insert _).1 h).imp_right fun h => .inr (.inr (.inl h))
    · exact .inr (.inr (.inr (.inr h)))
  have hPlaced : E.Places (labelled.addNode entry.id entry.info) entry.id :=
    { room := hAdded.room
      full := hAdded.full
      limit := hAdded.limit
      old := fun i h => hAdded.old i (hOld i h)
      new := fun i h => (hAdded.new i h).elim .inl (hNew i) }
  rw [NodeEntry.install]
  cases entry.timeoutSecs with
  | none => exact hPlaced
  | some t =>
      exact
        { room := hPlaced.room
          full := hPlaced.full
          limit := hPlaced.limit
          old := fun i h => (hPlaced.old i h).imp_right fun h => h.imp_right fun h =>
            h.imp_right fun h => (AList.mem_insert _).2 (.inr h)
          new := by
            rintro i (h | h | h | h)
            · exact hPlaced.new i (.inl h)
            · exact hPlaced.new i (.inr (.inl h))
            · exact hPlaced.new i (.inr (.inr (.inl h)))
            · obtain h | h := (AList.mem_insert _).1 h
              · exact .inl h
              · exact hPlaced.new i (.inr (.inr (.inr h))) }

theorem nodeLabels_install (entry : NodeEntry) :
    (entry.install E).nodeLabels = E.nodeLabels.insert entry.id entry.rfId :=
  entry.install_frame (fun _ _ _ _ _ => rfl) E

end Placing

section Soundness

variable {E E' : ParallelWorkflowEngine H} {id : Uuid}

structure Sound (E : ParallelWorkflowEngine H) : Prop where
  represented : E.Represented
  weighted : E.Weighted
  size : E.nodeMap.keys.length = E.nodeCount

def Doubled (E : ParallelWorkflowEngine H) : Prop :=
  ∃ idx < E.nodeCount, ∀ id, E.nodeMap.lookup id ≠ some idx

/-- Settings of an id for which there is no room any more. -/
def Orphaned (E : ParallelWorkflowEngine H) : Prop :=
  E.maxWorkflowNodes.toNat ≤ E.nodeCount ∧ ∃ id, E.Mentions id ∧ id ∉ E.nodeMap

def Broken (E : ParallelWorkflowEngine H) : Prop := E.Doubled ∨ E.Orphaned

theorem Broken.not_represented (h : E.Broken) : ¬ E.Represented := by
  intro hRepresented
  obtain ⟨idx, hIdx, hNone⟩ | ⟨-, id, hMentions, hNot⟩ := h
  · obtain ⟨id, hId⟩ := hRepresented.surjective idx hIdx
    exact hNone id hId
  · exact hNot (hRepresented.known id hMentions)

theorem nodeCount_of_graph {weight : Uuid} (h : E'.graph = E.graph.addNode weight) :
    E'.nodeCount = E.nodeCount + 1 := by
  rw [nodeCount, h]
  exact List.length_append

theorem nodeId_of_getElem? {idx : NodeIndex} (h : E.graph.nodes[idx]? = some id) :
    E.nodeId idx = id := by
  rw [nodeId, h]
  rfl

theorem Weighted.lt {idx : NodeIndex} (h : E.Weighted) (hId : E.nodeMap.lookup id = some idx) :
    idx < E.nodeCount :=
  (List.getElem?_eq_some_iff.1 (h id idx hId)).1

theorem Weighted.place (h : E.Weighted) (hPlaces : E.Places E' id) : E'.Weighted := by
  intro i idx hi
  obtain hRoom | hFull := Nat.lt_or_ge E.nodeCount E.maxWorkflowNodes.toNat
  · obtain ⟨hGraph, hMap⟩ := hPlaces.room hRoom
    rw [hMap] at hi
    rw [hGraph]
    change (E.graph.nodes ++ [id])[idx]? = some i
    by_cases hSame : i = id
    · subst hSame
      rw [AList.lookup_insert, Option.some_inj] at hi
      rw [← hi]
      exact List.getElem?_concat_length
    · rw [AList.lookup_insert_ne hSame] at hi
      rw [List.getElem?_append_left (h.lt hi)]
      exact h i idx hi
  · obtain ⟨hGraph, hMap⟩ := hPlaces.full hFull
    rw [hMap] at hi
    rw [hGraph]
    exact h i idx hi

theorem Sound.place (h : E.Sound) (hPlaces : E.Places E' id)
    (hRoom : E.nodeCount < E.maxWorkflowNodes.toNat) (hNew : id ∉ E.nodeMap) : E'.Sound := by
  obtain ⟨hGraph, hMap⟩ := hPlaces.room hRoom
  have hCount : E'.nodeCount = E.nodeCount + 1 := nodeCount_of_graph hGraph
  have hLookup : ∀ {i idx}, E'.nodeMap.lookup i = some idx →
      i = id ∧ idx = E.nodeCount ∨ i ≠ id ∧ E.nodeMap.lookup i = some idx := by
    intro i idx hi
    rw [hMap] at hi
    by_cases hSame : i = id
    · subst hSame
      rw [AList.lookup_insert, Option.some_inj] at hi
      exact .inl ⟨rfl, hi.symm⟩
    · rw [AList.lookup_insert_ne hSame] at hi
      exact .inr ⟨hSame, hi⟩
  refine ⟨⟨?_, ?_, ?_, ?_⟩, ?_, ?_⟩
  · intro i idx hi
    rw [hCount]
    obtain ⟨-, rfl⟩ | ⟨-, hi⟩ := hLookup hi
    · exact Nat.lt_succ_self _
    · exact Nat.lt_succ_of_lt (h.represented.lt i idx hi)
  · intro i j idx hi hj
    obtain ⟨rfl, rfl⟩ | ⟨-, hi⟩ := hLookup hi
    · obtain ⟨rfl, -⟩ | ⟨-, hj⟩ := hLookup hj
      · rfl
      · exact absurd (h.represented.lt j _ hj) (Nat.lt_irrefl _)
    · obtain ⟨-, rfl⟩ | ⟨-, hj⟩ := hLookup hj
      · exact absurd (h.represented.lt i _ hi) (Nat.lt_irrefl _)
      · exact h.represented.injective i j idx hi hj
  · intro idx hIdx
    obtain hLast | hBefore := Nat.lt_succ_iff_lt_or_eq.1 (hCount ▸ hIdx) |>.symm
    · exact ⟨id, by rw [hMap, AList.lookup_insert, hLast]⟩
    · obtain ⟨i, hi⟩ := h.represented.surjective idx hBefore
      refine ⟨i, ?_⟩
      rw [hMap, AList.lookup_insert_ne, hi]
      rintro rfl
      exact hNew (AList.lookup_isSome.1 (Option.isSome_of_eq_some hi))
  · intro i hi
    rw [hMap, AList.mem_insert]
    exact (hPlaces.new i hi).imp_right (h.represented.known i)
  · exact h.weighted.place hPlaces
  · rw [hMap, AList.keys_insert, List.length_cons, List.erase_of_not_mem hNew, h.size, hCount]

theorem Sound.keep (h : E.Sound) (hPlaces : E.Places E' id)
    (hFull : E.maxWorkflowNodes.toNat ≤ E.nodeCount) (hOld : id ∈ E.nodeMap) : E'.Sound := by
  obtain ⟨hGraph, hMap⟩ := hPlaces.full hFull
  have hCount : E'.nodeCount = E.nodeCount := by rw [nodeCount, hGraph, nodeCount]
  refine ⟨⟨?_, ?_, ?_, ?_⟩, ?_, ?_⟩
  · rw [hMap, hCount]
    exact h.represented.lt
  · rw [hMap]
    exact h.represented.injective
  · rw [hMap, hCount]
    exact h.represented.surjective
  · intro i hi
    rw [hMap]
    obtain rfl | hi := hPlaces.new i hi
    · exact hOld
    · exact h.represented.known i hi
  · exact h.weighted.place hPlaces
  · rw [hMap, hCount]
    exact h.size

theorem Broken.place (h : E.Broken) (hPlaces : E.Places E' id) : E'.Broken := by
  obtain hRoom | hFull := Nat.lt_or_ge E.nodeCount E.maxWorkflowNodes.toNat
  · obtain ⟨hGraph, hMap⟩ := hPlaces.room hRoom
    obtain ⟨idx, hIdx, hNone⟩ | ⟨hFull, -⟩ := h
    · refine .inl ⟨idx, ?_, ?_⟩
      · rw [nodeCount_of_graph hGraph]
        exact Nat.lt_succ_of_lt hIdx
      · intro i hi
        rw [hMap] at hi
        by_cases hSame : i = id
        · subst hSame
          rw [AList.lookup_insert, Option.some_inj] at hi
          exact absurd hi (Nat.ne_of_gt hIdx)
        · rw [AList.lookup_insert_ne hSame] at hi
          exact hNone i hi
    · exact absurd hFull (Nat.not_le.2 hRoom)
  · obtain ⟨hGraph, hMap⟩ := hPlaces.full hFull
    obtain ⟨idx, hIdx, hNone⟩ | ⟨-, i, hMentions, hNot⟩ := h
    · refine .inl ⟨idx, ?_, ?_⟩
      · rwa [nodeCount, hGraph]
      · rwa [hMap]
    · refine .inr ⟨?_, i, hPlaces.old i hMentions, ?_⟩
      · rwa [hPlaces.limit, nodeCount, hGraph]
      · rwa [hMap]

/-- A second node of one id takes its entry away from the first. -/
theorem Sound.double (h : E.Sound) (hPlaces : E.Places E' id)
    (hRoom : E.nodeCount < E.maxWorkflowNodes.toNat) (hOld : id ∈ E.nodeMap) : E'.Broken := by
  obtain ⟨hGraph, hMap⟩ := hPlaces.room hRoom
  obtain ⟨idx, hIdx⟩ := Option.isSome_iff_exists.1 (AList.lookup_isSome.2 hOld)
  have hLt : idx < E.nodeCount := h.represented.lt id idx hIdx
  refine .inl ⟨idx, ?_, ?_⟩
  · rw [nodeCount_of_graph hGraph]
    exact Nat.lt_succ_of_lt hLt
  · intro i hi
    rw [hMap] at hi
    by_cases hSame : i = id
    · subst hSame
      rw [AList.lookup_insert, Option.some_inj] at hi
      exact absurd hi (Nat.ne_of_gt hLt)
    · rw [AList.lookup_insert_ne hSame] at hi
      exact hSame (h.represented.injective i id idx hi hIdx)

theorem orphaned_install {entry : NodeEntry} (hFull : E.maxWorkflowNodes.toNat ≤ E.nodeCount)
    (hNew : entry.id ∉ E.nodeMap) : (entry.install E).Broken := by
  have hPlaces := places_install (E := E) entry
  obtain ⟨hGraph, hMap⟩ := hPlaces.full hFull
  refine .inr ⟨?_, entry.id, .inr (.inr (.inl ?_)), ?_⟩
  · rwa [hPlaces.limit, nodeCount, hGraph]
  · rw [nodeLabels_install]
    exact (AList.mem_insert _).2 (.inl rfl)
  · rwa [hMap]

end Soundness

section Edges

variable {E E' : ParallelWorkflowEngine H}

structure SameNodes (E E' : ParallelWorkflowEngine H) : Prop where
  nodes : E'.graph.nodes = E.graph.nodes
  nodeMap : E'.nodeMap = E.nodeMap
  mentions : E'.Mentions = E.Mentions
  limit : E'.maxWorkflowNodes = E.maxWorkflowNodes

theorem SameNodes.refl (E : ParallelWorkflowEngine H) : SameNodes E E := ⟨rfl, rfl, rfl, rfl⟩

theorem SameNodes.trans {E'' : ParallelWorkflowEngine H} (h : SameNodes E E')
    (h' : SameNodes E' E'') : SameNodes E E'' :=
  ⟨h'.nodes.trans h.nodes, h'.nodeMap.trans h.nodeMap, h'.mentions.trans h.mentions,
    h'.limit.trans h.limit⟩

theorem SameNodes.nodeCount (h : SameNodes E E') : E'.nodeCount = E.nodeCount :=
  congrArg List.length h.nodes

theorem Weighted.sameNodes (h : E.Weighted) (hSame : SameNodes E E') : E'.Weighted := by
  rw [Weighted, hSame.nodeMap, hSame.nodes]
  exact h

theorem Sound.sameNodes (h : E.Sound) (hSame : SameNodes E E') : E'.Sound := by
  refine ⟨⟨?_, ?_, ?_, ?_⟩, h.weighted.sameNodes hSame, ?_⟩
  · rw [hSame.nodeMap, hSame.nodeCount]
    exact h.represented.lt
  · rw [hSame.nodeMap]
    exact h.represented.injective
  · rw [hSame.nodeMap, hSame.nodeCount]
    exact h.represented.surjective
  · rw [hSame.nodeMap, hSame.mentions]
    exact h.represented.known
  · rw [hSame.nodeMap, hSame.nodeCount]
    exact h.size

theorem Broken.sameNodes (h : E.Broken) (hSame : SameNodes E E') : E'.Broken := by
  rw [Broken, Doubled, Orphaned, hSame.nodeMap, hSame.nodeCount, hSame.limit, hSame.mentions]
  exact h

theorem sameNodes_addEdge {source target : Uuid} {logic : EdgeLogic}
    (h : E.addEdge source target logic = .ok E') : SameNodes E E' := by
  rw [addEdge] at h
  split at h
  · cases h
  · cases h
  · split at h
    · cases h
      exact ⟨rfl, rfl, rfl, rfl⟩
    · cases h

theorem sameNodes_loadEdge (rfToNode : RfIds) (E : ParallelWorkflowEngine H) (edge : Json) :
    SameNodes E (loadEdge rfToNode E edge) := by
  unfold loadEdge
  split
  · split
    · rename_i hAdded
      exact sameNodes_addEdge hAdded
    · exact .refl E
  · exact .refl E

theorem sameNodes_loadEdges (rfToNode : RfIds) (E : ParallelWorkflowEngine H) (edges : List Json) :
    SameNodes E (edges.foldl (loadEdge rfToNode) E) := by
  induction edges generalizing E with
  | nil => exact .refl E
  | cons edge rest ih => exact (sameNodes_loadEdge rfToNode E edge).trans (ih _)

end Edges

end ParallelWorkflowEngine

section Calls

open ParallelWorkflowEngine

variable {F : GraphFormat} {E : ParallelWorkflowEngine H}

theorem GraphFormat.readNode_id (actorId : Option Uuid) (node : Json) :
    (F.readNode actorId node).map (·.id) = (F.readNode none node).map (·.id) := by
  rw [readNode, readNode]
  split
  · rw [Option.map_map, Option.map_map]
    rfl
  · rfl

theorem load_nodes_invariant {I : ParallelWorkflowEngine H → Prop}
    (hPlaces : ∀ E E' id, Places E E' id → I E → I E') (nodes : List Json) (rfToNode : RfIds)
    (h : I E) : I (nodes.foldl F.loadNode (E, rfToNode)).1 := by
  induction nodes generalizing E rfToNode with
  | nil => exact h
  | cons node rest ih =>
      rw [List.foldl_cons, GraphFormat.loadNode]
      cases F.readNode E.actorId node with
      | none => exact ih rfToNode h
      | some entry => exact ih _ (hPlaces E _ entry.id (places_install entry) h)

/-- Nodes that fit keep the tables sound, and nodes that do not fit break them. -/
theorem load_nodes (nodes : List Json) (rfToNode : RfIds) (h : E.Sound) :
    let ids := nodes.filterMap fun node => (F.readNode none node).map (·.id)
    let fits := Fits E.maxWorkflowNodes.toNat E.nodeMap.keys ids
    (fits → (nodes.foldl F.loadNode (E, rfToNode)).1.Sound) ∧
      (¬ fits → (nodes.foldl F.loadNode (E, rfToNode)).1.Broken) := by
  induction nodes generalizing E rfToNode with
  | nil => exact ⟨fun _ => h, fun hNot => absurd trivial hNot⟩
  | cons node rest ih =>
      rw [List.foldl_cons, List.filterMap_cons, ← GraphFormat.readNode_id E.actorId,
        GraphFormat.loadNode]
      cases F.readNode E.actorId node with
      | none => exact ih rfToNode h
      | some entry =>
          have hPlaces := places_install (E := E) entry
          have hBreaks : (entry.install E).Broken →
              (rest.foldl F.loadNode (entry.install E, rfToNode.insert entry.rfId entry.id)).1.Broken :=
            load_nodes_invariant (fun _ _ _ hPlaces h => h.place hPlaces) rest _
          dsimp only [Option.map_some]
          rw [Fits, h.size]
          obtain hRoom | hFull := Nat.lt_or_ge E.nodeCount E.maxWorkflowNodes.toNat
          · rw [if_pos hRoom]
            by_cases hOld : entry.id ∈ E.nodeMap
            · have hBroken := hBreaks (h.double hPlaces hRoom hOld)
              exact ⟨fun hFits => absurd hOld hFits.1, fun _ => hBroken⟩
            · have hKeys : (entry.install E).nodeMap.keys = entry.id :: E.nodeMap.keys := by
                rw [(hPlaces.room hRoom).2, AList.keys_insert, List.erase_of_not_mem hOld]
              have hRest := ih (rfToNode.insert entry.rfId entry.id) (h.place hPlaces hRoom hOld)
              rw [hKeys, hPlaces.limit] at hRest
              exact ⟨fun hFits => hRest.1 hFits.2,
                fun hNot => hRest.2 fun hFits => hNot ⟨hOld, hFits⟩⟩
          · rw [if_neg (Nat.not_lt.2 hFull)]
            by_cases hOld : entry.id ∈ E.nodeMap
            · have hRest := ih (rfToNode.insert entry.rfId entry.id) (h.keep hPlaces hFull hOld)
              rw [(hPlaces.full hFull).2, hPlaces.limit] at hRest
              exact ⟨fun hFits => hRest.1 hFits.2,
                fun hNot => hRest.2 fun hFits => hNot ⟨hOld, hFits⟩⟩
            · have hBroken := hBreaks (orphaned_install hFull hOld)
              exact ⟨fun hFits => absurd hFits.1 hOld, fun _ => hBroken⟩

theorem GraphFormat.parseGraphDocument_ok {E' : ParallelWorkflowEngine H} {graph : Json}
    (h : F.parseGraphDocument E graph = .ok E') :
    documentNodes graph ≠ [] ∧ SameNodes ((documentNodes graph).foldl F.loadNode (E, ∅)).1 E' := by
  rw [parseGraphDocument] at h
  split at h
  · cases h
  · rename_i hNodes
    cases h
    exact ⟨hNodes, sameNodes_loadEdges _ _ _⟩

theorem GraphCall.apply_broken (call : GraphCall) (h : E.Broken) : (call.apply F E).Broken := by
  cases call with
  | load graph limits =>
      rw [apply]
      split
      · rename_i hParse
        obtain ⟨-, hSame⟩ := GraphFormat.parseGraphDocument_ok hParse
        have hNodes : ((GraphFormat.documentNodes graph).foldl F.loadNode (E, ∅)).1.Broken :=
          load_nodes_invariant (fun _ _ _ hPlaces h => h.place hPlaces) _ ∅ h
        exact (hNodes.sameNodes hSame).sameNodes ⟨rfl, rfl, rfl, rfl⟩
      · exact h
  | addNode id info => exact h.place (places_addNode id info)
  | addEdge source target logic =>
      rw [apply]
      split
      · rename_i hAdded
        exact h.sameNodes (sameNodes_addEdge hAdded)
      · exact h

theorem GraphCall.apply_sound (call : GraphCall) (h : E.Sound) :
    (call.Fits F E → (call.apply F E).Sound) ∧ (¬ call.Fits F E → (call.apply F E).Broken) := by
  cases call with
  | load graph limits =>
      rw [apply, Fits]
      split
      · rename_i hParse
        obtain ⟨-, hSame⟩ := GraphFormat.parseGraphDocument_ok hParse
        obtain ⟨hFits, hNot⟩ := load_nodes (F := F) (GraphFormat.documentNodes graph) ∅ h
        constructor
        · intro hGraph
          exact ((hFits hGraph).sameNodes hSame).sameNodes ⟨rfl, rfl, rfl, rfl⟩
        · intro hGraph
          exact ((hNot hGraph).sameNodes hSame).sameNodes ⟨rfl, rfl, rfl, rfl⟩
      · rename_i hParse
        refine ⟨fun _ => h, fun hNot => absurd ?_ hNot⟩
        rw [GraphFormat.parseGraphDocument] at hParse
        split at hParse
        · rename_i hEmpty
          rw [GraphFormat.nodeIds, hEmpty]
          exact trivial
        · cases hParse
  | addNode id info =>
      have hPlaces := places_addNode (E := E) id info
      rw [apply, Fits, h.size]
      obtain hRoom | hFull := Nat.lt_or_ge E.nodeCount E.maxWorkflowNodes.toNat
      · constructor
        · intro hNew
          exact h.place hPlaces hRoom (hNew hRoom)
        · intro hNot
          apply h.double hPlaces hRoom
          by_contra hNew
          exact hNot fun _ => hNew
      · rw [addNode_of_full hFull]
        exact ⟨fun _ => h, fun hNot => absurd (fun hRoom => absurd hFull (Nat.not_le.2 hRoom)) hNot⟩
  | addEdge source target logic =>
      rw [apply]
      refine ⟨fun _ => ?_, fun hNot => absurd trivial hNot⟩
      split
      · rename_i hAdded
        exact h.sameNodes (sameNodes_addEdge hAdded)
      · exact h

theorem broken_of_calls (calls : List GraphCall) (h : E.Broken) :
    (calls.foldl (fun E call => call.apply F E) E).Broken := by
  induction calls generalizing E with
  | nil => exact h
  | cons call rest ih => exact ih (call.apply_broken h)

theorem sound_of_calls (calls : List GraphCall) (h : E.Sound) :
    (AllFit F E calls → (calls.foldl (fun E call => call.apply F E) E).Sound) ∧
      (¬ AllFit F E calls → (calls.foldl (fun E call => call.apply F E) E).Broken) := by
  induction calls generalizing E with
  | nil => exact ⟨fun _ => h, fun hNot => absurd trivial hNot⟩
  | cons call rest ih =>
      obtain ⟨hFits, hNot⟩ := call.apply_sound (F := F) h
      rw [List.foldl_cons, AllFit]
      by_cases hCall : call.Fits F E
      · obtain ⟨ihFits, ihNot⟩ := ih (hFits hCall)
        exact ⟨fun hAll => ihFits hAll.2, fun hAll => ihNot fun hRest => hAll ⟨hCall, hRest⟩⟩
      · exact ⟨fun hAll => absurd hAll.1 hCall, fun _ => broken_of_calls rest (hNot hCall)⟩

theorem sound_blank (E : ParallelWorkflowEngine H) : (E.withDocument .empty).Sound := by
  refine ⟨⟨?_, ?_, ?_, ?_⟩, ?_, rfl⟩
  · intro id idx h
    cases h
  · intro id id' idx h
    cases h
  · intro idx h
    cases h
  · rintro id (h | h | h | h)
    · exact absurd h (AList.notMem_empty id)
    · exact absurd h (AList.notMem_empty id)
    · exact absurd h (AList.notMem_empty id)
    · exact absurd h (AList.notMem_empty id)
  · intro id idx h
    cases h

/-- The tables stay in step with the graph exactly as long as all calls fit. -/
theorem represented_after_calls_iff (F : GraphFormat) (E : ParallelWorkflowEngine H)
    (calls : List GraphCall) :
    (calls.foldl (fun E call => call.apply F E) (E.withDocument .empty)).Represented ↔
      AllFit F (E.withDocument .empty) calls := by
  obtain ⟨hFits, hNot⟩ := sound_of_calls (F := F) calls (sound_blank E)
  constructor
  · intro h
    by_contra hAll
    exact (hNot hAll).not_represented h
  · intro hAll
    exact (hFits hAll).represented

def duplicateGraph : Json :=
  .object [("nodes", .array (List.replicate 2
    (.object [("id", GraphFormat.uuidJson 1), ("type", GraphFormat.uuidJson 2)])))]

/-- The graph has two nodes then, and `nodeMap` one entry. -/
theorem duplicate_ids_not_represented :
    ¬ ∀ (F : GraphFormat) (E : ParallelWorkflowEngine (bareHost true)) (calls : List GraphCall),
      (calls.foldl (fun E call => call.apply F E) (E.withDocument .empty)).Represented := by
  intro hAll
  let E : ParallelWorkflowEngine (bareHost true) := .new
  have hIds : plainFormat.nodeIds duplicateGraph = [1, 1] := by decide
  have hNot : ¬ AllFit plainFormat (E.withDocument .empty) [.load duplicateGraph []] := by
    rintro ⟨hFits, -⟩
    rw [GraphCall.Fits, hIds] at hFits
    obtain ⟨-, hNew, -⟩ := hFits
    exact hNew List.mem_cons_self
  exact ((sound_of_calls _ (sound_blank E)).2 hNot).not_represented (hAll plainFormat E _)

end Calls

end TalosWorkflow
