import TalosWorkflow.Documents.Representation

/-!
# The trigger node

Wiring a synthetic root in front of the roots of a loaded graph.
-/

namespace TalosWorkflow

variable {H : Host}

namespace ParallelWorkflowEngine

open Multigraph

/-- The engine with a trigger node, and its id. A new node takes the id `fresh`. -/
def installTrigger (E : ParallelWorkflowEngine H) (fresh : Uuid) :
    ParallelWorkflowEngine H × Uuid :=
  match E.triggerId with
  | some id => (E, id)
  | none =>
      let added := E.addNode fresh { moduleId := none, kind := none }
      ({ added with nodeLabels := added.nodeLabels.insert fresh "__trigger__" }, fresh)

def rootIds (E : ParallelWorkflowEngine H) (trigger : Uuid) : List Uuid :=
  E.graph.nodeIndices.filterMap fun idx =>
    if E.nodeId idx = trigger then none
    else if E.graph.inDegree idx = 0 then some (E.nodeId idx)
    else none

/-- Looking up an id that `nodeMap` does not hold is a panic. -/
def wireRoot (trigger : Uuid) (E : ParallelWorkflowEngine H) (root : Uuid) :
    Option (ParallelWorkflowEngine H) :=
  match E.nodeMap.lookup trigger, E.nodeMap.lookup root with
  | some triggerIdx, some rootIdx =>
      if E.graph.edgesConnecting triggerIdx rootIdx = [] then
        match E.addEdge trigger root {} with
        | .ok E' => some E'
        | .error _ => some E
      else some E
  | _, _ => none

/-- `none` stands for a panic. -/
def ensureTriggerNodeWiredToRoots (E : ParallelWorkflowEngine H) (fresh : Uuid) :
    Option (ParallelWorkflowEngine H × Uuid) :=
  let installed := E.installTrigger fresh
  ((installed.1.rootIds installed.2).foldlM (wireRoot installed.2) installed.1).map fun E' =>
    (E', installed.2)

/-- The trigger stands alone in front of the former roots, and nothing else has changed. -/
structure TriggerWired (E E' : ParallelWorkflowEngine H) (trigger : Uuid) (idx : NodeIndex) :
    Prop where
  located : E'.nodeMap.lookup trigger = some idx ∧ E'.graph.nodes[idx]? = some trigger
  acyclic : E'.graph.Acyclic
  onlyRoot : ∀ n < E'.nodeCount, E'.graph.inDegree n = 0 ↔ n = idx
  wired : ∀ n < E.nodeCount, E.graph.inDegree n = 0 → (E'.graph.edgesConnecting idx n).length = 1
  others : E'.graph.edges.filter (fun e => e.source ≠ idx) = E.graph.edges

/-- The call returns, the trigger is wired, and a second call changes nothing. -/
def InstallsTrigger (E : ParallelWorkflowEngine H) (fresh : Uuid) : Prop :=
  ∃ E' trigger idx, E.ensureTriggerNodeWiredToRoots fresh = some (E', trigger) ∧
    TriggerWired E E' trigger idx ∧
      ∀ fresh', E'.ensureTriggerNodeWiredToRoots fresh' = some (E', trigger)

section Wiring

variable {E E' : ParallelWorkflowEngine H} {trigger root : Uuid}

theorem wireRoot_some (h : wireRoot trigger E root = some E') :
    SameNodes E E' ∧ E'.nodeLabels = E.nodeLabels ∧
      ∀ e ∈ E'.graph.edges, e ∈ E.graph.edges ∨ E.nodeMap.lookup root = some e.target := by
  have hKeep : E = E' → SameNodes E E' ∧ E'.nodeLabels = E.nodeLabels ∧
      ∀ e ∈ E'.graph.edges, e ∈ E.graph.edges ∨ E.nodeMap.lookup root = some e.target := by
    rintro rfl
    exact ⟨.refl E, rfl, fun e he => .inl he⟩
  rw [wireRoot] at h
  split at h
  · rename_i triggerIdx rootIdx hTrigger hRoot
    split at h
    · split at h
      · rename_i hAdded
        cases h
        refine ⟨sameNodes_addEdge hAdded, ?_⟩
        rw [addEdge, hTrigger, hRoot] at hAdded
        dsimp only at hAdded
        split at hAdded
        · cases hAdded
          refine ⟨rfl, fun e he => ?_⟩
          obtain he | he := List.mem_append.1 he
          · exact .inl he
          · rw [List.mem_singleton.1 he]
            exact .inr hRoot
        · cases hAdded
      · exact hKeep (Option.some.inj h)
    · exact hKeep (Option.some.inj h)
  · cases h

theorem wireRoots_some {roots : List Uuid} (h : roots.foldlM (wireRoot trigger) E = some E') :
    SameNodes E E' ∧ E'.nodeLabels = E.nodeLabels ∧
      ∀ e ∈ E'.graph.edges, e ∈ E.graph.edges ∨ ∃ root ∈ roots,
        E.nodeMap.lookup root = some e.target := by
  induction roots generalizing E with
  | nil =>
      cases h
      exact ⟨.refl _, rfl, fun e he => .inl he⟩
  | cons root rest ih =>
      rw [List.foldlM_cons] at h
      obtain ⟨E₁, hFirst, hRest⟩ := Option.bind_eq_some_iff.1 h
      obtain ⟨hSame, hLabels, hEdges⟩ := wireRoot_some hFirst
      obtain ⟨hSame', hLabels', hEdges'⟩ := ih hRest
      refine ⟨hSame.trans hSame', hLabels'.trans hLabels, fun e he => ?_⟩
      obtain he | ⟨root', hMem, hLookup⟩ := hEdges' e he
      · obtain he | hLookup := hEdges e he
        · exact .inl he
        · exact .inr ⟨root, List.mem_cons_self, hLookup⟩
      · rw [hSame.nodeMap] at hLookup
        exact .inr ⟨root', List.mem_cons_of_mem _ hMem, hLookup⟩

/-- Roots that their ids lead to are wired one after the other. -/
theorem wireRoots_of_located {idx : NodeIndex} {ns : List NodeIndex} (hNodup : ns.Nodup)
    (hTrigger : E.nodeMap.lookup trigger = some idx) (hIdx : idx < E.nodeCount)
    (hRoots : ∀ n ∈ ns, n < E.nodeCount ∧ E.nodeMap.lookup (E.nodeId n) = some n ∧
      ∀ e ∈ E.graph.edges, e.source = idx → e.target ≠ n) :
    ∃ E', (ns.map E.nodeId).foldlM (wireRoot trigger) E = some E' ∧
      E'.graph.edges = E.graph.edges ++ ns.map fun n => ⟨idx, n, {}⟩ := by
  induction ns generalizing E with
  | nil => exact ⟨E, rfl, (List.append_nil _).symm⟩
  | cons n rest ih =>
      obtain ⟨hN, hLookup, hNone⟩ := hRoots n List.mem_cons_self
      obtain ⟨hNew, hRest⟩ := List.nodup_cons.1 hNodup
      have hConnecting : E.graph.edgesConnecting idx n = [] := by
        apply List.eq_nil_iff_forall_not_mem.2
        intro e he
        obtain ⟨hMem, hSource, hTarget⟩ := (mem_edgesConnecting _).1 he
        exact hNone e hMem hSource hTarget
      let E₁ : ParallelWorkflowEngine H := { E with graph := E.graph.addEdge idx n {} hIdx hN }
      have hWire : wireRoot trigger E (E.nodeId n) = some E₁ := by
        have hBound : idx < E.graph.nodes.length ∧ n < E.graph.nodes.length := ⟨hIdx, hN⟩
        simp only [wireRoot, addEdge, hTrigger, hLookup, hConnecting, if_true, dif_pos hBound]
        rfl
      obtain ⟨E', hFold, hEdges⟩ := ih (E := E₁) hRest hTrigger hIdx fun m hm => by
        obtain ⟨hM, hLookup, hNone⟩ := hRoots m (List.mem_cons_of_mem _ hm)
        refine ⟨hM, hLookup, fun e he hSource => ?_⟩
        obtain he | he := List.mem_append.1 he
        · exact hNone e he hSource
        · rw [List.mem_singleton.1 he]
          rintro rfl
          exact hNew hm
      refine ⟨E', ?_, ?_⟩
      · rw [List.map_cons, List.foldlM_cons, hWire]
        exact hFold
      · rw [hEdges, List.map_cons]
        exact List.append_assoc _ _ _

end Wiring

section Installation

variable {E E' : ParallelWorkflowEngine H} {fresh id : Uuid}

theorem triggerId_some (h : E.triggerId = some id) :
    E.nodeLabels.lookup id = some "__trigger__" := by
  obtain ⟨entry, hFind, rfl⟩ := Option.map_eq_some_iff.1 h
  have hHolds := List.find?_some hFind
  have hLabel : entry.2 = "__trigger__" := of_decide_eq_true hHolds
  apply AList.mem_lookup_iff.2
  rw [← hLabel]
  exact List.mem_of_find?_eq_some hFind

/-- What every load leaves behind: indices that lead to their ids, and settings of nodes, unless
the limit has been reached. -/
structure Loaded (E : ParallelWorkflowEngine H) : Prop where
  weighted : E.Weighted
  mentioned : ∀ id, E.Mentions id → id ∈ E.graph.nodes ∨ E.maxWorkflowNodes.toNat ≤ E.nodeCount

theorem Loaded.place (h : E.Loaded) (hPlaces : E.Places E' id) : E'.Loaded := by
  refine ⟨h.weighted.place hPlaces, fun i hi => ?_⟩
  obtain hRoom | hFull := Nat.lt_or_ge E.nodeCount E.maxWorkflowNodes.toNat
  · obtain ⟨hGraph, -⟩ := hPlaces.room hRoom
    rw [hGraph]
    refine .inl (List.mem_append.2 ?_)
    obtain rfl | hi := hPlaces.new i hi
    · exact .inr (List.mem_singleton_self i)
    · obtain hi | hFull := h.mentioned i hi
      · exact .inl hi
      · exact absurd hFull (Nat.not_le.2 hRoom)
  · obtain ⟨hGraph, -⟩ := hPlaces.full hFull
    right
    rwa [hPlaces.limit, nodeCount, hGraph]

theorem Loaded.sameNodes (h : E.Loaded) (hSame : SameNodes E E') : E'.Loaded := by
  refine ⟨h.weighted.sameNodes hSame, ?_⟩
  rw [hSame.mentions, hSame.nodes, hSame.limit, hSame.nodeCount]
  exact h.mentioned

theorem loaded_of_parse {F : GraphFormat} {graph : Json}
    (h : F.parseGraphDocument (E.withDocument .empty) graph = .ok E') : E'.Loaded := by
  obtain ⟨-, hSame⟩ := GraphFormat.parseGraphDocument_ok h
  have hBlank : (E.withDocument .empty).Loaded := by
    refine ⟨(sound_blank E).weighted, fun id hId => ?_⟩
    exact absurd ((sound_blank E).represented.known id hId) (AList.notMem_empty id)
  exact (load_nodes_invariant (fun _ _ _ hPlaces h => h.place hPlaces) _ ∅ hBlank).sameNodes hSame

theorem nodeId_mem {n : NodeIndex} (h : n < E.nodeCount) : E.nodeId n ∈ E.graph.nodes := by
  rw [nodeId, List.getElem?_eq_getElem h]
  exact List.getElem_mem h

theorem Weighted.mem_nodes {idx : NodeIndex} (h : E.Weighted)
    (hId : E.nodeMap.lookup id = some idx) : id ∈ E.graph.nodes :=
  List.mem_of_getElem? (h id idx hId)

/-- Edges out of a node that no edge enters close no cycle. -/
theorem acyclic_of_source {g g' : Multigraph Uuid EdgeLogic} {s : NodeIndex} (h : g.Acyclic)
    (hArc : ∀ a b, g'.Arc a b → b ≠ s ∧ (a = s ∨ g.Arc a b)) : g'.Acyclic := by
  have hPath : ∀ a b, Relation.TransGen g'.Arc a b →
      b ≠ s ∧ (a = s ∨ Relation.TransGen g.Arc a b) := by
    intro a b hab
    induction hab with
    | single hab =>
        obtain ⟨hTarget, hab⟩ := hArc _ _ hab
        exact ⟨hTarget, hab.imp_right .single⟩
    | tail _ hbc ih =>
        obtain ⟨hMid, ih⟩ := ih
        obtain ⟨hTarget, hbc⟩ := hArc _ _ hbc
        obtain hSource | hbc := hbc
        · exact absurd hSource hMid
        · exact ⟨hTarget, ih.imp_right fun hab => hab.tail hbc⟩
  intro n hn
  obtain ⟨hNe, hSource | hCycle⟩ := hPath n n hn
  · exact hNe hSource
  · exact h n hCycle

/-- The engine with a new trigger that is not wired yet. -/
def withTrigger (E : ParallelWorkflowEngine H) (fresh : Uuid) : ParallelWorkflowEngine H :=
  { E with
    graph := E.graph.addNode fresh
    nodeMap := E.nodeMap.insert fresh E.nodeCount
    nodeMeta := E.nodeMeta.insert fresh { moduleId := none, kind := none }
    nodeLabels := E.nodeLabels.insert fresh "__trigger__" }

theorem installTrigger_of_room (hNone : E.triggerId = none)
    (hRoom : E.nodeCount < E.maxWorkflowNodes.toNat) :
    E.installTrigger fresh = (E.withTrigger fresh, fresh) := by
  rw [installTrigger, hNone, addNode_of_room hRoom]
  rfl

def rootIndices (E : ParallelWorkflowEngine H) : List NodeIndex :=
  (List.range E.nodeCount).filter fun n => E.graph.inDegree n = 0

theorem mem_rootIndices {n : NodeIndex} :
    n ∈ E.rootIndices ↔ n < E.nodeCount ∧ E.graph.inDegree n = 0 := by
  rw [rootIndices, List.mem_filter, List.mem_range, decide_eq_true_iff]

theorem nodeId_withTrigger {n : NodeIndex} (h : n < E.nodeCount) :
    (E.withTrigger fresh).nodeId n = E.nodeId n := by
  rw [nodeId, nodeId]
  change (((E.graph.nodes ++ [fresh])[n]?).getD 0) = _
  rw [List.getElem?_append_left h]

theorem nodeId_withTrigger_last : (E.withTrigger fresh).nodeId E.nodeCount = fresh :=
  nodeId_of_getElem? List.getElem?_concat_length

theorem rootIds_withTrigger (hFresh : fresh ∉ E.graph.nodes) :
    (E.withTrigger fresh).rootIds fresh =
      E.rootIndices.map (E.withTrigger fresh).nodeId := by
  have hIndices : (E.withTrigger fresh).graph.nodeIndices =
      List.range E.nodeCount ++ [E.nodeCount] := by
    change List.range (E.graph.nodes ++ [fresh]).length = _
    rw [List.length_append, List.length_singleton, List.range_succ]
    rfl
  have hRoots : ∀ ns : List NodeIndex, (∀ n ∈ ns, n < E.nodeCount) →
      (ns.filterMap fun n =>
        if (E.withTrigger fresh).nodeId n = fresh then none
        else if (E.withTrigger fresh).graph.inDegree n = 0 then
          some ((E.withTrigger fresh).nodeId n)
        else none) =
      (ns.filter fun n => E.graph.inDegree n = 0).map (E.withTrigger fresh).nodeId := by
    intro ns hns
    induction ns with
    | nil => rfl
    | cons n rest ih =>
        have hN := hns n List.mem_cons_self
        have hOld : (E.withTrigger fresh).nodeId n ≠ fresh := by
          rw [nodeId_withTrigger hN]
          rintro rfl
          exact hFresh (nodeId_mem hN)
        have hDegree : (E.withTrigger fresh).graph.inDegree n = E.graph.inDegree n := rfl
        rw [List.filterMap_cons, if_neg hOld, hDegree, List.filter_cons,
          ih fun m hm => hns m (List.mem_cons_of_mem _ hm)]
        split
        · rename_i hZero
          split at hZero
          · cases hZero
          · rename_i hNot
            rw [if_neg (by simpa using hNot)]
        · rename_i hSome
          split at hSome
          · rename_i hZero
            cases hSome
            rw [if_pos (by simpa using hZero), List.map_cons]
          · cases hSome
  rw [rootIds, hIndices, List.filterMap_append, hRoots _ fun n hn => List.mem_range.1 hn,
    List.filterMap_cons, if_pos nodeId_withTrigger_last]
  exact List.append_nil _

theorem lookup_withTrigger {i : Uuid} {n : NodeIndex}
    (h : (E.withTrigger fresh).nodeMap.lookup i = some n) (hn : n < E.nodeCount) :
    E.nodeMap.lookup i = some n := by
  change (E.nodeMap.insert fresh E.nodeCount).lookup i = some n at h
  by_cases hSame : i = fresh
  · subst hSame
    rw [AList.lookup_insert, Option.some_inj] at h
    exact absurd h (Nat.ne_of_gt hn)
  · rwa [AList.lookup_insert_ne hSame] at h

theorem triggerWired_of_edges (hAcyclic : E.graph.Acyclic)
    (hSame : SameNodes (E.withTrigger fresh) E')
    (hEdges : E'.graph.edges = E.graph.edges ++ E.rootIndices.map fun n => ⟨E.nodeCount, n, {}⟩) :
    TriggerWired E E' fresh E.nodeCount := by
  have hCount : E'.nodeCount = E.nodeCount + 1 :=
    hSame.nodeCount.trans (nodeCount_of_graph rfl)
  have hOld : ∀ e ∈ E.graph.edges, e.source < E.nodeCount ∧ e.target < E.nodeCount := E.graph.bound
  have hArc : ∀ a b, E'.graph.Arc a b ↔
      E.graph.Arc a b ∨ a = E.nodeCount ∧ b ∈ E.rootIndices := by
    intro a b
    rw [Arc, Arc, hEdges]
    constructor
    · rintro ⟨e, he, rfl, rfl⟩
      obtain he | he := List.mem_append.1 he
      · exact .inl ⟨e, he, rfl, rfl⟩
      · obtain ⟨n, hn, rfl⟩ := List.mem_map.1 he
        exact .inr ⟨rfl, hn⟩
    · rintro (⟨e, he, rfl, rfl⟩ | ⟨rfl, hb⟩)
      · exact ⟨e, List.mem_append_left _ he, rfl, rfl⟩
      · exact ⟨_, List.mem_append_right _ (List.mem_map.2 ⟨b, hb, rfl⟩), rfl, rfl⟩
  have hNoEntry : ∀ a, ¬ E'.graph.Arc a E.nodeCount := by
    intro a ha
    obtain ha | ⟨-, hRoot⟩ := (hArc _ _).1 ha
    · exact absurd ha.target_lt (Nat.lt_irrefl _)
    · exact absurd (mem_rootIndices.1 hRoot).1 (Nat.lt_irrefl _)
  have hFilter : E.graph.edges.filter (fun e => e.source ≠ E.nodeCount) = E.graph.edges := by
    apply List.filter_eq_self.2
    intro e he
    rw [decide_eq_true_iff]
    exact Nat.ne_of_lt (hOld e he).1
  refine ⟨⟨?_, ?_⟩, ?_, ?_, ?_, ?_⟩
  · rw [hSame.nodeMap]
    exact AList.lookup_insert _
  · rw [hSame.nodes]
    exact List.getElem?_concat_length
  · apply acyclic_of_source hAcyclic (s := E.nodeCount)
    intro a b hab
    refine ⟨?_, ((hArc a b).1 hab).symm.imp_left fun h => h.1⟩
    rintro rfl
    exact hNoEntry a hab
  · intro n hn
    constructor
    · intro hZero
      by_contra hNe
      have hNot : ¬ ∃ a, E'.graph.Arc a n := by
        rw [← inDegree_pos, hZero]
        exact Nat.lt_irrefl 0
      rw [hCount] at hn
      have hLt : n < E.nodeCount := lt_of_le_of_ne (Nat.le_of_lt_succ hn) hNe
      obtain hRoot | hPos := Nat.eq_zero_or_pos (E.graph.inDegree n)
      · exact hNot ⟨_, (hArc _ _).2 (.inr ⟨rfl, mem_rootIndices.2 ⟨hLt, hRoot⟩⟩)⟩
      · obtain ⟨a, ha⟩ := (inDegree_pos _).1 hPos
        exact hNot ⟨a, (hArc _ _).2 (.inl ha)⟩
    · rintro rfl
      apply Nat.eq_zero_of_not_pos
      rw [inDegree_pos]
      rintro ⟨a, ha⟩
      exact hNoEntry a ha
  · intro n hn hRoot
    have hNone : E.graph.edges.filter (fun e => decide (e.source = E.nodeCount)) = [] := by
      apply List.filter_eq_nil_iff.2
      intro e he
      rw [decide_eq_true_iff]
      exact Nat.ne_of_lt (hOld e he).1
    have hNodup : E.rootIndices.Nodup := List.nodup_range.filter _
    have hOnce : E.rootIndices.count n = 1 :=
      List.count_eq_one_of_mem hNodup (mem_rootIndices.2 ⟨hn, hRoot⟩)
    rw [edgesConnecting, outgoing, hEdges, List.filter_append, hNone, List.nil_append,
      List.filter_reverse, List.length_reverse, List.filter_filter, ← List.countP_eq_length_filter,
      List.countP_map, ← hOnce, List.count]
    apply List.countP_congr
    intro m _
    simp
  · rw [hEdges, List.filter_append, hFilter]
    have hNone : (E.rootIndices.map fun n => (⟨E.nodeCount, n, {}⟩ : Edge EdgeLogic)).filter
        (fun e => decide (e.source ≠ E.nodeCount)) = [] := by
      apply List.filter_eq_nil_iff.2
      intro e he
      obtain ⟨n, -, rfl⟩ := List.mem_map.1 he
      simp
    rw [hNone, List.append_nil]

theorem TriggerWired.again {idx : NodeIndex} (h : TriggerWired E E' fresh idx)
    (hTrigger : E'.triggerId = some fresh) (fresh' : Uuid) :
    E'.ensureTriggerNodeWiredToRoots fresh' = some (E', fresh) := by
  have hNone : E'.rootIds fresh = [] := by
    rw [rootIds, List.filterMap_eq_nil_iff]
    intro n hn
    rw [mem_nodeIndices] at hn
    split
    · rfl
    · rename_i hOther
      rw [if_neg]
      rw [h.onlyRoot n hn]
      rintro rfl
      exact hOther (nodeId_of_getElem? h.located.2)
  rw [ensureTriggerNodeWiredToRoots, installTrigger, hTrigger]
  dsimp only
  rw [hNone]
  rfl

theorem triggerId_withTrigger (hLabels : E'.nodeLabels = (E.withTrigger fresh).nodeLabels) :
    E'.triggerId = some fresh := by
  rw [triggerId, hLabels]
  change ((E.nodeLabels.insert fresh "__trigger__").entries.find? _).map _ = _
  rw [AList.entries_insert, List.find?_cons_of_pos (by exact decide_eq_true rfl)]
  rfl

theorem Loaded.triggerId_none (h : E.Loaded)
    (hLabel : ∀ id ∈ E.graph.nodes, E.nodeLabels.lookup id ≠ some "__trigger__")
    (hRoom : E.nodeCount < E.maxWorkflowNodes.toNat) : E.triggerId = none := by
  cases hId : E.triggerId with
  | none => rfl
  | some id =>
      have hMentions : E.Mentions id := by
        refine .inr (.inr (.inl (AList.lookup_isSome.1 ?_)))
        rw [triggerId_some hId]
        rfl
      obtain hNode | hFull := h.mentioned id hMentions
      · exact absurd (triggerId_some hId) (hLabel id hNode)
      · exact absurd hFull (Nat.not_le.2 hRoom)

/-- The trigger can be installed exactly if there is room for it and the id of each root leads to
that root. -/
theorem trigger_installation_iff (F : GraphFormat) (E₀ E : ParallelWorkflowEngine H) (graph : Json)
    (fresh : Uuid) (hLoad : F.parseGraphDocument (E₀.withDocument .empty) graph = .ok E)
    (hAcyclic : E.graph.Acyclic)
    (hLabel : ∀ id ∈ E.graph.nodes, E.nodeLabels.lookup id ≠ some "__trigger__")
    (hFresh : fresh ∉ E.graph.nodes) :
    E.InstallsTrigger fresh ↔
      E.nodeCount < E.maxWorkflowNodes.toNat ∧ ∀ n < E.nodeCount, E.graph.inDegree n = 0 →
        E.nodeMap.lookup (E.nodeId n) = some n := by
  have hLoaded : E.Loaded := loaded_of_parse hLoad
  constructor
  · rintro ⟨E', trigger, idx, hEnsure, hWired, -⟩
    obtain ⟨E₁, hFold, hPair⟩ := Option.map_eq_some_iff.1 hEnsure
    cases hPair
    obtain ⟨hSame, -, hEdges⟩ := wireRoots_some hFold
    have hLocated := hWired.located.1
    rw [hSame.nodeMap] at hLocated
    have hNoTrigger : ∀ id, E.triggerId = some id → E.nodeMap.lookup id ≠ some idx := by
      intro id hId hLookup
      exact hLabel id (hLoaded.weighted.mem_nodes hLookup) (triggerId_some hId)
    obtain hRoom | hFull := Nat.lt_or_ge E.nodeCount E.maxWorkflowNodes.toNat
    · have hNone := hLoaded.triggerId_none hLabel hRoom
      refine ⟨hRoom, fun n hn hRoot => ?_⟩
      rw [installTrigger_of_room hNone hRoom] at hEdges hSame hLocated
      have hIdx : idx = E.nodeCount := by
        change (E.nodeMap.insert fresh E.nodeCount).lookup fresh = some idx at hLocated
        rw [AList.lookup_insert] at hLocated
        exact (Option.some.inj hLocated).symm
      have hCount : E'.nodeCount = E.nodeCount + 1 :=
        hSame.nodeCount.trans (nodeCount_of_graph rfl)
      have hBound : n < E'.nodeCount := by
        rw [hCount]
        exact Nat.lt_succ_of_lt hn
      have hEntered : E'.graph.inDegree n ≠ 0 := by
        rw [Ne, hWired.onlyRoot n hBound, hIdx]
        exact Nat.ne_of_lt hn
      obtain ⟨a, ha⟩ := (inDegree_pos E'.graph (b := n)).1 (Nat.pos_of_ne_zero hEntered)
      obtain ⟨e, he, -, hTarget⟩ := ha
      subst hTarget
      obtain he | ⟨root, -, hLookup⟩ := hEdges e he
      · exact absurd hRoot (Nat.pos_iff_ne_zero.1 ((inDegree_pos _).2 ⟨_, e, he, rfl, rfl⟩))
      · have hLookup := lookup_withTrigger hLookup hn
        rw [nodeId_of_getElem? (hLoaded.weighted root _ hLookup)]
        exact hLookup
    · exfalso
      rw [installTrigger] at hLocated
      split at hLocated
      · rename_i id hId
        exact hNoTrigger id hId hLocated
      · rw [addNode_of_full hFull] at hLocated
        exact hFresh (hLoaded.weighted.mem_nodes hLocated)
  · rintro ⟨hRoom, hRoots⟩
    have hNone := hLoaded.triggerId_none hLabel hRoom
    have hCount : (E.withTrigger fresh).nodeCount = E.nodeCount + 1 := nodeCount_of_graph rfl
    have hNodup : E.rootIndices.Nodup := List.nodup_range.filter _
    obtain ⟨E', hFold, hEdges⟩ := wireRoots_of_located (E := E.withTrigger fresh) hNodup
      (AList.lookup_insert _) (hCount ▸ Nat.lt_succ_self _) fun n hn => by
        obtain ⟨hn, hRoot⟩ := mem_rootIndices.1 hn
        refine ⟨?_, ?_, ?_⟩
        · rw [hCount]
          exact Nat.lt_succ_of_lt hn
        · rw [nodeId_withTrigger hn]
          refine (AList.lookup_insert_ne ?_).trans (hRoots n hn hRoot)
          rintro rfl
          exact hFresh (nodeId_mem hn)
        · intro e he hSource
          exact absurd hSource (Nat.ne_of_lt (E.graph.bound e he).1)
    obtain ⟨hSame, hLabels, -⟩ := wireRoots_some hFold
    have hWired := triggerWired_of_edges hAcyclic hSame hEdges
    refine ⟨E', fresh, E.nodeCount, ?_, hWired, hWired.again (triggerId_withTrigger hLabels)⟩
    rw [ensureTriggerNodeWiredToRoots, installTrigger_of_room hNone hRoom]
    dsimp only
    rw [rootIds_withTrigger hFresh, hFold]
    rfl

end Installation

section Samples

def singleNodeGraph : Json :=
  .object [("nodes", .array
    [.object [("id", GraphFormat.uuidJson 1), ("type", GraphFormat.uuidJson 2)]])]

/-- Two modules that lead to a node that waits, and a note beside them. -/
def branchedGraph : Json :=
  .object [
    ("edges", .array
      [.object [("source", GraphFormat.uuidJson 1), ("target", GraphFormat.uuidJson 4)],
        .object [("source", GraphFormat.uuidJson 3), ("target", GraphFormat.uuidJson 4)]]),
    ("nodes", .array
      [.object [("id", GraphFormat.uuidJson 1), ("type", GraphFormat.uuidJson 2)],
        .object [("id", .string "note")],
        .object [("id", GraphFormat.uuidJson 3), ("type", GraphFormat.uuidJson 2)],
        .object [("id", GraphFormat.uuidJson 4), ("kind", .string "wait"),
          ("type", .string "system:wait")]])]

def limitedEngine (limit : UInt64) : ParallelWorkflowEngine (bareHost true) :=
  { ParallelWorkflowEngine.new with maxWorkflowNodes := limit }

/-- The engine with this node limit, after it has loaded the document. -/
def loadedWithin (limit : UInt64) (graph : Json) : ParallelWorkflowEngine (bareHost true) :=
  match plainFormat.parseGraphDocument ((limitedEngine limit).withDocument .empty) graph with
  | .ok E => E
  | .error _ => limitedEngine limit

theorem loadedWithin_branchedGraph : (loadedWithin 500 branchedGraph).graph.nodes = [1, 3, 4] ∧
    (loadedWithin 500 branchedGraph).graph.edges = [⟨0, 2, {}⟩, ⟨1, 2, {}⟩] := by
  decide

theorem trigger_installation_two_roots : (loadedWithin 500 branchedGraph).InstallsTrigger 9 := by
  have hLoad : plainFormat.parseGraphDocument ((limitedEngine 500).withDocument .empty)
      branchedGraph = .ok (loadedWithin 500 branchedGraph) := rfl
  obtain ⟨hNodes, hEdges⟩ := loadedWithin_branchedGraph
  have hAcyclic : (loadedWithin 500 branchedGraph).graph.Acyclic := by
    apply acyclic_of_rank id
    rw [hEdges]
    decide
  refine (trigger_installation_iff plainFormat (limitedEngine 500) _ branchedGraph 9 hLoad hAcyclic
    ?_ ?_).2 ⟨?_, ?_⟩
  · rw [hNodes]
    intro id hId
    obtain rfl | rfl | rfl : id = 1 ∨ id = 3 ∨ id = 4 := by simpa using hId
    · decide
    · decide
    · decide
  · rw [hNodes]
    decide
  · decide
  · rw [nodeCount, hNodes]
    decide

/-- With room for one node only, a graph of one node makes the call panic. -/
theorem trigger_installation_panics_at_limit :
    ¬ ∀ (F : GraphFormat) (E₀ E : ParallelWorkflowEngine (bareHost true)) (graph : Json)
      (fresh : Uuid), F.parseGraphDocument (E₀.withDocument .empty) graph = .ok E →
        E.graph.Acyclic →
          (∀ id ∈ E.graph.nodes, E.nodeLabels.lookup id ≠ some "__trigger__") →
            fresh ∉ E.graph.nodes → E.InstallsTrigger fresh := by
  intro hAll
  have hLoad : plainFormat.parseGraphDocument ((limitedEngine 1).withDocument .empty)
      singleNodeGraph = .ok (loadedWithin 1 singleNodeGraph) := rfl
  have hNodes : (loadedWithin 1 singleNodeGraph).graph.nodes = [1] := by decide
  have hLabel : (loadedWithin 1 singleNodeGraph).nodeLabels.lookup 1 ≠ some "__trigger__" := by decide
  have hPanic : ((loadedWithin 1 singleNodeGraph).ensureTriggerNodeWiredToRoots 9).isNone := by decide
  have hInstalls : (loadedWithin 1 singleNodeGraph).InstallsTrigger 9 := by
    apply hAll plainFormat (limitedEngine 1) (loadedWithin 1 singleNodeGraph) singleNodeGraph 9 hLoad
    · exact acyclic_of_rank id (by decide)
    · rw [hNodes]
      intro id hId
      obtain rfl := List.mem_singleton.1 hId
      exact hLabel
    · rw [hNodes]
      decide
  obtain ⟨E', trigger, idx, hEnsure, -⟩ := hInstalls
  rw [hEnsure] at hPanic
  cases hPanic

end Samples

end ParallelWorkflowEngine

end TalosWorkflow
