import Mathlib.Data.List.Dedup
import TalosWorkflow.Documents.Codec
import TalosWorkflow.Documents.Loader
import TalosWorkflow.Library.Preload

/-!
# The graphs of sub-workflows

Loading a graph fetches the graphs that its nodes name. A handler looks there
first and asks the store for what is missing.
-/

namespace TalosWorkflow

variable {H : Host}

/-- The workflows that a node names before it runs. -/
def SystemNodeKind.subWorkflowIds : SystemNodeKind → List Uuid
  | .subWorkflow workflowId _ => [workflowId]
  | .agentLoop bodyWorkflowId .. => [bodyWorkflowId]
  | .judge judgeWorkflowId .. => [judgeWorkflowId]
  | .ensemble childWorkflowId _ _ judgeWorkflowId _ => childWorkflowId :: judgeWorkflowId.toList
  | .reflectiveRetry childWorkflowId reflectionWorkflowId .. =>
      [childWorkflowId, reflectionWorkflowId]
  | .llmDispatch classifierWorkflowId routes fallbackWorkflowId _ =>
      classifierWorkflowId :: routes.map (·.2) ++ fallbackWorkflowId.toList
  | .reActLoop bodyWorkflowId .. => [bodyWorkflowId]
  | _ => []

/-- What the fetcher and a store of graphs answer at one time. -/
structure GraphAnswers (H : Host) where
  getGraph : H.WorkflowGraphStore → Uuid → Uuid → Except String (Option Json)
  getGraphs : H.WorkflowGraphStore → List Uuid → Uuid → Except String (Table Json)
  loadRateLimits : List Uuid → Table Int

/-- The default `get_graphs`: one query after the other, up to the first that fails. -/
def getGraphsFrom (getGraph : Uuid → Except String (Option Json)) :
    List Uuid → Table Json → Except String (Table Json)
  | [], out => .ok out
  | id :: ids, out =>
      match getGraph id with
      | .error e => .error e
      | .ok none => getGraphsFrom getGraph ids out
      | .ok (some graph) => getGraphsFrom getGraph ids (out.insert id graph)

abbrev GraphCache := Preload Uuid Uuid Json

namespace ParallelWorkflowEngine

variable (E : ParallelWorkflowEngine H) (A : GraphAnswers H)

/-- The nil id stands for a missing one. -/
def staticSubWorkflows : List Uuid :=
  ((E.nodeMeta.entries.flatMap fun entry =>
    (entry.2.kind.map SystemNodeKind.subWorkflowIds).getD []).filter (· ≠ 0)).dedup

/-- `ids` are the static references, in the order of a hash set. -/
def populateSubWorkflowCache (ids : List Uuid) (cache : GraphCache) : GraphCache :=
  match E.graphStore, E.userId with
  | some store, some userId =>
      if ids = [] then cache
      else
        match A.getGraphs store ids userId with
        | .ok rows => cache.fill userId rows
        | .error _ => cache
  | _, _ => cache

def preloadRateLimits : ParallelWorkflowEngine H :=
  let moduleIds := (E.nodeMeta.entries.filterMap fun entry => entry.2.moduleId).dedup
  if E.moduleFetcher.isSome ∧ moduleIds ≠ [] then
    { E with
      rateLimits := (A.loadRateLimits moduleIds).entries.foldl
        (fun limits limit => limits.insert limit.1 limit.2) E.rateLimits }
  else E

/-- The individual query; a store that fails is a store without the graph. -/
def queryGraph (subWfId userId : Uuid) : Option Json :=
  match E.graphStore with
  | none => none
  | some store =>
      match A.getGraph store subWfId userId with
      | .ok graph => graph
      | .error _ => none

def getSubWorkflowGraph (cache : GraphCache) (subWfId userId : Uuid) : Option Json :=
  match cache.cache.lookup subWfId with
  | some cached => some cached
  | none => E.queryGraph A subWfId userId

end ParallelWorkflowEngine

/-- An engine and the graphs that it has fetched. -/
structure Session (H : Host) where
  engine : ParallelWorkflowEngine H
  graphs : GraphCache

/-- A graph is loaded, or the setters make another record of the engine. -/
inductive SessionMove (H : Host)
  | load (graph : Json) (ids : List Uuid) (A : GraphAnswers H)
  | set (E : ParallelWorkflowEngine H)

namespace Session

def start (E : ParallelWorkflowEngine H) : Session H := ⟨E, .initial⟩

/-- The setters leave the graphs as they are, also those of the user and the store. -/
def step (F : GraphFormat) (s : Session H) : SessionMove H → Option (Session H)
  | .load graph ids A =>
      match F.parseGraphDocument s.engine graph with
      | .error _ => some s
      | .ok E =>
          if ids.Perm E.staticSubWorkflows then
            some ⟨E.preloadRateLimits A, E.populateSubWorkflowCache A ids s.graphs⟩
          else none
  | .set E => some { s with engine := E }

end Session

section Answers

variable {A : GraphAnswers H}

/-- A batch brings what the individual queries would bring. -/
structure GraphAnswers.Agrees (A : GraphAnswers H) (store : H.WorkflowGraphStore)
    (userId : Uuid) : Prop where
  sound : ∀ ids rows id graph, A.getGraphs store ids userId = .ok rows →
    rows.lookup id = some graph → A.getGraph store id userId = .ok (some graph)
  complete : ∀ ids rows id graph, A.getGraphs store ids userId = .ok rows → id ∈ ids →
    A.getGraph store id userId = .ok (some graph) → rows.lookup id = some graph

theorem getGraphsFrom_sound {getGraph : Uuid → Except String (Option Json)} {ids : List Uuid}
    {out rows : Table Json}
    (hOut : ∀ id graph, out.lookup id = some graph → getGraph id = .ok (some graph))
    (h : getGraphsFrom getGraph ids out = .ok rows) :
    ∀ id graph, rows.lookup id = some graph → getGraph id = .ok (some graph) := by
  induction ids generalizing out with
  | nil =>
      cases h
      exact hOut
  | cons first ids ih =>
      rw [getGraphsFrom] at h
      split at h
      · cases h
      · exact ih hOut h
      · rename_i graph hGraph
        refine ih (fun id found hFound => ?_) h
        obtain rfl | hne := eq_or_ne id first
        · rw [AList.lookup_insert] at hFound
          cases hFound
          exact hGraph
        · rw [AList.lookup_insert_ne hne] at hFound
          exact hOut id found hFound

/-- What is fetched stays, and whatever is asked for and there is fetched. -/
theorem getGraphsFrom_complete {getGraph : Uuid → Except String (Option Json)} {ids : List Uuid}
    {out rows : Table Json} {id : Uuid} {graph : Json} (hGraph : getGraph id = .ok (some graph))
    (hHas : out.lookup id = some graph ∨ id ∈ ids) (h : getGraphsFrom getGraph ids out = .ok rows) :
    rows.lookup id = some graph := by
  induction ids generalizing out with
  | nil =>
      cases h
      exact hHas.resolve_right List.not_mem_nil
  | cons first ids ih =>
      rw [getGraphsFrom] at h
      obtain rfl | hne := eq_or_ne id first
      · rw [hGraph] at h
        exact ih (.inl (AList.lookup_insert out)) h
      · have hRest : out.lookup id = some graph ∨ id ∈ ids :=
          hHas.imp_right fun hIn => (List.mem_cons.1 hIn).resolve_left hne
        split at h
        · cases h
        · exact ih hRest h
        · exact ih (hRest.imp_left (AList.lookup_insert_ne hne).trans) h

/-- The default batch agrees with the queries that it is made of. -/
theorem agrees_of_default {store : H.WorkflowGraphStore} {userId : Uuid}
    (h : ∀ ids, A.getGraphs store ids userId =
      getGraphsFrom (fun id => A.getGraph store id userId) ids ∅) : A.Agrees store userId where
  sound ids rows id graph hRows hFound := by
    rw [h] at hRows
    exact getGraphsFrom_sound (fun _ _ hNone => by cases hNone) hRows id graph hFound
  complete ids rows id graph hRows hIn hGraph := by
    rw [h] at hRows
    exact getGraphsFrom_complete hGraph (.inr hIn) hRows

end Answers

section Loads

variable {F : GraphFormat} {E E' : ParallelWorkflowEngine H} {A : GraphAnswers H} {id : Uuid}

theorem mem_staticSubWorkflows : id ∈ E.staticSubWorkflows ↔
    id ≠ 0 ∧ ∃ node info kind, ⟨node, info⟩ ∈ E.nodeMeta.entries ∧ info.kind = some kind ∧
      id ∈ kind.subWorkflowIds := by
  simp only [ParallelWorkflowEngine.staticSubWorkflows, List.mem_dedup, List.mem_filter,
    List.mem_flatMap, decide_eq_true_eq]
  constructor
  · rintro ⟨⟨⟨node, info⟩, hNode, hId⟩, hNot⟩
    cases hKind : info.kind with
    | none =>
        simp [hKind] at hId
    | some kind =>
        simp only [hKind, Option.map_some, Option.getD_some] at hId
        exact ⟨hNot, node, info, kind, hNode, hKind, hId⟩
  · rintro ⟨hNot, node, info, kind, hNode, hKind, hId⟩
    refine ⟨⟨⟨node, info⟩, hNode, ?_⟩, hNot⟩
    simpa [hKind] using hId

theorem preloadRateLimits_graphStore : (E.preloadRateLimits A).graphStore = E.graphStore := by
  unfold ParallelWorkflowEngine.preloadRateLimits
  dsimp only
  split <;> rfl

theorem preloadRateLimits_userId : (E.preloadRateLimits A).userId = E.userId := by
  unfold ParallelWorkflowEngine.preloadRateLimits
  dsimp only
  split <;> rfl

theorem parseGraphDocument_graphStore {graph : Json}
    (h : F.parseGraphDocument E graph = .ok E') : E'.graphStore = E.graphStore :=
  have hKept : Untouched fun E : ParallelWorkflowEngine H => E.graphStore :=
    fun _ _ _ _ _ _ _ => rfl
  hKept.parseGraphDocument h

theorem parseGraphDocument_userId {graph : Json}
    (h : F.parseGraphDocument E graph = .ok E') : E'.userId = E.userId :=
  have hKept : Untouched fun E : ParallelWorkflowEngine H => E.userId :=
    fun _ _ _ _ _ _ _ => rfl
  hKept.parseGraphDocument h

/-- A graph is fetched by the store of the engine for the user of the engine. -/
theorem populateSubWorkflowCache_cases (E : ParallelWorkflowEngine H) (A : GraphAnswers H)
    (ids : List Uuid) (cache : GraphCache) :
    E.populateSubWorkflowCache A ids cache = cache ∨
      ∃ store userId rows, E.graphStore = some store ∧ E.userId = some userId ∧
        A.getGraphs store ids userId = .ok rows ∧
          E.populateSubWorkflowCache A ids cache = cache.fill userId rows := by
  unfold ParallelWorkflowEngine.populateSubWorkflowCache
  split
  · rename_i store userId hStore hUser
    split
    · exact .inl rfl
    · split
      · rename_i rows hRows
        exact .inr ⟨store, userId, rows, hStore, hUser, hRows, rfl⟩
      · exact .inl rfl
  · exact .inl rfl

end Loads

section Runs

variable {F : GraphFormat} {s t : Session H} {move : SessionMove H}

theorem Session.step_cases (hStep : s.step F move = some t) :
    (∃ E, move = .set E ∧ t = { s with engine := E }) ∨
      ∃ graph ids A, move = .load graph ids A ∧ t.engine.graphStore = s.engine.graphStore ∧
        t.engine.userId = s.engine.userId ∧ (t.graphs = s.graphs ∨
          ∃ store userId rows, s.engine.graphStore = some store ∧ s.engine.userId = some userId ∧
            A.getGraphs store ids userId = .ok rows ∧ t.graphs = s.graphs.fill userId rows) := by
  cases move with
  | set E =>
      cases hStep
      exact .inl ⟨E, rfl, rfl⟩
  | load graph ids A =>
      refine .inr ⟨graph, ids, A, rfl, ?_⟩
      simp only [Session.step] at hStep
      split at hStep
      · cases hStep
        exact ⟨rfl, rfl, .inl rfl⟩
      · rename_i E hParse
        have hStore := parseGraphDocument_graphStore hParse
        have hUser := parseGraphDocument_userId hParse
        split at hStep
        · cases hStep
          refine ⟨preloadRateLimits_graphStore.trans hStore,
            preloadRateLimits_userId.trans hUser, ?_⟩
          obtain hSame | ⟨store, userId, rows, hHas, hIs, hRows, hFill⟩ :=
            populateSubWorkflowCache_cases E A ids s.graphs
          · exact .inl hSame
          · exact .inr ⟨store, userId, rows, hStore ▸ hHas, hUser ▸ hIs, hRows, hFill⟩
        · cases hStep

theorem Session.current_step (h : s.graphs.Current) (hStep : s.step F move = some t) :
    t.graphs.Current := by
  obtain ⟨E, -, rfl⟩ | ⟨graph, ids, A, -, -, -, hSame | ⟨store, userId, rows, -, -, -, hFill⟩⟩ :=
    Session.step_cases hStep
  · exact h
  · rw [hSame]
    exact h
  · rw [hFill]
    exact h.fill userId rows

/-- Each fetched graph has the property that the answers to loads have. -/
theorem Session.grants_step {P : Grant Uuid Uuid Json → Prop}
    (h : ∀ grant ∈ s.graphs.grants, P grant) (hStep : s.step F move = some t)
    (hNew : ∀ graph ids A store userId rows, move = .load graph ids A →
      s.engine.graphStore = some store → s.engine.userId = some userId →
        A.getGraphs store ids userId = .ok rows →
          ∀ id found, rows.lookup id = some found → P ⟨userId, id, found⟩) :
    ∀ grant ∈ t.graphs.grants, P grant := by
  obtain ⟨E, -, rfl⟩ | ⟨graph, ids, A, hMove, -, -, hSame | ⟨store, userId, rows, hStore, hUser,
    hRows, hFill⟩⟩ := Session.step_cases hStep
  · exact h
  · rw [hSame]
    exact h
  · intro grant hGrant
    rw [hFill] at hGrant
    obtain hOld | ⟨rfl, hFound⟩ := Preload.mem_grants_fill hGrant
    · exact h grant hOld
    · exact hNew graph ids A store _ rows hMove hStore hUser hRows grant.key grant.value hFound

theorem getSubWorkflowGraph_eq (h : s.graphs.Current) (A : GraphAnswers H) (id userId : Uuid) :
    s.engine.getSubWorkflowGraph A s.graphs id userId =
      ((s.graphs.newest id).map Grant.value).or (s.engine.queryGraph A id userId) := by
  unfold ParallelWorkflowEngine.getSubWorkflowGraph
  rw [h id]
  cases s.graphs.newest id with
  | none => rfl
  | some grant => rfl

theorem queryGraph_of_ok {E : ParallelWorkflowEngine H} {A : GraphAnswers H}
    {store : H.WorkflowGraphStore} {id userId : Uuid} {graph : Option Json}
    (hStore : E.graphStore = some store) (h : A.getGraph store id userId = .ok graph) :
    E.queryGraph A id userId = graph := by
  unfold ParallelWorkflowEngine.queryGraph
  rw [hStore]
  dsimp only
  rw [h]

/-- The store and its answers stay as they are, and so does the user. -/
def Steady (A : GraphAnswers H) (s : Session H) : SessionMove H → Prop
  | .load _ _ A' => A' = A
  | .set E => E.graphStore = s.engine.graphStore ∧ E.userId = s.engine.userId

/-- What the cache answers, the store would answer to the user of the engine. -/
structure CachesStore (A : GraphAnswers H) (s : Session H) : Prop where
  current : s.graphs.Current
  answered : ∀ grant ∈ s.graphs.grants, ∃ store, s.engine.graphStore = some store ∧
    s.engine.userId = some grant.owner ∧
      A.getGraph store grant.key grant.owner = .ok (some grant.value)

theorem CachesStore.step {A : GraphAnswers H} (hAgrees : ∀ store userId, A.Agrees store userId)
    (h : CachesStore A s) (hSteady : Steady A s move) (hStep : s.step F move = some t) :
    CachesStore A t where
  current := Session.current_step h.current hStep
  answered := by
    have hKept : t.engine.graphStore = s.engine.graphStore ∧ t.engine.userId = s.engine.userId := by
      obtain ⟨E, rfl, rfl⟩ | ⟨graph, ids, A', -, hStore, hUser, -⟩ := Session.step_cases hStep
      · exact hSteady
      · exact ⟨hStore, hUser⟩
    rw [hKept.1, hKept.2]
    refine Session.grants_step h.answered hStep ?_
    rintro graph ids A' store userId rows rfl hStore hUser hRows id found hFound
    cases hSteady
    exact ⟨store, hStore, hUser, (hAgrees store userId).sound ids rows id found hRows hFound⟩

theorem steady_cachesStore {A : GraphAnswers H} {E : ParallelWorkflowEngine H}
    (hAgrees : ∀ store userId, A.Agrees store userId)
    (hRun : Run (Session.step F) (Steady A) (.start E) s) : CachesStore A s :=
  Run.invariant (CachesStore A) (fun _ _ _ hSteady h hStep => h.step hAgrees hSteady hStep) hRun
    ⟨Preload.current_initial, fun _ h => absurd h List.not_mem_nil⟩

end Runs

/-- While the store, its answers and the user stay the same, the cache changes no lookup; and a load
whose batch is answered leaves every graph that a node names and the user may see in the cache. -/
theorem graph_cache_transparent (F : GraphFormat) (E : ParallelWorkflowEngine H)
    (A : GraphAnswers H) (hAgrees : ∀ store userId, A.Agrees store userId) (s : Session H)
    (hRun : Run (Session.step F) (Steady A) (.start E) s) :
    (∀ id userId, (∀ owner, s.engine.userId = some owner → userId = owner) →
      s.engine.getSubWorkflowGraph A s.graphs id userId = s.engine.queryGraph A id userId) ∧
      ∀ graph ids E' t store userId rows, F.parseGraphDocument s.engine graph = .ok E' →
        s.step F (.load graph ids A) = some t → s.engine.graphStore = some store →
          s.engine.userId = some userId → A.getGraphs store ids userId = .ok rows →
            ∀ node info kind id found, ⟨node, info⟩ ∈ E'.nodeMeta.entries →
              info.kind = some kind → id ∈ kind.subWorkflowIds → id ≠ 0 →
                A.getGraph store id userId = .ok (some found) →
                  t.graphs.cache.lookup id = some found := by
  have hCaches := steady_cachesStore hAgrees hRun
  constructor
  · intro id userId hOwner
    rw [getSubWorkflowGraph_eq hCaches.current]
    cases hNewest : s.graphs.newest id with
    | none => rfl
    | some grant =>
        obtain ⟨hIn, hKey⟩ := Preload.mem_of_newest hNewest
        obtain ⟨store, hStore, hUser, hAnswer⟩ := hCaches.answered grant hIn
        rw [hKey] at hAnswer
        rw [hOwner grant.owner hUser, queryGraph_of_ok hStore hAnswer]
        rfl
  · intro graph ids E' t store userId rows hParse hStep hStore hUser hRows node info kind id found
      hNode hKind hId hNot hAnswer
    have hStatic : id ∈ E'.staticSubWorkflows :=
      mem_staticSubWorkflows.2 ⟨hNot, node, info, kind, hNode, hKind, hId⟩
    simp only [Session.step, hParse] at hStep
    split at hStep
    · rename_i hPerm
      cases hStep
      have hIn : id ∈ ids := hPerm.mem_iff.2 hStatic
      have hFound := (hAgrees store userId).complete ids rows id found hRows hIn hAnswer
      dsimp only
      unfold ParallelWorkflowEngine.populateSubWorkflowCache
      rw [parseGraphDocument_graphStore hParse, parseGraphDocument_userId hParse, hStore, hUser]
      dsimp only
      rw [if_neg (List.ne_nil_of_mem hIn), hRows]
      dsimp only
      rw [Preload.lookup_fill, hFound]
      rfl
    · cases hStep

section Contracts

variable {F : GraphFormat} {s : Session H} {Visible : Uuid → Uuid → Json → Prop}
  {owners : Uuid → Prop}

/-- A store gives a user only what is visible to that user. -/
structure GraphAnswers.Honours (Visible : Uuid → Uuid → Json → Prop) (A : GraphAnswers H) :
    Prop where
  one : ∀ store id userId graph, A.getGraph store id userId = .ok (some graph) →
    Visible userId id graph
  many : ∀ store ids userId rows id graph, A.getGraphs store ids userId = .ok rows →
    rows.lookup id = some graph → Visible userId id graph

/-- Graphs are loaded for owners, by stores that keep to their contract. -/
def LoadsFor (Visible : Uuid → Uuid → Json → Prop) (owners : Uuid → Prop) (s : Session H) :
    SessionMove H → Prop
  | .load _ _ A => A.Honours Visible ∧ ∀ userId ∈ s.engine.userId, owners userId
  | .set _ => True

theorem loadsFor_grants {E : ParallelWorkflowEngine H}
    (hRun : Run (Session.step F) (LoadsFor Visible owners) (.start E) s) :
    s.graphs.Current ∧ ∀ grant ∈ s.graphs.grants,
      owners grant.owner ∧ Visible grant.owner grant.key grant.value := by
  refine Run.invariant (fun s : Session H => s.graphs.Current ∧ ∀ grant ∈ s.graphs.grants,
    owners grant.owner ∧ Visible grant.owner grant.key grant.value) ?_ hRun
    ⟨Preload.current_initial, fun _ h => absurd h List.not_mem_nil⟩
  intro s move t hAllowed h hStep
  refine ⟨Session.current_step h.1 hStep, Session.grants_step h.2 hStep ?_⟩
  rintro graph ids A store userId rows rfl - hUser hRows id found hFound
  obtain ⟨hHonours, hOwners⟩ := hAllowed
  exact ⟨hOwners userId hUser, hHonours.many store ids userId rows id found hRows hFound⟩

theorem queryGraph_visible {E : ParallelWorkflowEngine H} {A : GraphAnswers H}
    (h : A.Honours Visible) {id userId : Uuid} {graph : Json}
    (hGraph : E.queryGraph A id userId = some graph) : Visible userId id graph := by
  unfold ParallelWorkflowEngine.queryGraph at hGraph
  split at hGraph
  · cases hGraph
  · rename_i store _
    split at hGraph
    · rename_i found hFound
      cases hGraph
      exact h.one store id userId graph hFound
    · cases hGraph

end Contracts

/-- Whatever the stores, their answers and the user become, a lookup is given the graph that was
fetched last under the id, for the owner of that load and whoever asks; only where none was fetched
is the store asked for the user of the lookup. -/
theorem served_graph_granted (F : GraphFormat) (E : ParallelWorkflowEngine H)
    (Visible : Uuid → Uuid → Json → Prop) (owners : Uuid → Prop) (s : Session H)
    (hRun : Run (Session.step F) (LoadsFor Visible owners) (.start E) s) (A : GraphAnswers H)
    (hHonours : A.Honours Visible) (id userId : Uuid) :
    (∀ grant, s.graphs.newest id = some grant →
      s.engine.getSubWorkflowGraph A s.graphs id userId = some grant.value ∧
        owners grant.owner ∧ Visible grant.owner id grant.value) ∧
      (s.graphs.newest id = none →
        s.engine.getSubWorkflowGraph A s.graphs id userId = s.engine.queryGraph A id userId ∧
          ∀ graph, s.engine.queryGraph A id userId = some graph → Visible userId id graph) := by
  obtain ⟨hCurrent, hGrants⟩ := loadsFor_grants hRun
  constructor
  · intro grant hNewest
    obtain ⟨hIn, rfl⟩ := Preload.mem_of_newest hNewest
    refine ⟨?_, hGrants grant hIn⟩
    rw [getSubWorkflowGraph_eq hCurrent, hNewest]
    rfl
  · intro hNewest
    refine ⟨?_, fun graph hGraph => queryGraph_visible hHonours hGraph⟩
    rw [getSubWorkflowGraph_eq hCurrent, hNewest]
    rfl

section Samples

def graphHost : Host := { bareHost true with WorkflowGraphStore := Unit }

/-- An engine for the user 5, with a node that runs the stored workflow 30. -/
def nestingSession : Session graphHost :=
  .start { ParallelWorkflowEngine.new with
    nodeMeta := nodeTable [(1, systemNode (.subWorkflow 30 60))]
    graphStore := some ()
    userId := some 5 }

def storedGraph : Json := .object [("name", .string "stored")]

def ownedAnswers : GraphAnswers graphHost where
  getGraph _ id userId := if id = 30 ∧ userId = 5 then .ok (some storedGraph) else .ok none
  getGraphs _ ids userId :=
    getGraphsFrom
      (fun id => if id = 30 ∧ userId = 5 then .ok (some storedGraph) else .ok none) ids ∅
  loadRateLimits _ := ∅

theorem ownedAnswers_agrees (store : Unit) (userId : Uuid) : ownedAnswers.Agrees store userId :=
  agrees_of_default fun _ => rfl

theorem ownedAnswers_honours :
    ownedAnswers.Honours fun userId id graph => userId = 5 ∧ id = 30 ∧ graph = storedGraph where
  one store id userId graph h := by
    simp only [ownedAnswers] at h
    split at h
    · rename_i hIs
      cases h
      exact ⟨hIs.2, hIs.1, rfl⟩
    · cases h
  many store ids userId rows id graph hRows hFound := by
    have h := (ownedAnswers_agrees store userId).sound ids rows id graph hRows hFound
    simp only [ownedAnswers] at h
    split at h
    · rename_i hIs
      cases h
      exact ⟨hIs.2, hIs.1, rfl⟩
    · cases h

def collectGraph : Json :=
  .object [("nodes", .array [
    .object [("id", .string "gather"), ("type", .string "system:collect")]])]

theorem loadedSession : ∃ s : Session graphHost,
    nestingSession.step plainFormat (.load collectGraph [30] ownedAnswers) = some s ∧
      s.engine.userId = some 5 ∧ (s.graphs.newest 30).map Grant.value = some storedGraph := by
  have h : (nestingSession.step plainFormat (.load collectGraph [30] ownedAnswers)).map (fun s =>
      (s.engine.userId, (s.graphs.newest 30).map Grant.value)) =
        some (some 5, some storedGraph) := by
    decide +kernel
  obtain ⟨s, hStep, hSame⟩ := Option.map_eq_some_iff.1 h
  obtain ⟨hUser, hNewest⟩ := Prod.mk.inj hSame
  exact ⟨s, hStep, hUser, hNewest⟩

theorem graph_cache_transparent_loaded : ∃ s : Session graphHost,
    (s.graphs.newest 30).map Grant.value = some storedGraph ∧
      s.engine.getSubWorkflowGraph ownedAnswers s.graphs 30 5 =
        s.engine.queryGraph ownedAnswers 30 5 := by
  obtain ⟨s, hStep, hUser, hNewest⟩ := loadedSession
  have hTransparent := graph_cache_transparent plainFormat nestingSession.engine ownedAnswers
    ownedAnswers_agrees s (.tail .refl ⟨.load collectGraph [30] ownedAnswers, rfl, hStep⟩)
  refine ⟨s, hNewest, hTransparent.1 30 5 fun owner hOwner => ?_⟩
  rw [hUser] at hOwner
  exact Option.some.inj hOwner

/-- The engine is handed to the user 6, who is given the graph that the store denies to 6. -/
theorem served_graph_granted_stale : ∃ s : Session graphHost, s.engine.userId = some 6 ∧
    s.engine.queryGraph ownedAnswers 30 6 = none ∧
      s.engine.getSubWorkflowGraph ownedAnswers s.graphs 30 6 = some storedGraph := by
  obtain ⟨s, hStep, hUser, hNewest⟩ := loadedSession
  obtain ⟨grant, hGrant, hValue⟩ := Option.map_eq_some_iff.1 hNewest
  have hServed := served_graph_granted plainFormat nestingSession.engine
    (fun userId id graph => userId = 5 ∧ id = 30 ∧ graph = storedGraph) (· = 5)
    { s with engine := { s.engine with userId := some 6 } }
    (.tail (.tail .refl ⟨.load collectGraph [30] ownedAnswers,
      ⟨ownedAnswers_honours, fun userId h => (Option.some.inj h).symm⟩, hStep⟩)
      ⟨.set { s.engine with userId := some 6 }, trivial, rfl⟩)
    ownedAnswers ownedAnswers_honours 30 6
  refine ⟨_, rfl, ?_, (hServed.1 grant hGrant).1.trans (congrArg some hValue)⟩
  unfold ParallelWorkflowEngine.queryGraph
  split
  · rfl
  · rfl

end Samples

end TalosWorkflow
