import TalosWorkflow.Documents.Loader
import TalosWorkflow.Metering.Process

/-!
# What the limits are worth

The counters bound what is handed to the dispatcher, as far as it was counted.
-/

namespace TalosWorkflow

variable {H : Host}

section Counting

variable {declared : Uuid → Option Int} {p q : Process H declared} {now : Nat}
  {windows : Table Window} {moduleId : Uuid}

theorem lookup_retain {keep : Window → Bool} {w : Window} :
    (retain windows keep).lookup moduleId = some w ↔
      windows.lookup moduleId = some w ∧ keep w = true := by
  have hBefore : windows.lookup moduleId = some w ↔ ⟨moduleId, w⟩ ∈ windows.entries :=
    AList.mem_lookup_iff
  have hAfter : (retain windows keep).lookup moduleId = some w ↔
      ⟨moduleId, w⟩ ∈ windows.entries.filter fun entry => keep entry.2 := AList.mem_lookup_iff
  rw [hBefore, hAfter, List.mem_filter]

theorem lookup_evict (now : Nat) (windows : Table Window) (moduleId : Uuid) :
    (evictStaleRateLimits now windows).lookup moduleId = windows.lookup moduleId ∨
      (evictStaleRateLimits now windows).lookup moduleId = none ∧
        ∀ w, windows.lookup moduleId = some w → w.start + rateLimitStale ≤ now := by
  unfold evictStaleRateLimits
  split
  · generalize hKept : (retain windows _).lookup moduleId = kept
    cases kept with
    | some w => exact .inl (lookup_retain.1 hKept).1.symm
    | none =>
        refine .inr ⟨rfl, fun w hOld => Nat.le_of_not_lt fun hYoung => ?_⟩
        rw [lookup_retain.2 ⟨hOld, decide_eq_true hYoung⟩] at hKept
        cases hKept
  · exact .inl rfl

/-- The windows that have counted the requests for a module. -/
def startsOf (moduleId : Uuid) (requests : List Request) : List Nat :=
  requests.filterMap fun request => if request.1 = moduleId then request.2 else none

theorem startsOf_append (first second : List Request) :
    startsOf moduleId (first ++ second) = startsOf moduleId first ++ startsOf moduleId second :=
  List.filterMap_append

theorem startsOf_self (start : Nat) : startsOf moduleId [(moduleId, some start)] = [start] := by
  simp [startsOf]

theorem startsOf_other {other : Uuid} (h : moduleId ≠ other) (window : Option Nat) :
    startsOf moduleId [(other, window)] = [] := by
  simp [startsOf, h.symm]

theorem startsOf_uncounted {requests : List Request} (h : ∀ request ∈ requests, request.2 = none) :
    startsOf moduleId requests = [] := by
  apply List.filterMap_eq_nil_iff.2
  intro request hMem
  rw [h request hMem, ite_self]

def Handover.request (h : Handover) : Request := (h.moduleId, h.window)

namespace Process

def requests (p : Process H declared) : List Request :=
  p.launched.flatMap Launch.requests ++ p.handed.map Handover.request

/-- What the counters keep of the limited modules, and when their executions were handed over. -/
structure Kept (p : Process H declared) : Prop where
  counted : ∀ moduleId limit, declared moduleId = some limit → 0 < limit →
    Window.Keeps rateLimitWindow p.now limit.toNat (p.windows.lookup moduleId)
      (startsOf moduleId p.requests)
  timely : ∀ h ∈ p.handed, ∀ limit, declared h.moduleId = some limit → 0 < limit →
    ∃ start, h.window = some start ∧ start ≤ h.time ∧ h.time ≤ start + rateLimitWindow

theorem Kept.initial : (initial : Process H declared).Kept :=
  ⟨fun _ _ _ _ => .nil _, fun _ h => (by cases h)⟩

end Process

theorem meteredWindow_some {E : ParallelWorkflowEngine H} {nodeId : Uuid} {limit : Int} {w : Window}
    (h : E.meteredWindow now windows nodeId = some (limit, w)) :
    E.rateLimits.lookup (E.resolveModuleId nodeId) = some limit ∧ 0 < limit ∧
      w = Window.record rateLimitWindow now (windows.lookup (E.resolveModuleId nodeId)) := by
  unfold ParallelWorkflowEngine.meteredWindow at h
  split at h
  · cases h
  · rename_i known hKnown
    split at h
    · cases h
    · rename_i hPositive
      cases h
      exact ⟨hKnown, Int.not_le.1 hPositive, rfl⟩

namespace Reactor

/-- What a step does to the counters. Either nothing that it launches is counted, or one node is
checked. -/
inductive Checks (R : Reactor H) (now : Nat) (windows : Table Window) (s : State) :
    Action → Table Window → List (Launch H) → Prop
  | uncounted (action : Action) (launches : List (Launch H))
      (hNone : ∀ request ∈ launches.flatMap Launch.requests, request.2 = none) :
      Checks R now windows s action windows launches
  | refused (answer : Answer) (idx : NodeIndex) (limit : Int) (w : Window)
      (hHead : s.ready.head? = some idx)
      (hMetered : R.meteredWindow now windows (R.nodeId idx) = some (limit, w)) :
      Checks R now windows s (.pop answer) (windows.insert (R.resolveModuleId (R.nodeId idx)) w) []
  | admitted (answer : Answer) (idx : NodeIndex) (limit : Int) (w : Window)
      (hHead : s.ready.head? = some idx)
      (hMetered : R.meteredWindow now windows (R.nodeId idx) = some (limit, w))
      (hWithin : w.count.toNat ≤ limit.toNat) :
      Checks R now windows s (.pop answer) (windows.insert (R.resolveModuleId (R.nodeId idx)) w)
        [.single R.toParallelWorkflowEngine idx (some w.start)]

variable {R : Reactor H} {s : State} {windows' : Table Window} {launches : List (Launch H)}

theorem checks_single {idx : NodeIndex} {answer : Answer} (hHead : s.ready.head? = some idx)
    (h : (match (R.checkRateLimit now windows (R.nodeId idx)).1, answer with
      | some _, .refused => some ((R.checkRateLimit now windows (R.nodeId idx)).2, [])
      | none, .accepted => some ((R.checkRateLimit now windows (R.nodeId idx)).2,
          [.single R.toParallelWorkflowEngine idx
            ((R.meteredWindow now windows (R.nodeId idx)).map (·.2.start))])
      | _, _ => none) = some (windows', launches)) :
    Checks R now windows s (.pop answer) windows' launches := by
  unfold ParallelWorkflowEngine.checkRateLimit at h
  cases hMetered : R.meteredWindow now windows (R.nodeId idx) with
  | none =>
      rw [hMetered] at h
      dsimp only at h
      split at h
      · rename_i hSome
        cases hSome
      · cases h
        exact .uncounted _ _ (List.forall_mem_singleton.2 rfl)
      · cases h
  | some metered =>
      obtain ⟨limit, w⟩ := metered
      rw [hMetered] at h
      dsimp only at h
      split at h
      · cases h
        exact .refused _ idx limit w hHead hMetered
      · rename_i hPassed
        cases h
        refine .admitted _ idx limit w hHead hMetered (Nat.le_of_not_lt fun hOver => ?_)
        rw [if_pos hOver] at hPassed
        cases hPassed
      · cases h

theorem meter_checks {action : Action}
    (h : R.meter now windows s action = some (windows', launches)) :
    Checks R now windows s action windows' launches := by
  unfold meter at h
  split at h
  · rename_i answer
    split at h
    · cases h
    · rename_i idx rest hReady
      split at h
      · cases h
        apply Checks.uncounted
        split
        · simp [Launch.requests]
        · rintro _ ⟨⟩
      · cases h
        exact .uncounted _ _ fun _ hMem => (by cases hMem)
      · split at h
        · exact checks_single (hReady ▸ rfl) h
        · cases h
          exact .uncounted _ _ fun _ hMem => (by cases hMem)
  · cases h
    exact .uncounted _ _ fun _ hMem => (by cases hMem)

end Reactor

namespace Process

theorem Kept.elapse (h : p.Kept) (duration : Nat) :
    Kept { p with now := p.now + duration } :=
  ⟨fun moduleId limit hLimit hPositive => (h.counted moduleId limit hLimit hPositive).elapse duration,
    h.timely⟩

theorem Kept.evict (h : p.Kept) :
    Kept { p with windows := evictStaleRateLimits p.now p.windows } := by
  refine ⟨fun moduleId limit hLimit hPositive => ?_, h.timely⟩
  have hBefore := h.counted moduleId limit hLimit hPositive
  change Window.Keeps _ p.now _ ((evictStaleRateLimits p.now p.windows).lookup moduleId) _
  obtain hSame | ⟨hGone, hStale⟩ := lookup_evict p.now p.windows moduleId
  · rw [hSame]
    exact hBefore
  · rw [hGone]
    refine hBefore.forget fun w hWindow => ?_
    have hOld := hStale w hWindow
    have hLonger : rateLimitWindow < rateLimitStale := by decide
    omega

theorem requests_launch (p : Process H declared) (windows : Table Window)
    (runs : List (ActiveRun H declared)) (launches : List (Launch H)) (moduleId : Uuid) :
    (startsOf moduleId (requests { p with
      windows := windows, runs := runs, launched := p.launched ++ launches })).Perm
        (startsOf moduleId (launches.flatMap Launch.requests) ++ startsOf moduleId p.requests) := by
  rw [requests, List.flatMap_append, ← startsOf_append]
  apply List.Perm.filterMap
  rw [requests, ← List.append_assoc]
  exact List.perm_append_comm.append_right _

theorem Kept.launch (h : p.Kept) {launches : List (Launch H)} {runs : List (ActiveRun H declared)}
    (hNone : ∀ request ∈ launches.flatMap Launch.requests, request.2 = none) :
    Kept { p with runs := runs, launched := p.launched ++ launches } := by
  refine ⟨fun moduleId limit hLimit hPositive => ?_, h.timely⟩
  have hRequests := requests_launch p p.windows runs launches moduleId
  rw [startsOf_uncounted hNone] at hRequests
  exact (h.counted moduleId limit hLimit hPositive).perm hRequests.symm

theorem Kept.check (h : p.Kept) {run : ActiveRun H declared} {idx : NodeIndex} {limit : Int}
    {w : Window} {launches : List (Launch H)} {runs : List (ActiveRun H declared)}
    (hMetered : run.engine.meteredWindow p.now p.windows (run.engine.nodeId idx) = some (limit, w))
    (hRoom : (Window.roll rateLimitWindow p.now (p.windows.lookup
      (run.engine.resolveModuleId (run.engine.nodeId idx)))).count.toNat + 1 < UInt32.size)
    (hLaunches : launches = [] ∨ w.count.toNat ≤ limit.toNat ∧
      launches = [.single run.engine idx (some w.start)]) :
    Kept { p with
      windows := p.windows.insert (run.engine.resolveModuleId (run.engine.nodeId idx)) w
      runs := runs
      launched := p.launched ++ launches } := by
  obtain ⟨hKnown, hPositive, rfl⟩ := meteredWindow_some hMetered
  refine ⟨fun moduleId limit' hLimit hPositive' => ?_, h.timely⟩
  have hBefore := h.counted moduleId limit' hLimit hPositive'
  refine Window.Keeps.perm ?_ (requests_launch p _ runs launches moduleId).symm
  change Window.Keeps _ p.now _ ((p.windows.insert _ _).lookup moduleId) _
  obtain rfl | hOther := eq_or_ne moduleId (run.engine.resolveModuleId (run.engine.nodeId idx))
  · obtain rfl : limit' = limit := Option.some.inj (hLimit.symm.trans (run.loaded _ _ hKnown))
    rw [AList.lookup_insert]
    obtain rfl | ⟨hWithin, rfl⟩ := hLaunches
    · exact hBefore.refused hRoom
    · rw [List.flatMap_singleton, Launch.requests, startsOf_self]
      exact hBefore.admitted hRoom hWithin
  · have hNone : startsOf moduleId (launches.flatMap Launch.requests) = [] := by
      obtain rfl | ⟨-, rfl⟩ := hLaunches
      · rfl
      · rw [List.flatMap_singleton, Launch.requests, startsOf_other hOther]
    rw [AList.lookup_insert_ne hOther, hNone]
    exact hBefore

theorem Kept.handOver (h : p.Kept) {k : Nat} {launch : Launch H} (hLaunch : p.launched[k]? = some launch)
    (hTimely : ∀ request ∈ launch.requests, ∀ limit, declared request.1 = some limit → 0 < limit →
      ∃ start, request.2 = some start ∧ p.now ≤ start + rateLimitWindow) :
    Kept { p with
      launched := p.launched.eraseIdx k
      handed := p.handed ++ launch.requests.map fun r => ⟨p.now, r.1, r.2⟩ } := by
  obtain ⟨hBound, hAt⟩ := List.getElem?_eq_some_iff.1 hLaunch
  have hErased : (p.launched.flatMap Launch.requests).Perm
      (launch.requests ++ (p.launched.eraseIdx k).flatMap Launch.requests) := by
    rw [← List.flatMap_cons, ← hAt]
    exact (List.getElem_cons_eraseIdx_perm hBound).symm.flatMap_right _
  have hRequests : p.requests.Perm (requests { p with
      launched := p.launched.eraseIdx k
      handed := p.handed ++ launch.requests.map fun r => ⟨p.now, r.1, r.2⟩ }) := by
    rw [requests, requests, List.map_append, List.map_map]
    have hMap : launch.requests.map (Handover.request ∘ fun r => ⟨p.now, r.1, r.2⟩) =
        launch.requests := List.map_id _
    rw [hMap]
    refine (hErased.append_right _).trans ?_
    rw [List.append_assoc]
    exact List.perm_append_comm.trans (List.append_assoc .. ▸ .refl _)
  refine ⟨fun moduleId limit hLimit hPositive => ?_, fun handover hMem limit hLimit hPositive => ?_⟩
  · exact (h.counted moduleId limit hLimit hPositive).perm (hRequests.filterMap _)
  · obtain hOld | hNew := List.mem_append.1 hMem
    · exact h.timely handover hOld limit hLimit hPositive
    · obtain ⟨request, hRequest, rfl⟩ := List.mem_map.1 hNew
      obtain ⟨start, hStart, hEarly⟩ := hTimely request hRequest limit hLimit hPositive
      refine ⟨start, hStart, ?_, hEarly⟩
      apply (h.counted request.1 limit hLimit hPositive).le_now
      refine List.mem_filterMap.2 ⟨request, ?_, by rw [if_pos rfl, hStart]⟩
      exact List.mem_append_left _ (List.mem_flatMap.2 ⟨launch, List.mem_of_getElem? hLaunch, hRequest⟩)

theorem Kept.step (h : p.Kept) {action : ProcessAction H declared} (hCounts : p.Counts action)
    (hStep : p.step action = some q) : q.Kept := by
  cases action with
  | elapse duration =>
      cases hStep
      exact h.elapse duration
  | evict =>
      cases hStep
      exact h.evict
  | start run =>
      cases hStep
      exact ⟨h.counted, h.timely⟩
  | advance i action =>
      rw [Process.step] at hStep
      split at hStep
      · cases hStep
      · rename_i run hRun
        split at hStep
        · rename_i t windows launches _ hMeter
          cases hStep
          cases Reactor.meter_checks hMeter with
          | uncounted _ _ hNone => exact h.launch hNone
          | refused answer idx limit w hHead hMetered =>
              have hRoom := hCounts run hRun idx hHead (Option.isSome_of_eq_some hMetered)
              exact h.check hMetered hRoom (.inl rfl)
          | admitted answer idx limit w hHead hMetered hWithin =>
              have hRoom := hCounts run hRun idx hHead (Option.isSome_of_eq_some hMetered)
              exact h.check hMetered hRoom (.inr ⟨hWithin, rfl⟩)
        · cases hStep
  | iterate i =>
      rw [Process.step] at hStep
      split at hStep
      · cases hStep
      · obtain ⟨bodyId, -, rfl⟩ := Option.map_eq_some_iff.1 hStep
        exact h.launch (List.forall_mem_singleton.2 rfl)
  | handOver k d inputs =>
      rw [Process.step] at hStep
      split at hStep
      · cases hStep
      · rename_i launch hLaunch
        split at hStep
        · cases hStep
          exact h.handOver hLaunch (hCounts launch hLaunch)
        · cases hStep

/-- The executions that were handed over in the span of a window were counted by it. -/
theorem Kept.withinLimits (h : p.Kept) : p.WithinLimits := by
  intro moduleId limit hLimit hPositive w hWindow
  have hKeeps := h.counted moduleId limit hLimit hPositive
  obtain ⟨-, -, hApart⟩ := hKeeps.inForce w hWindow
  have hStarts : startsOf moduleId p.requests =
      startsOf moduleId (p.launched.flatMap Launch.requests) ++
        startsOf moduleId (p.handed.map Handover.request) := startsOf_append _ _
  calc
    _ ≤ p.handed.countP fun handover =>
        decide (handover.moduleId = moduleId ∧ handover.window = some w.start) := by
      apply List.countP_mono_left
      intro handover hMem hSpan
      obtain ⟨rfl, hAfter, hBefore⟩ := of_decide_eq_true hSpan
      obtain ⟨start, hStart, hFrom, hUntil⟩ := h.timely handover hMem limit hLimit hPositive
      have hLogged : start ∈ startsOf handover.moduleId p.requests := by
        refine List.mem_filterMap.2 ⟨handover.request, ?_, (if_pos rfl).trans hStart⟩
        exact List.mem_append_right _ (List.mem_map_of_mem hMem)
      obtain rfl | hOver := hApart start hLogged
      · exact decide_eq_true ⟨rfl, hStart⟩
      · omega
    _ = (startsOf moduleId (p.handed.map Handover.request)).count w.start := by
      rw [startsOf, List.count, List.countP_filterMap, List.countP_map]
      apply List.countP_congr
      intro handover _
      change _ ↔ (Option.map (· == w.start)
        (if handover.moduleId = moduleId then handover.window else none)).getD false = true
      by_cases hModule : handover.moduleId = moduleId
      · cases handover.window <;> simp [hModule]
      · simp [hModule]
    _ ≤ (startsOf moduleId p.requests).count w.start := by
      rw [hStarts, List.count_append]
      exact Nat.le_add_left _ _
    _ ≤ limit.toNat := hKeeps.bounded w.start

/-- If every execution of a limited module is counted and handed over in the window that has
counted it, then no window sees more of them than declared. -/
theorem rate_limits_hold
    (hRun : Run Process.step Process.Counts (Process.initial : Process H declared) p) :
    p.WithinLimits :=
  (hRun.invariant Kept (fun _ _ _ hCounts hKept hStep => hKept.step hCounts hStep)
    Kept.initial).withinLimits

end Process

end Counting

section Unlimited

variable {E E' : ParallelWorkflowEngine H}

theorem untouched_rateLimits : Untouched fun E : ParallelWorkflowEngine H => E.rateLimits :=
  fun _ _ _ _ _ _ _ => rfl

namespace GraphFormat

variable {F : GraphFormat}

theorem nested_meteredWindow {graphJson : Json}
    (h : E.adapterSet.intoEngineWithGraph F.graphReader graphJson = .ok E') (now : Nat)
    (windows : Table Window) (nodeId : Uuid) : E'.meteredWindow now windows nodeId = none := by
  have hNone : E'.rateLimits = ∅ := by
    unfold AdapterSet.intoEngineWithGraph at h
    dsimp only at h
    split at h
    · cases h
    · unfold graphReader at h
      generalize hParsed : F.parseGraphDocument _ graphJson = parsed at h
      cases parsed with
      | error e => cases h
      | ok loaded =>
          cases h
          exact untouched_rateLimits.parseGraphDocument hParsed
  rw [ParallelWorkflowEngine.meteredWindow, hNone, AList.lookup_empty]

end GraphFormat

end Unlimited

section Samples

def oncePerWindow (moduleId : Uuid) : Option Int := if moduleId = 7 then some 1 else none

def limitTable : Table Int := (∅ : Table Int).insert 7 1

theorem lookup_limitTable (moduleId : Uuid) : limitTable.lookup moduleId = oncePerWindow moduleId := by
  unfold oncePerWindow limitTable
  split
  · rename_i hModule
    rw [hModule, AList.lookup_insert]
  · rename_i hModule
    rw [AList.lookup_insert_ne hModule, AList.lookup_empty]

def loneNodes : Multigraph Uuid EdgeLogic := ⟨[1, 2, 3], [], by decide⟩

def chainedNodes : Multigraph Uuid EdgeLogic := ⟨[1, 2, 3], [⟨1, 2, {}⟩], by decide⟩

def meteredEngine (graph : Multigraph Uuid EdgeLogic) : ParallelWorkflowEngine (bareHost true) :=
  { ParallelWorkflowEngine.new with
    graph := graph
    nodeMeta := nodeTable [(1, moduleNode), (2, moduleNode), (3, moduleNode)]
    rateLimits := limitTable
    moduleFetcher := some sampleFetcher
    userId := some 5 }

def meteredRun (graph : Multigraph Uuid EdgeLogic) : ActiveRun (bareHost true) oncePerWindow where
  engine := meteredEngine graph
  executionId := 9
  initialResults := ∅
  state := ((meteredEngine graph).reactor 9 ∅).initialState ∅
  inMemory := rfl
  loaded moduleId _ h := (lookup_limitTable moduleId).symm.trans h

def plainDispatch : DispatchContext := ⟨9, 0, none, ∅, none, none, none, 0, 0⟩

/-- The first one of three modules on their own is handed over in its window. -/
theorem rate_limits_hold_single_modules :
    ∃ p : Process (bareHost true) oncePerWindow, p.handed.length = 1 ∧ p.WithinLimits := by
  let first : Process (bareHost true) oncePerWindow := ⟨0, ∅, [meteredRun loneNodes], [], []⟩
  have hFirst : Run Process.step Process.Counts Process.initial first :=
    .single ⟨.start (meteredRun loneNodes), trivial, rfl⟩
  have hSome : (first.step (.advance 0 (.pop .accepted))).map (fun p =>
      (p.now, p.requests, (p.step (.handOver 0 plainDispatch .null)).map
        fun q => q.handed.length)) = some (0, [(7, some 0)], some 1) := by
    decide
  obtain ⟨second, hSecond, hObserved⟩ := Option.map_eq_some_iff.1 hSome
  obtain ⟨hNow, hRest⟩ := Prod.mk.inj hObserved
  obtain ⟨hRequests, hLast⟩ := Prod.mk.inj hRest
  obtain ⟨third, hThird, hHanded⟩ := Option.map_eq_some_iff.1 hLast
  have hAdvance : first.Counts (.advance 0 (.pop .accepted)) := by
    intro run _ idx _ _
    rw [show first.windows = ∅ from rfl, AList.lookup_empty]
    decide
  have hHandOver : second.Counts (.handOver 0 plainDispatch .null) := by
    intro launch hLaunch request hRequest limit _ _
    have hMem : request ∈ second.requests := List.mem_append_left _
      (List.mem_flatMap.2 ⟨launch, List.mem_of_getElem? hLaunch, hRequest⟩)
    rw [hRequests] at hMem
    obtain rfl := List.mem_singleton.1 hMem
    exact ⟨0, rfl, by rw [hNow]; exact Nat.zero_le _⟩
  refine ⟨third, hHanded, Process.rate_limits_hold ?_⟩
  exact (hFirst.tail ⟨_, hAdvance, hSecond⟩).tail ⟨_, hHandOver, hThird⟩

/-- The chain is not counted: with the module on its own, three executions are handed over at once. -/
theorem rate_limit_exceeded_by_chain :
    ¬ ∀ (H : Host) (declared : Uuid → Option Int) (p : Process H declared),
      Run Process.step (fun _ _ => True) Process.initial p →
        (∀ run ∈ p.runs, ∀ moduleId, run.engine.rateLimits.lookup moduleId = declared moduleId) →
          p.WithinLimits := by
  intro hAll
  let start : Process (bareHost true) oncePerWindow := .initial
  have hReplay : (replay Process.step (fun _ _ => True)
      [.start (meteredRun chainedNodes), .advance 0 (.pop .accepted), .advance 0 (.pop .accepted),
        .handOver 0 plainDispatch .null, .handOver 0 plainDispatch .null] start).map
          (fun p => (p.handed.map fun h => (h.time, h.moduleId), (p.windows.lookup 7).map Window.start,
            p.runs.map fun run => run.engine.rateLimits.entries)) =
              some ([(0, 7), (0, 7), (0, 7)], some 0, [limitTable.entries]) := by
    decide
  obtain ⟨p, hp, hObserved⟩ := Option.map_eq_some_iff.1 hReplay
  obtain ⟨hHanded, hRest⟩ := Prod.mk.inj hObserved
  obtain ⟨hWindow, hTables⟩ := Prod.mk.inj hRest
  obtain ⟨w, hLookup, hStart⟩ := Option.map_eq_some_iff.1 hWindow
  have hLoaded : ∀ run ∈ p.runs, ∀ moduleId,
      run.engine.rateLimits.lookup moduleId = oncePerWindow moduleId := by
    intro run hMem moduleId
    have hEntries := List.mem_map_of_mem (f := fun run => run.engine.rateLimits.entries) hMem
    rw [hTables, List.mem_singleton] at hEntries
    rw [AList.ext hEntries, lookup_limitTable]
  have hWithin := hAll _ _ p (replay_run hp) hLoaded 7 1 rfl Int.one_pos w hLookup
  have hCount : (p.handed.map fun h => (h.time, h.moduleId)).countP (fun h =>
      decide (h.2 = 7 ∧ w.start ≤ h.1 ∧ h.1 ≤ w.start + rateLimitWindow)) ≤ 1 := by
    rw [List.countP_map]
    exact hWithin
  rw [hHanded, hStart] at hCount
  exact absurd hCount (by decide)

end Samples

end TalosWorkflow
