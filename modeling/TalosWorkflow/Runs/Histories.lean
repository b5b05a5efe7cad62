import TalosWorkflow.Steps.Inversion

/-!
# Histories

Projections of the history, and moves of nodes from one queue to another.
-/

namespace TalosWorkflow

section Histories

variable (history : List Event)

def enqueuedNodes : List NodeIndex :=
  history.filterMap fun
    | .enqueued idx => some idx
    | _ => none

def releasedNodes : List NodeIndex :=
  history.filterMap fun
    | .released idx => some idx
    | _ => none

def aggregatedNodes : List NodeIndex :=
  history.filterMap fun
    | .aggregated idx => some idx
    | _ => none

/-- A chain counts as a dispatch of its head. -/
def dispatchedNodes : List NodeIndex :=
  history.filterMap fun
    | .dispatched idx => some idx
    | .chainDispatched members => members.head?
    | _ => none

@[simp]
theorem mem_enqueuedNodes {history : List Event} {idx : NodeIndex} :
    idx ∈ enqueuedNodes history ↔ .enqueued idx ∈ history := by
  simp only [enqueuedNodes, List.mem_filterMap]
  constructor
  · rintro ⟨event, hEvent, hIdx⟩
    cases event <;> simp_all
  · exact fun h => ⟨_, h, rfl⟩

end Histories

def State.work (s : State) : List NodeIndex :=
  s.batch.map (·.1) ++ (s.ready ++ s.executing.map Flight.start)

theorem State.enqueue_work (s : State) (idx : NodeIndex) :
    (s.enqueue idx).work.Perm (idx :: s.work) := by
  have hReady : (s.ready ++ [idx] ++ s.executing.map Flight.start).Perm
      (idx :: (s.ready ++ s.executing.map Flight.start)) := by
    rw [List.append_assoc, List.singleton_append]
    exact List.perm_middle
  exact (List.Perm.append_left _ hReady).trans List.perm_middle

theorem State.mem_enqueue_work {s : State} {idx n : NodeIndex} :
    n ∈ (s.enqueue idx).work ↔ n = idx ∨ n ∈ s.work := by
  rw [(s.enqueue_work idx).mem_iff, List.mem_cons]

theorem count_targets {visit : Visit} {rest : List Visit} {n : NodeIndex} :
    ((visit :: rest).map (·.target)).count n =
      (rest.map (·.target)).count n + if n = visit.target then 1 else 0 := by
  rw [List.map_cons, List.count_cons]
  simp only [beq_iff_eq, eq_comm (a := n)]

section Events

variable (events history : List Event)

@[simp]
theorem enqueuedNodes_append :
    enqueuedNodes (events ++ history) = enqueuedNodes events ++ enqueuedNodes history :=
  List.filterMap_append

@[simp]
theorem releasedNodes_append :
    releasedNodes (events ++ history) = releasedNodes events ++ releasedNodes history :=
  List.filterMap_append

@[simp]
theorem dispatchedNodes_append :
    dispatchedNodes (events ++ history) = dispatchedNodes events ++ dispatchedNodes history :=
  List.filterMap_append

@[simp]
theorem aggregatedNodes_append :
    aggregatedNodes (events ++ history) = aggregatedNodes events ++ aggregatedNodes history :=
  List.filterMap_append

/-- Events that neither enqueue a node nor release its successors. -/
structure Quiet (events : List Event) : Prop where
  enqueued : enqueuedNodes events = []
  released : releasedNodes events = []
  underflow : ∀ n, .underflow n ∉ events

variable {events history}

theorem Quiet.mem_enqueued (h : Quiet events) {n : NodeIndex} :
    .enqueued n ∈ events ++ history ↔ .enqueued n ∈ history := by
  rw [← mem_enqueuedNodes, enqueuedNodes_append, h.enqueued, List.nil_append, mem_enqueuedNodes]

theorem Quiet.not_mem_underflow (h : Quiet events) {n : NodeIndex} (hn : .underflow n ∉ history) :
    .underflow n ∉ events ++ history := by
  rw [List.mem_append]
  exact fun hMem => hMem.elim (h.underflow n) hn

theorem Quiet.executed (nodes : List NodeIndex) : Quiet (nodes.map .executed) where
  enqueued := by simp [enqueuedNodes, List.filterMap_map]
  released := by simp [releasedNodes, List.filterMap_map]
  underflow := by simp

theorem dispatchedNodes_executed (nodes : List NodeIndex) :
    dispatchedNodes (nodes.map .executed) = [] := by
  simp [dispatchedNodes, List.filterMap_map]

theorem aggregatedNodes_executed (nodes : List NodeIndex) :
    aggregatedNodes (nodes.map .executed) = [] := by
  simp [aggregatedNodes, List.filterMap_map]

end Events

/-- `base` is `s` after the nodes of `done` have left the queues. -/
structure Shifted (s base : State) (done : List NodeIndex) (events : List Event) : Prop where
  idle : s.visits = []
  visits : base.visits = []
  pending : base.pending = s.pending
  results : base.results = s.results
  work : s.work.Perm (done ++ base.work)
  ready : (dispatchedNodes events ++ base.ready).Subperm s.ready
  history : base.history = events ++ s.history
  quiet : Quiet events
  aggregated : (aggregatedNodes events).Sublist (dispatchedNodes events)

theorem Shifted.mem_enqueued {s base : State} {done : List NodeIndex} {events : List Event}
    (h : Shifted s base done events) {n : NodeIndex} :
    .enqueued n ∈ base.history ↔ .enqueued n ∈ s.history := by
  rw [h.history]
  exact h.quiet.mem_enqueued

theorem perm_cons_eraseIdx {α : Type} {l : List α} {i : Nat} {a : α} (h : l[i]? = some a) :
    l.Perm (a :: l.eraseIdx i) := by
  induction l generalizing i with
  | nil => simp at h
  | cons b l ih =>
      cases i with
      | zero =>
          rw [List.getElem?_cons_zero, Option.some.injEq] at h
          rw [h, List.eraseIdx_cons_zero]
      | succ i =>
          rw [List.getElem?_cons_succ] at h
          rw [List.eraseIdx_cons_succ]
          exact ((ih h).cons b).trans (.swap a b _)

end TalosWorkflow
