import TalosWorkflow.Gating.Results
import TalosWorkflow.Ledger.FreshRuns
import TalosWorkflow.Ledger.Seeds

/-!
# Quotas

When the fan-ins that do not wait for all of their parents are enqueued: the
check runs on the paths of a success and of an error edge, and the other paths
only count.
-/

namespace TalosWorkflow

open Multigraph

variable {H : Host}

section Definitions

variable (R : Reactor H)

/-- The completed parents that a fan-in needs, unless it waits for all of them. -/
def Reactor.required (n : NodeIndex) : Option Nat :=
  match R.kindOf (R.nodeId n) with
  | some (.fanIn .any _) => some 1
  | some (.fanIn .majority _) => some (R.graph.inDegree n / 2 + 1)
  | some (.fanIn (.n quota) _) => some quota.toNat
  | _ => none

/-- The parents that have a result; a parent counts once for each of its edges. -/
def Reactor.completed (results : Table Json) (n : NodeIndex) : Nat :=
  (R.graph.predecessors n).countP fun p => (results.lookup (R.nodeId p)).isSome

/-- A fan-in with its counter at `count` lacks parents. -/
def Reactor.belowQuota (n : NodeIndex) (count : Nat) : Prop :=
  ∀ q ∈ R.required n, R.graph.inDegree n < count + q

instance (n : NodeIndex) (count : Nat) : Decidable (R.belowQuota n count) := by
  unfold Reactor.belowQuota
  infer_instance

/-- The quotas that the completed parents reach are the ones that have been acted upon. -/
def Reactor.ReleasesQuotas (initialResults : Table Json) (s : State) : Prop :=
  ∀ n < R.graph.nodes.length, R.nodeId n ∉ initialResults →
    ∀ q ∈ R.required n, q ≤ R.completed s.results n → .enqueued n ∈ s.history

/-- A skip leaves no waiting fan-in with a count too few, and where the quota is not looked at,
it is not reached either. -/
def Visit.keepsQuotas (s : State) (visit : Visit) : Prop :=
  if R.marks visit then
    ∀ n ∈ visit.target :: R.graph.successors visit.target,
      s.pending n = 0 ∨ R.belowQuota n 0
  else
    (visit.mode = .unblocks →
      s.pending visit.target ≤ 1 ∨ R.belowQuota visit.target (s.pending visit.target - 1)) ∧
    ∀ output ∈ visit.mode.output,
      R.edgeConditionFailed visit.source visit.target output = true →
        R.fillsNow s visit.target →
          (s.pending visit.target = 0 ∨ R.belowQuota visit.target 0) ∧
            ∀ g ∈ R.graph.successors visit.target, s.pending g = 0 ∨
              R.belowQuota g (s.pending g - (R.graph.successors visit.target).count g)

instance (s : State) (visit : Visit) : Decidable (visit.keepsQuotas R s) := by
  unfold Visit.keepsQuotas
  infer_instance

def KeepsQuotas (s : State) (action : Action) : Prop :=
  action matches .visit → ∀ visit ∈ s.visits.head?, visit.keepsQuotas R s

instance : ∀ s action, Decidable (KeepsQuotas R s action) := by
  intro s action
  unfold KeepsQuotas
  infer_instance

/-- The fan-in has not been released, and its parents suffice for its quota. -/
structure Awaits (initialResults : Table Json) (s : State) (n : NodeIndex) : Prop where
  length : n < R.graph.nodes.length
  unseeded : R.nodeId n ∉ initialResults
  reachable : ¬ R.belowQuota n 0
  waiting : .enqueued n ∉ s.history

/-- The counter of a fan-in keeps up with the parents that are complete. -/
structure KeepsPace (s : State) (n : NodeIndex) : Prop where
  counted : s.pending n + R.completed s.results n ≤
    R.graph.inDegree n + (s.visits.map (·.target)).count n
  bounded : s.pending n ≤ R.graph.inDegree n
  below : R.belowQuota n (s.pending n)

end Definitions

section Quotas

variable {R : Reactor H} {s t base : State} {n : NodeIndex}

theorem isFanIn_of_reachable (h : ¬ R.belowQuota n 0) : R.isFanIn n = true := by
  rw [Reactor.belowQuota] at h
  push Not at h
  obtain ⟨q, hRequired, -⟩ := h
  rw [Reactor.isFanIn_iff]
  unfold Reactor.required at hRequired
  split at hRequired
  · exact ⟨_, _, ‹_›⟩
  · exact ⟨_, _, ‹_›⟩
  · exact ⟨_, _, ‹_›⟩
  · cases hRequired

theorem belowQuota_of_quotaMet {count : Nat} (hCount : count ≤ R.graph.inDegree n)
    (h : R.quotaMet n count = false) : R.belowQuota n count := by
  intro q hRequired
  have hDone : R.completedParents n count = .ok (R.graph.inDegree n - count) := if_pos hCount
  unfold Reactor.required at hRequired
  split at hRequired
  · rename_i hKind
    rw [Reactor.quotaMet, hKind, hDone] at h
    cases h
  · rename_i hKind
    cases hRequired
    rw [Reactor.quotaMet, hKind, hDone] at h
    simp only [Reactor.joinSatisfied, decide_eq_false_iff_not] at h
    omega
  · rename_i hKind
    cases hRequired
    rw [Reactor.quotaMet, hKind, hDone] at h
    simp only [Reactor.joinSatisfied, decide_eq_false_iff_not] at h
    omega
  · cases hRequired

theorem completed_le (results : Table Json) (n : NodeIndex) :
    R.completed results n ≤ R.graph.inDegree n :=
  List.countP_le_length

/-- A node that gets a result is a completed parent along its own edges, and no others. -/
theorem completed_insert_le (hIds : R.graph.nodes.Nodup) {a : NodeIndex}
    (ha : a < R.graph.nodes.length) (results : Table Json) (value : Json) (n : NodeIndex) :
    R.completed (results.insert (R.nodeId a) value) n ≤
      R.completed results n + (R.graph.successors a).count n := by
  rw [count_successors_eq_count_predecessors]
  refine countP_le_add_count fun p hp hSome => ?_
  obtain hSame | hOther := eq_or_ne (R.nodeId p) (R.nodeId a)
  · exact .inr (nodeId_injective hIds ((mem_predecessors _).1 hp).source_lt ha hSame)
  · rw [AList.lookup_insert_ne hOther] at hSome
    exact .inl hSome

theorem KeepsPace.pending_pos (h : KeepsPace R s n) (hReachable : ¬ R.belowQuota n 0) :
    0 < s.pending n := by
  rw [Nat.pos_iff_ne_zero]
  intro hZero
  exact hReachable (hZero ▸ h.below)

/-- While no edge is on its way, a fan-in that keeps pace has not reached its quota. -/
theorem KeepsPace.completed_lt (h : KeepsPace R s n) (hSettled : s.visits = []) {q : Nat}
    (hRequired : q ∈ R.required n) : R.completed s.results n < q := by
  have hCounted := h.counted
  have hBelow := h.below q hRequired
  rw [hSettled, List.map_nil, List.count_nil] at hCounted
  omega

end Quotas

section Checks

variable {R : Reactor H} {s t : State}

theorem applyFanInEarlyReady_met {child : NodeIndex} (hPos : 0 < s.pending child)
    (hMet : R.quotaMet child (s.pending child) = true) :
    R.applyFanInEarlyReady s child = .ok (s.setPending child 0) := by
  unfold Reactor.quotaMet at hMet
  split at hMet
  · rename_i mode expr completed hKind hDone
    unfold Reactor.applyFanInEarlyReady
    rw [hKind, hDone]
    simp [bind, Except.bind, hMet, hPos]
    rfl
  · cases hMet

/-- A visit that reaches the quota on a path with the check empties the counter. -/
theorem makeVisit_met {visit : Visit} (hMode : visit.mode ≠ .unblocks)
    (hMarks : R.marks visit = false) (hPos : 1 < s.pending visit.target)
    (hMet : R.quotaMet visit.target (s.pending visit.target - 1) = true)
    (h : R.makeVisit s visit = .ok t) : t.pending visit.target = 0 := by
  have hEarly : R.applyFanInEarlyReady
      (s.setPending visit.target (s.pending visit.target - 1)) visit.target =
        .ok (s.setPending visit.target 0) := by
    rw [applyFanInEarlyReady_met]
    · rw [State.setPending_setPending]
    · rw [State.setPending_pending_self]
      omega
    · rw [State.setPending_pending_self]
      exact hMet
  have hCount : Reactor.decrement (H := H) s visit.target =
      .ok (s.setPending visit.target (s.pending visit.target - 1)) := if_pos (by omega)
  rw [Reactor.marks] at hMarks
  rw [Reactor.makeVisit] at h
  cases hOf : visit.mode with
  | unblocks => exact absurd hOf hMode
  | succeeds output =>
      rw [hOf] at hMarks h
      simp only at hMarks h
      rw [Reactor.visitSucceeded, hMarks, hCount] at h
      simp only [Bool.false_eq_true, if_false, bind, Except.bind, hEarly,
        State.setPending_pending_self, if_true] at h
      split at h
      · cases h
        rw [Reactor.cascadeSkip_eq]
        simp
      · cases h
        simp
  | routes =>
      rw [hOf] at hMarks h
      simp only at hMarks h
      rw [Reactor.visitRouted, hMarks, Reactor.countDown_eq, hEarly] at h
      simp only [Bool.false_eq_true, if_false, bind, Except.bind,
        State.setPending_pending_self, if_true] at h
      cases h
      simp

theorem step_visit {visit : Visit} {rest : List Visit} (hVisits : s.visits = visit :: rest)
    (hStep : R.step s .visit = some t) (hRunning : t.status = .running) :
    R.makeVisit { s with visits := rest } visit = .ok t := by
  obtain ⟨hBefore, -⟩ := step_running hStep hRunning
  rw [Reactor.step, if_pos hBefore] at hStep
  simp only [Reactor.body, hVisits, Option.map_some, Option.some.injEq] at hStep
  cases hMade : R.makeVisit { s with visits := rest } visit with
  | ok t' =>
      rw [hMade] at hStep
      rw [← hStep]
  | error e =>
      rw [hMade] at hStep
      subst hStep
      cases e with
      | failed message => cases hRunning
      | counterUnderflow idx => cases hRunning
      | charBoundary => cases hRunning

end Checks

section Steps

variable {R : Reactor H} {s t base : State} {initialResults : Table Json} {n : NodeIndex}

namespace Awaits

theorem before (h : Awaits R initialResults t n)
    (hHistory : .enqueued n ∈ s.history → .enqueued n ∈ t.history) : Awaits R initialResults s n where
  length := h.length
  unseeded := h.unseeded
  reachable := h.reachable
  waiting hEnqueued := h.waiting (hHistory hEnqueued)

/-- A fan-in that keeps pace is none of the nodes that a skip may leave behind. -/
theorem not_passed (h : Awaits R initialResults s n) (hPace : KeepsPace R s n)
    (hPassed : s.pending n = 0 ∨ R.belowQuota n 0) : False := by
  obtain hZero | hBelow := hPassed
  · exact (hPace.pending_pos h.reachable).ne' hZero
  · exact h.reachable hBelow

end Awaits

namespace KeepsPace

variable {visit : Visit} {rest : List Visit}

theorem count_rest (h : KeepsPace R s n) (hVisits : s.visits = visit :: rest) :
    s.pending n + R.completed s.results n ≤ R.graph.inDegree n +
      ((rest.map (·.target)).count n + if n = visit.target then 1 else 0) := by
  have hCounted := h.counted
  rwa [hVisits, count_targets] at hCounted

theorem visited_other (h : KeepsPace R s n) (hVisits : s.visits = visit :: rest)
    (hOther : n ≠ visit.target) (hRest : t.visits = rest) (hPending : t.pending n = s.pending n)
    (hCompleted : R.completed t.results n ≤ R.completed s.results n) : KeepsPace R t n where
  counted := by
    have hCount := h.count_rest hVisits
    rw [if_neg hOther] at hCount
    rw [hRest, hPending]
    omega
  bounded := hPending ▸ h.bounded
  below := hPending ▸ h.below

theorem visited_marked (hIds : R.graph.nodes.Nodup) (hTarget : visit.target < R.graph.nodes.length)
    (hAwaits : Awaits R initialResults s n) (h : KeepsPace R s n)
    (hVisits : s.visits = visit :: rest) (hMarks : R.marks visit = true)
    (hKeeps : visit.keepsQuotas R s) :
    KeepsPace R (R.markSkipped { s with visits := rest } visit.target) n := by
  rw [Visit.keepsQuotas, if_pos hMarks] at hKeeps
  have hOther : n ≠ visit.target := by
    rintro rfl
    exact hAwaits.not_passed h (hKeeps _ List.mem_cons_self)
  have hChild : n ∉ R.graph.successors visit.target := fun hIn =>
    hAwaits.not_passed h (hKeeps n (List.mem_cons_of_mem _ hIn))
  refine h.visited_other hVisits hOther rfl rfl ?_
  have hInsert := completed_insert_le hIds hTarget s.results skippedMark n
  rwa [List.count_eq_zero_of_not_mem hChild] at hInsert

/-- A visit that only counts does not reach the quota of its target. -/
theorem visited_counted (h : KeepsPace R s n) (hVisits : s.visits = visit :: rest)
    (hMarks : R.marks visit = false) (hPending : 1 < s.pending visit.target)
    (hKeeps : visit.keepsQuotas R s)
    (hMade : R.makeVisit { s with visits := rest } visit =
      .ok (State.setPending { s with visits := rest } visit.target (s.pending visit.target - 1))) :
    KeepsPace R (State.setPending { s with visits := rest } visit.target
      (s.pending visit.target - 1)) n := by
  obtain rfl | hOther := eq_or_ne n visit.target
  · have hCount := h.count_rest hVisits
    have hBounded := h.bounded
    rw [if_pos rfl] at hCount
    refine ⟨?_, ?_, ?_⟩
    · rw [State.setPending_pending_self]
      simp only [State.setPending_results, State.setPending_visits]
      omega
    · rw [State.setPending_pending_self]
      omega
    · rw [State.setPending_pending_self]
      by_cases hMode : visit.mode = .unblocks
      · rw [Visit.keepsQuotas, hMarks] at hKeeps
        refine (hKeeps.1 hMode).resolve_left ?_
        omega
      · apply belowQuota_of_quotaMet
        · omega
        · rw [Bool.eq_false_iff]
          intro hMet
          have hZero :=
            makeVisit_met (s := { s with visits := rest }) hMode hMarks hPending hMet hMade
          rw [State.setPending_pending_self] at hZero
          omega
  · exact h.visited_other hVisits hOther rfl (State.setPending_pending_ne _ _ hOther) le_rfl

theorem visited_cascaded (hIds : R.graph.nodes.Nodup)
    (hTarget : visit.target < R.graph.nodes.length) (hAwaits : Awaits R initialResults s n)
    (h : KeepsPace R s n) (hVisits : s.visits = visit :: rest) (hMarks : R.marks visit = false)
    {output : Json} (hMode : visit.mode = .succeeds output)
    (hFails : R.edgeConditionFailed visit.source visit.target output = true)
    (hFills : R.fillsNow s visit.target) (hKeeps : visit.keepsQuotas R s) (events : List Event) :
    KeepsPace R (R.cascadeSkip (State.setPending
      { s with visits := rest, history := events ++ s.history } visit.target 0) visit.target) n := by
  rw [Visit.keepsQuotas, hMarks, hMode] at hKeeps
  obtain ⟨hSelf, hChildren⟩ := hKeeps.2 output rfl hFails hFills
  have hOther : n ≠ visit.target := by
    rintro rfl
    exact hAwaits.not_passed h hSelf
  have hCount := h.count_rest hVisits
  have hInsert := completed_insert_le hIds hTarget s.results skippedMark n
  have hBounded := h.bounded
  rw [if_neg hOther] at hCount
  have hBelow : R.belowQuota n (s.pending n - (R.graph.successors visit.target).count n) := by
    by_cases hChild : n ∈ R.graph.successors visit.target
    · refine (hChildren n hChild).resolve_left ?_
      exact (h.pending_pos hAwaits.reachable).ne'
    · rw [List.count_eq_zero_of_not_mem hChild]
      exact h.below
  have hPos : 0 < s.pending n - (R.graph.successors visit.target).count n := by
    rw [Nat.pos_iff_ne_zero]
    intro hZero
    exact hAwaits.reachable (hZero ▸ hBelow)
  rw [Reactor.cascadeSkip_eq]
  refine ⟨?_, ?_, ?_⟩
  · simp only [Function.update_of_ne hOther]
    omega
  · simp only [Function.update_of_ne hOther]
    omega
  · simp only [Function.update_of_ne hOther]
    exact hBelow

theorem visited (hIds : R.graph.nodes.Nodup) (hOrderly : Orderly R s)
    (hAwaits : Awaits R initialResults t n) (h : Awaits R initialResults s n → KeepsPace R s n)
    (hVisits : s.visits = visit :: rest) (hKeeps : visit.keepsQuotas R s)
    (hMade : R.makeVisit { s with visits := rest } visit = .ok t) : KeepsPace R t n := by
  have hVisit := Reactor.makeVisit_ok hMade
  obtain ⟨events, hHistory, -⟩ := visited_history hVisit
  have hBefore : Awaits R initialResults s n :=
    hAwaits.before fun hEnqueued => hHistory ▸ List.mem_append_right _ hEnqueued
  have hPace := h hBefore
  have hTarget := (hOrderly.targets visit (hVisits ▸ List.mem_cons_self)).2.target_lt
  cases hVisit with
  | marked hMarks => exact hPace.visited_marked hIds hTarget hBefore hVisits hMarks hKeeps
  | counted hMarks hPending => exact hPace.visited_counted hVisits hMarks hPending hKeeps hMade
  | enqueued =>
      have hOther : n ≠ visit.target := by
        rintro rfl
        exact hAwaits.waiting List.mem_cons_self
      exact hPace.visited_other hVisits hOther rfl (State.setPending_pending_ne _ _ hOther) le_rfl
  | cascaded events output hMarks hFills hMode hFails =>
      exact hPace.visited_cascaded hIds hTarget hBefore hVisits hMarks hMode hFails
        hFills.fillsNow hKeeps events
  | wrapped output _ _ _ hZero =>
      have hOther : n ≠ visit.target := by
        rintro rfl
        exact (hPace.pending_pos hBefore.reachable).ne' hZero
      exact hPace.visited_other hVisits hOther rfl (State.setPending_pending_ne _ _ hOther) le_rfl

/-- The edges out of a completed node are all still to be counted. -/
theorem concluded (hChains : R.ChainsDetected) (hIds : R.graph.nodes.Nodup)
    (hOrderly : Orderly R s) (hAwaits : Awaits R initialResults s n) (h : KeepsPace R s n)
    {action : Action} {start idx : NodeIndex} {events : List Event} {mode : Completion}
    {value : Json} (hConcluding : Concluding R s action start idx base events mode value) :
    KeepsPace R (R.conclude base idx mode value) n := by
  have hShifted := hConcluding.shifted
  have hTail := hConcluding.isTail hOrderly hChains
  have hLength : idx < R.graph.nodes.length :=
    hOrderly.members_lt hChains (hShifted.work.mem_iff.2 List.mem_cons_self) hTail.mem_members
  have hPending : (R.conclude base idx mode value).pending n = s.pending n := by
    rw [← hShifted.pending]
    refine (Reactor.conclude_pending base idx mode value n).resolve_right fun hMember => ?_
    obtain ⟨members, hOf⟩ : ∃ members, R.chainOf idx = some members :=
      Option.ne_none_iff_exists'.1 fun hNone => by simp [hNone] at hMember
    rw [hOf, Option.getD_some] at hMember
    have hNone := chainOf_eq_none_of_isFanIn hChains (isFanIn_of_reachable hAwaits.reachable)
    rw [chainOf_of_mem hChains (chainOf_eq_some hOf).1 hMember.1] at hNone
    cases hNone
  have hInsert := completed_insert_le hIds hLength s.results value n
  have hCounted := h.counted
  rw [hShifted.idle, List.map_nil, List.count_nil] at hCounted
  refine ⟨?_, hPending ▸ h.bounded, hPending ▸ h.below⟩
  rw [hPending, conclude_targets, Reactor.conclude_results, hShifted.results]
  omega

end KeepsPace

/-- Every fan-in that waits for its quota keeps pace while the run goes on. -/
theorem keepsPace_step (hChains : R.ChainsDetected) (hIds : R.graph.nodes.Nodup)
    (hOrderly : Orderly R s) {action : Action} (hKeeps : KeepsQuotas R s action)
    (h : ∀ n, Awaits R initialResults s n → KeepsPace R s n)
    (hStep : R.step s action = some t) (hRunning : t.status = .running) (n : NodeIndex)
    (hAwaits : Awaits R initialResults t n) : KeepsPace R t n := by
  obtain ⟨-, hStepped⟩ := step_running hStep hRunning
  cases hOrderly.moved hStepped with
  | visited visit rest _ hVisits hVisit =>
      have hHead : visit ∈ s.visits.head? := by
        rw [hVisits]
        rfl
      exact KeepsPace.visited hIds hOrderly hAwaits (h n) hVisits (hKeeps rfl visit hHead)
        (step_visit hVisits hStep hRunning)
  | concluded _ start idx base events mode value hConcluding =>
      have hBefore := hAwaits.before hConcluding.mem_enqueued.2
      exact (h n hBefore).concluded hChains hIds hOrderly hBefore hConcluding
  | relocated _ _ events hRelocating =>
      have hShifted := hRelocating.shifted
      have hPace := h n (hAwaits.before hShifted.mem_enqueued.2)
      refine ⟨?_, ?_, ?_⟩
      · rw [hShifted.pending, hShifted.results, hShifted.visits, ← hShifted.idle]
        exact hPace.counted
      · rw [hShifted.pending]
        exact hPace.bounded
      · rw [hShifted.pending]
        exact hPace.below
  | paused => cases hRunning

end Steps

section Start

variable {R : Reactor H} {initialResults : Table Json}

/-- The node map knows the seeded nodes, and no quota is reached by the seeds alone. -/
structure SeedsBelowQuotas (R : Reactor H) (initialResults : Table Json) : Prop where
  mapped : ∀ n < R.graph.nodes.length, R.nodeId n ∈ initialResults →
    R.nodeMap.lookup (R.nodeId n) = some n
  below : ∀ n < R.graph.nodes.length, R.nodeId n ∉ initialResults →
    R.initialPending initialResults n = 0 ∨ R.belowQuota n (R.initialPending initialResults n)

theorem keepsPace_initial (h : SeedsBelowQuotas R initialResults) (n : NodeIndex)
    (hAwaits : Awaits R initialResults (R.initialState initialResults) n) :
    KeepsPace R (R.initialState initialResults) n := by
  have hPending := initialPending_le_openEdges R initialResults n
  have hSplit := (R.graph.predecessors n).length_eq_countP_add_countP
    fun p => p ∈ R.seededNodes initialResults.keys
  have hCompleted : R.completed initialResults n ≤
      (R.graph.predecessors n).countP fun p => p ∈ R.seededNodes initialResults.keys := by
    refine List.countP_mono_left fun p hp hSome => ?_
    have hMem := AList.lookup_isSome.1 hSome
    rw [decide_eq_true_eq]
    exact List.mem_filterMap.2 ⟨R.nodeId p, AList.mem_keys.1 hMem,
      h.mapped p ((mem_predecessors _).1 hp).source_lt hMem⟩
  have hDegree : R.graph.inDegree n = (R.graph.predecessors n).length := rfl
  simp only [decide_eq_true_eq] at hSplit
  rw [openEdges] at hPending
  refine ⟨?_, ?_, ?_⟩
  · change R.initialPending initialResults n + R.completed initialResults n ≤
      R.graph.inDegree n + 0
    omega
  · change R.initialPending initialResults n ≤ R.graph.inDegree n
    omega
  · refine (h.below n hAwaits.length hAwaits.unseeded).resolve_left fun hZero => ?_
    exact hAwaits.waiting (enqueued_initialState.2
      (mem_initialReady.2 ⟨hAwaits.length, hZero, hAwaits.unseeded⟩))

end Start

section Runs

/-- Between two completions, every fan-in whose quota is reached has been enqueued, in every run
that neither loses a count nor reaches a quota where it is not looked at. -/
theorem fanIn_enqueued_at_quota (E : ParallelWorkflowEngine H) (hIds : E.graph.nodes.Nodup)
    (executionId : Uuid) (initialResults : Table Json)
    (hSeeds : SeedsBelowQuotas (E.reactor executionId initialResults) initialResults) (s : State)
    (hRun : E.Runs executionId initialResults KeepsQuotas s) (hRunning : s.status = .running)
    (hSettled : s.visits = []) :
    (E.reactor executionId initialResults).ReleasesQuotas initialResults s := by
  have hChains := reactor_chainsDetected E executionId initialResults
  have hPace := runs_invariant
    (fun s => s.status = .running → ∀ n, Awaits (E.reactor executionId initialResults)
      initialResults s n → KeepsPace (E.reactor executionId initialResults) s n) hRun
    (fun _ => keepsPace_initial hSeeds) (fun s action t hOrderly hKeeps h hStep hAfter =>
      keepsPace_step hChains hIds hOrderly hKeeps (h (Reactor.step_cases hStep).1) hStep hAfter)
    hRunning
  intro n hLength hUnseeded q hRequired hReached
  by_contra hWaiting
  have hReachable : ¬ (E.reactor executionId initialResults).belowQuota n 0 := by
    intro hBelow
    have hShort := hBelow q hRequired
    have hMost := completed_le (R := E.reactor executionId initialResults) s.results n
    omega
  have hFew := (hPace n ⟨hLength, hUnseeded, hReachable, hWaiting⟩).completed_lt hSettled hRequired
  omega

end Runs

section Samples

/-- The success of the first parent releases the fan-in. -/
theorem fanIn_enqueued_at_quota_succeeded :
    ∃ s : State, s.visits = [] ∧ .enqueued 2 ∈ s.history := by
  let E := anyJoinEngine true
  let R := E.reactor 9 ∅
  have hReplay : (replay R.step (KeepsQuotas R)
      [.pop .accepted, .pop .accepted, .finish 0 (.ok .null) 1, .visit] (R.initialState ∅)).map
        (fun s => (s.status, s.visits, R.completed s.results 2)) = some (.running, [], 1) := by
    decide
  obtain ⟨s, hs, hEnd⟩ := Option.map_eq_some_iff.1 hReplay
  simp only [Prod.mk.injEq] at hEnd
  obtain ⟨hRunning, hSettled, hCompleted⟩ := hEnd
  have hSeeds : SeedsBelowQuotas R ∅ := by
    refine ⟨fun n _ hSeed => absurd hSeed (AList.notMem_empty _), fun n hn _ => ?_⟩
    revert n
    decide
  refine ⟨s, hSettled, fanIn_enqueued_at_quota E (by decide) 9 ∅ hSeeds s
    ⟨anyJoinEngine_acyclic true, replay_run hs⟩ hRunning hSettled 2 (by decide)
      (AList.notMem_empty _) 1 (by decide) ?_⟩
  exact hCompleted.ge

def continuedJoinEngine : ParallelWorkflowEngine (bareHost true) :=
  { anyJoinEngine true with
    nodeConfigs := nodeTable [(1, .object [("__continue_on_error", .bool true)])] }

theorem continued_parent_misses_quota :
    ¬ ∀ (H : Host) (E : ParallelWorkflowEngine H), E.graph.nodes.Nodup →
      ∀ (executionId : Uuid) (s : State), E.FreshRun executionId (fun _ _ _ => True) s →
        s.status = .running → s.visits = [] → (E.reactor executionId ∅).ReleasesQuotas ∅ s := by
  intro hAll
  let R := continuedJoinEngine.reactor 9 ∅
  have hReplay : (replay R.step (fun _ _ => True)
      [.pop .accepted, .pop .accepted, .finish 0 (.error "timeout") 1, .visit]
        (R.initialState ∅)).map (fun s => (s.status, s.visits, R.completed s.results 2,
          decide (.enqueued 2 ∈ s.history))) = some (.running, [], 1, false) := by
    decide
  obtain ⟨s, hs, hEnd⟩ := Option.map_eq_some_iff.1 hReplay
  simp only [Prod.mk.injEq, decide_eq_false_iff_not] at hEnd
  obtain ⟨hRunning, hSettled, hCompleted, hWaits⟩ := hEnd
  have hReleases := hAll _ continuedJoinEngine (by decide) 9 s
    ⟨anyJoinEngine_acyclic true, replay_run hs⟩ hRunning hSettled
  exact hWaits (hReleases 2 (by decide) (AList.notMem_empty _) 1 (by decide) hCompleted.ge)

end Samples

end TalosWorkflow
