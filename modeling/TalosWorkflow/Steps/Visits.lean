import TalosWorkflow.SchedulerLoop

/-!
# Visits to successors

What a visit does to the counter of its target, and when it can fail.
-/

namespace TalosWorkflow

open Multigraph

namespace State

theorem setPending_setPending (s : State) (idx : NodeIndex) (m n : Nat) :
    (s.setPending idx m).setPending idx n = s.setPending idx n := by
  simp [setPending]

theorem setPending_self (s : State) (idx : NodeIndex) : s.setPending idx (s.pending idx) = s := by
  simp [setPending]

@[simp]
theorem setPending_pending_self (s : State) (idx : NodeIndex) (n : Nat) :
    (s.setPending idx n).pending idx = n := by
  simp

theorem setPending_pending_ne (s : State) {idx other : NodeIndex} (n : Nat) (h : other ≠ idx) :
    (s.setPending idx n).pending other = s.pending other := by
  simp [h]

theorem setPending_pending_le {s : State} {idx : NodeIndex} {k : Nat} (h : k ≤ s.pending idx)
    (n : NodeIndex) : (s.setPending idx k).pending n ≤ s.pending n := by
  by_cases hn : n = idx
  · rw [hn, setPending_pending_self]
    exact h
  · rw [setPending_pending_ne _ _ hn]

end State

namespace Reactor

variable {H : Host} (R : Reactor H)

section Kinds

/-- The edges of this visit are not counted; its target is recorded as skipped. -/
def marks (visit : Visit) : Bool :=
  match visit.mode with
  | .unblocks => false
  | .succeeds _ => R.hasErrorEdge visit.source visit.target
  | .routes => !R.hasErrorEdge visit.source visit.target

def isFanIn (idx : NodeIndex) : Bool :=
  match R.kindOf (R.nodeId idx) with
  | some (.fanIn ..) => true
  | _ => false

variable {R} in
theorem isFanIn_iff {idx : NodeIndex} :
    R.isFanIn idx = true ↔ ∃ mode expr, R.kindOf (R.nodeId idx) = some (.fanIn mode expr) := by
  unfold isFanIn
  split
  · rename_i mode expr hKind
    exact ⟨fun _ => ⟨mode, expr, hKind⟩, fun _ => rfl⟩
  · rename_i hNot
    refine ⟨(fun hTrue => by cases hTrue), ?_⟩
    rintro ⟨mode, expr, hKind⟩
    exact absurd hKind (hNot mode expr)

/-- A fan-in that may be released while edges are still to be counted into it. -/
def joinsEarly (idx : NodeIndex) : Bool :=
  match R.kindOf (R.nodeId idx) with
  | some (.fanIn .all _) => false
  | some (.fanIn ..) => true
  | _ => false

/-- The join mode of a fan-in is satisfied with its counter at `count`. -/
def quotaMet (idx : NodeIndex) (count : Nat) : Bool :=
  match R.kindOf (R.nodeId idx), R.completedParents idx count with
  | some (.fanIn mode _), .ok completed => joinSatisfied mode (R.graph.inDegree idx) completed
  | _, _ => false

variable {R} {idx : NodeIndex}

theorem joinsEarly_of_quotaMet {count : Nat} (h : R.quotaMet idx count = true) :
    R.joinsEarly idx = true := by
  unfold quotaMet at h
  split at h
  · rename_i mode expr completed hKind hCompleted
    unfold joinsEarly
    rw [hKind]
    cases mode with
    | all => cases h
    | _ => rfl
  · cases h

theorem isFanIn_of_joinsEarly (h : R.joinsEarly idx = true) : R.isFanIn idx = true := by
  unfold joinsEarly at h
  split at h
  · cases h
  · rename_i mode expr _ hKind
    exact isFanIn_iff.2 ⟨mode, expr, hKind⟩
  · cases h

end Kinds

section Visits

variable {R} {s t : State} {visit : Visit}

theorem countDown_eq (s : State) (idx : NodeIndex) :
    countDown s idx = s.setPending idx (s.pending idx - 1) := by
  unfold countDown
  split
  · rfl
  · rename_i h
    rw [show s.pending idx - 1 = s.pending idx by omega, s.setPending_self]

theorem foldl_countDown (l : List NodeIndex) (s : State) :
    l.foldl countDown s = { s with pending := fun n => s.pending n - l.count n } := by
  induction l generalizing s with
  | nil => simp
  | cons a l ih =>
      rw [List.foldl_cons, ih, countDown_eq]
      simp only [State.setPending, State.mk.injEq, true_and, and_true]
      funext n
      rw [List.count_cons, Function.update_apply]
      by_cases hn : n = a
      · subst hn
        simp only [if_true, beq_self_eq_true]
        omega
      · simp [hn, Ne.symm hn]

theorem cascadeSkip_eq (s : State) (child : NodeIndex) :
    R.cascadeSkip (s.setPending child 0) child =
      { s with
        results := s.results.insert (R.nodeId child) skippedMark
        pending := fun n =>
          Function.update s.pending child 0 n - (R.graph.successors child).count n } := by
  rw [Reactor.cascadeSkip, foldl_countDown]
  rfl

theorem cascadeSkip_pending_le (s : State) (child n : NodeIndex) :
    (R.cascadeSkip (s.setPending child 0) child).pending n ≤ s.pending n := by
  rw [cascadeSkip_eq]
  exact (Nat.sub_le _ _).trans (State.setPending_pending_le (Nat.zero_le _) n)

theorem decrement_ok {idx : NodeIndex} (h : decrement (H := H) s idx = .ok t) :
    0 < s.pending idx ∧ t = s.setPending idx (s.pending idx - 1) ∨
      s.pending idx = 0 ∧ H.overflowChecks = false ∧
        t = (s.log (.underflow idx)).setPending idx usizeMax := by
  unfold decrement at h
  split at h
  · rename_i hPos
    cases h
    exact .inl ⟨hPos, rfl⟩
  · rename_i hZero
    split at h
    · cases h
    · rename_i hChecks
      cases h
      exact .inr ⟨by omega, by simpa using hChecks, rfl⟩

theorem applyFanInEarlyReady_ok {child : NodeIndex}
    (h : R.applyFanInEarlyReady s child = .ok t) :
    (0 < s.pending child ∧ R.quotaMet child (s.pending child) = true ∧ t = s.setPending child 0) ∨
      ((0 < s.pending child → R.quotaMet child (s.pending child) = false) ∧ t = s) := by
  unfold applyFanInEarlyReady at h
  split at h
  · rename_i mode expr hKind
    cases hDone : R.completedParents child (s.pending child) with
    | error e =>
        rw [hDone] at h
        cases h
    | ok completed =>
        have hQuota : R.quotaMet child (s.pending child) =
            joinSatisfied mode (R.graph.inDegree child) completed := by
          rw [quotaMet, hKind, hDone]
        rw [hDone] at h
        simp only [bind, Except.bind, Bool.and_eq_true, decide_eq_true_eq] at h
        split at h
        · rename_i hReady
          cases h
          exact .inl ⟨hReady.2, hQuota.trans hReady.1, rfl⟩
        · rename_i hWaits
          cases h
          refine .inr ⟨fun hPos => ?_, rfl⟩
          rw [hQuota, ← Bool.not_eq_true]
          exact fun hJoin => hWaits ⟨hJoin, hPos⟩
  · rename_i hOther
    cases h
    refine .inr ⟨fun _ => ?_, rfl⟩
    unfold quotaMet
    split
    · exact absurd ‹_› (hOther _ _)
    · rfl

theorem applyFanInEarlyReady_ne_error {child : NodeIndex} {e : Halt}
    (h : s.pending child ≤ R.graph.inDegree child) :
    R.applyFanInEarlyReady s child ≠ .error e := by
  unfold applyFanInEarlyReady
  split
  · rw [completedParents, if_pos h]
    simp only [bind, Except.bind]
    split <;> exact fun h => by cases h
  · exact fun h => by cases h

/-- How counting an edge brings the counter of its target to zero, and the events it leaves. -/
inductive Fills (R : Reactor H) (s : State) (idx : NodeIndex) : List Event → Prop
  | filled (hReady : s.pending idx ≤ 1 ∨ R.quotaMet idx (s.pending idx - 1) = true) : Fills R s idx []
  | wrapped (hChecks : H.overflowChecks = false) (hZero : s.pending idx = 0)
      (hQuota : R.quotaMet idx usizeMax = true) : Fills R s idx [.underflow idx]

inductive Visited (R : Reactor H) (s : State) (visit : Visit) : State → Prop
  | marked (hMarks : R.marks visit = true) : Visited R s visit (R.markSkipped s visit.target)
  | counted (hMarks : R.marks visit = false) (hPending : 1 < s.pending visit.target) :
      Visited R s visit (s.setPending visit.target (s.pending visit.target - 1))
  | enqueued (events : List Event) (hMarks : R.marks visit = false)
      (hFills : Fills R s visit.target events)
      (hPasses : ∀ output, visit.mode = .succeeds output →
        R.edgeConditionFailed visit.source visit.target output = false) :
      Visited R s visit
        ((State.setPending { s with history := events ++ s.history } visit.target 0).enqueue
          visit.target)
  | cascaded (events : List Event) (output : Json) (hMarks : R.marks visit = false)
      (hFills : Fills R s visit.target events) (hMode : visit.mode = .succeeds output)
      (hFails : R.edgeConditionFailed visit.source visit.target output = true) :
      Visited R s visit
        (R.cascadeSkip (State.setPending { s with history := events ++ s.history } visit.target 0)
          visit.target)
  | wrapped (output : Json) (hMarks : R.marks visit = false) (hChecks : H.overflowChecks = false)
      (hMode : visit.mode = .succeeds output) (hZero : s.pending visit.target = 0)
      (hQuota : R.quotaMet visit.target usizeMax = false) :
      Visited R s visit ((s.log (.underflow visit.target)).setPending visit.target usizeMax)

theorem visitUnblocked_visited {child : NodeIndex} {source : NodeIndex} :
    Visited R s ⟨.unblocks, source, child⟩ (visitUnblocked s child) := by
  have hMarks : R.marks ⟨.unblocks, source, child⟩ = false := rfl
  simp only [visitUnblocked, countDown_eq, State.setPending_pending_self]
  split
  · rename_i hZero
    rw [hZero]
    refine .enqueued [] hMarks (.filled (.inl ?_)) (fun _ h => by cases h)
    simp only
    omega
  · rename_i hPos
    exact .counted hMarks (by simp only; omega)

/-- Counting an edge and applying the join mode fills the counter or leaves it above zero. -/
theorem pending_after_early {child : NodeIndex} {u : State}
    (h : R.applyFanInEarlyReady (s.setPending child (s.pending child - 1)) child = .ok u) :
    (u = s.setPending child 0 ∧ Fills R s child []) ∨
      (u = s.setPending child (s.pending child - 1) ∧ 1 < s.pending child) := by
  rcases applyFanInEarlyReady_ok h with ⟨-, hQuota, rfl⟩ | ⟨-, rfl⟩
  · rw [State.setPending_pending_self] at hQuota
    exact .inl ⟨s.setPending_setPending child _ 0, .filled (.inr hQuota)⟩
  · by_cases hPending : 1 < s.pending child
    · exact .inr ⟨rfl, hPending⟩
    · rw [show s.pending child - 1 = 0 by omega]
      exact .inl ⟨rfl, .filled (.inl (by omega))⟩

theorem visitSucceeded_ok {source child : NodeIndex} {output : Json}
    (h : R.visitSucceeded source output s child = .ok t) :
    Visited R s ⟨.succeeds output, source, child⟩ t := by
  unfold visitSucceeded at h
  split at h
  · rename_i hError
    cases h
    exact .marked hError
  · rename_i hError
    have hMarks : R.marks ⟨.succeeds output, source, child⟩ = false := by
      simpa [marks] using hError
    have hZeroed : ∀ events : List Event, Fills R s child events →
        let base := State.setPending { s with history := events ++ s.history } child 0
        (if base.pending child = 0 then
            if R.edgeConditionFailed source child output = true then
              Except.ok (R.cascadeSkip base child)
            else .ok (base.enqueue child)
          else .ok base) = Except.ok (ε := Halt) t →
        Visited R s ⟨.succeeds output, source, child⟩ t := by
      intro events hFills base h
      rw [if_pos (State.setPending_pending_self _ child 0)] at h
      split at h
      · rename_i hFails
        cases h
        exact .cascaded events output hMarks hFills rfl hFails
      · rename_i hPasses
        cases h
        refine .enqueued events hMarks hFills fun output' hMode => ?_
        cases hMode
        simpa using hPasses
    cases hCount : decrement (H := H) s child with
    | error e =>
        rw [hCount] at h
        cases h
    | ok mid =>
        rw [hCount] at h
        simp only [bind, Except.bind] at h
        split at h
        · cases h
        · rename_i u hEarly
          rcases decrement_ok hCount with ⟨-, rfl⟩ | ⟨hZero, hChecks, rfl⟩
          · rcases pending_after_early hEarly with ⟨rfl, hReady⟩ | ⟨rfl, hPending⟩
            · exact hZeroed [] hReady h
            · rw [State.setPending_pending_self, if_neg (by omega)] at h
              cases h
              exact .counted hMarks hPending
          · have hPos : 0 < usizeMax := by decide
            rcases applyFanInEarlyReady_ok hEarly with ⟨-, hQuota, rfl⟩ | ⟨hQuota, rfl⟩
            · rw [State.setPending_pending_self] at hQuota
              rw [State.setPending_setPending] at h
              exact hZeroed _ (.wrapped hChecks hZero hQuota) h
            · rw [State.setPending_pending_self] at hQuota h
              rw [if_neg hPos.ne'] at h
              cases h
              exact .wrapped output hMarks hChecks rfl hZero (hQuota hPos)

theorem visitRouted_ok {source child : NodeIndex} (h : R.visitRouted source s child = .ok t) :
    Visited R s ⟨.routes, source, child⟩ t := by
  unfold visitRouted at h
  split at h
  · rename_i hError
    cases h
    exact .marked hError
  · rename_i hError
    have hMarks : R.marks ⟨.routes, source, child⟩ = false := by
      simpa [marks] using hError
    rw [countDown_eq] at h
    simp only [bind, Except.bind] at h
    split at h
    · cases h
    · rename_i u hEarly
      rcases pending_after_early hEarly with ⟨rfl, hReady⟩ | ⟨rfl, hPending⟩
      · rw [if_pos (State.setPending_pending_self s child 0)] at h
        cases h
        exact .enqueued [] hMarks hReady (fun _ h => by cases h)
      · rw [State.setPending_pending_self, if_neg (by omega)] at h
        cases h
        exact .counted hMarks hPending

theorem makeVisit_ok (h : R.makeVisit s visit = .ok t) : Visited R s visit t := by
  obtain ⟨mode, source, target⟩ := visit
  cases mode with
  | unblocks =>
      cases h
      exact visitUnblocked_visited
  | succeeds output => exact visitSucceeded_ok h
  | routes => exact visitRouted_ok h

theorem early_ne_error {child : NodeIndex} (hBound : s.pending child ≤ R.graph.inDegree child)
    (e : Halt) :
    R.applyFanInEarlyReady (s.setPending child (s.pending child - 1)) child ≠ .error e := by
  refine applyFanInEarlyReady_ne_error ?_
  rw [State.setPending_pending_self]
  exact (Nat.sub_le _ _).trans hBound

theorem visitRouted_ne_error {source child : NodeIndex}
    (hBound : s.pending child ≤ R.graph.inDegree child) (e : Halt) :
    R.visitRouted source s child ≠ .error e := by
  intro h
  simp only [visitRouted, countDown_eq] at h
  split at h
  · cases h
  · simp only [bind, Except.bind] at h
    split at h
    · rename_i hFails
      exact early_ne_error hBound _ hFails
    · split at h <;> cases h

/-- A visit fails only at a counter that is zero or above the in-degree. -/
theorem makeVisit_ne_error {e : Halt} (hPending : R.marks visit = false → 0 < s.pending visit.target)
    (hBound : s.pending visit.target ≤ R.graph.inDegree visit.target) :
    R.makeVisit s visit ≠ .error e := by
  obtain ⟨mode, source, target⟩ := visit
  cases mode with
  | unblocks => exact fun h => by cases h
  | succeeds output =>
      intro h
      simp only [makeVisit, visitSucceeded] at h
      split at h
      · cases h
      · rename_i hError
        rw [decrement, if_pos (hPending (by simpa [marks] using hError))] at h
        simp only [bind, Except.bind] at h
        split at h
        · rename_i hFails
          exact early_ne_error hBound _ hFails
        · split at h
          · split at h <;> cases h
          · cases h
  | routes => exact visitRouted_ne_error hBound e

end Visits

end Reactor

end TalosWorkflow
