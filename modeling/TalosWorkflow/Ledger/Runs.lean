import TalosWorkflow.Ledger.Moves

/-!
# A step keeps the ledger
-/

namespace TalosWorkflow

open Multigraph

variable {H : Host} {R : Reactor H} {s t : State}

/-- No node is enqueued, released, aggregated or dispatched twice, and no counter underflows. -/
structure Once (s : State) : Prop where
  enqueued : (enqueuedNodes s.history).Nodup
  released : (releasedNodes s.history).Nodup
  aggregated : (aggregatedNodes s.history).Nodup
  dispatched : (dispatchedNodes s.history).Nodup
  underflow : ∀ n, .underflow n ∉ s.history

theorem Ledger.once {concluded cascaded : List NodeIndex} (h : Ledger R s concluded cascaded) :
    Once s where
  enqueued := h.enqueuedOnce
  released := h.releasedOnce
  aggregated := h.dispatchedOnce.sublist h.aggregatedDispatched
  dispatched := h.dispatchedOnce
  underflow := h.noUnderflow

/-- No edge is counted into an early fan-in whose counter is already at zero. -/
def CountsLiveFanIns (R : Reactor H) (s : State) (action : Action) : Prop :=
  match action, s.visits with
  | .visit, visit :: _ =>
      R.marks visit = false → R.joinsEarly visit.target = true → 0 < s.pending visit.target
  | _, _ => True

instance : ∀ s action, Decidable (CountsLiveFanIns R s action) := by
  intro s action
  unfold CountsLiveFanIns
  split <;> infer_instance

/-- What a step of a kept ledger leaves behind. -/
structure Kept (R : Reactor H) (s t : State) : Prop where
  ledger : t.status = .running → Orderly R t ∧ ∃ concluded cascaded, Ledger R t concluded cascaded
  once : Once t
  fromReady : ∀ n ∈ dispatchedNodes t.history, n ∈ dispatchedNodes s.history ∨ n ∈ s.ready

theorem Shifted.fromReady {base : State} {done : List NodeIndex} {events : List Event}
    (h : Shifted s base done events) : ∀ n ∈ dispatchedNodes base.history,
      n ∈ dispatchedNodes s.history ∨ n ∈ s.ready := by
  intro n hn
  rw [h.history, dispatchedNodes_append] at hn
  rcases List.mem_append.1 hn with hn | hn
  · exact .inr (h.ready.subset (List.mem_append_left _ hn))
  · exact .inl hn

theorem visited_dispatched {visit : Visit} {rest : List Visit}
    (hVisit : Reactor.Visited R { s with visits := rest } visit t) :
    dispatchedNodes t.history = dispatchedNodes s.history := by
  have hEvents : ∀ events, Reactor.Fills R { s with visits := rest } visit.target events →
      dispatchedNodes (events ++ s.history) = dispatchedNodes s.history := by
    intro events hFills
    cases hFills with
    | filled => rfl
    | wrapped => rfl
  cases hVisit with
  | marked => rfl
  | counted => rfl
  | enqueued events _ hFills => exact hEvents events hFills
  | cascaded events _ _ hFills =>
      rw [Reactor.cascadeSkip_eq]
      exact hEvents events hFills
  | wrapped => rfl

namespace Ledger

variable {concluded cascaded : List NodeIndex}

theorem paused (h : Ledger R s concluded cascaded) {idx : NodeIndex} {rest : List NodeIndex}
    (hReady : s.ready = idx :: rest) (waiting : Json) :
    Kept R s (R.pauseAt { s with ready := rest } idx waiting) := by
  have hIdx : idx ∈ s.ready := hReady ▸ List.mem_cons_self
  have hHistory : dispatchedNodes (R.pauseAt { s with ready := rest } idx waiting).history =
      idx :: dispatchedNodes s.history := rfl
  constructor
  · intro hRunning
    cases hRunning
  · constructor
    · exact h.enqueuedOnce
    · exact h.releasedOnce
    · exact h.once.aggregated
    · rw [hHistory]
      exact List.nodup_cons.2 ⟨fun hn => (h.dispatchedEnqueued idx hn).2 hIdx, h.dispatchedOnce⟩
    · intro n hn
      have hOld : .underflow n ∈ s.history := by
        simpa [Reactor.pauseAt, Reactor.handled] using hn
      exact h.noUnderflow n hOld
  · intro n hn
    rw [hHistory] at hn
    rcases List.mem_cons.1 hn with rfl | hn
    · exact .inr hIdx
    · exact .inl hn

theorem halted (h : Ledger R s concluded cascaded) {e : Halt}
    (hHalt : e = .charBoundary ∨ ∃ message, e = .failed message) : Kept R s (s.halt e) := by
  rcases hHalt with rfl | ⟨message, rfl⟩
  · exact ⟨(fun hRunning => by cases hRunning), ⟨h.enqueuedOnce, h.releasedOnce,
      h.once.aggregated, h.dispatchedOnce, h.noUnderflow⟩, fun n hn => .inl hn⟩
  · exact ⟨(fun hRunning => by cases hRunning), ⟨h.enqueuedOnce, h.releasedOnce,
      h.once.aggregated, h.dispatchedOnce, h.noUnderflow⟩, fun n hn => .inl hn⟩

/-- Only a visit to a counter at zero could take a step out of the ledger. -/
theorem step (hAcyclic : R.graph.Acyclic) (hChains : R.ChainsDetected) (hOrderly : Orderly R s)
    (h : Ledger R s concluded cascaded) {action : Action} (hLive : CountsLiveFanIns R s action)
    (hStep : R.step s action = some t) : Kept R s t := by
  obtain ⟨-, hStepped | ⟨e, hBody, rfl⟩⟩ := Reactor.step_cases hStep
  · have hMoved := hOrderly.moved hStepped
    have hOrder := hOrderly.step hAcyclic hChains hMoved
    cases hMoved with
    | visited visit rest _ hVisits hVisit =>
        have hPos : R.marks visit = false → 0 < s.pending visit.target := by
          simp only [CountsLiveFanIns, hVisits] at hLive
          exact fun hMarks => h.pending_pos hVisits (hLive hMarks)
        have hLeader := (hOrderly.targets visit (hVisits ▸ List.mem_cons_self)).1
        obtain ⟨cascaded', hLedger⟩ := h.visited hAcyclic hVisits hLeader hPos hVisit
        refine ⟨fun hRunning => ⟨hOrder hRunning, concluded, cascaded', hLedger⟩, hLedger.once, ?_⟩
        rw [visited_dispatched hVisit]
        exact fun n hn => .inl hn
    | concluded _ start idx base events mode value hConcluding =>
        have hLedger := h.conclude hAcyclic hChains hOrderly hConcluding
        refine ⟨fun hRunning => ⟨hOrder hRunning, _, _, hLedger⟩, hLedger.once, ?_⟩
        rw [Reactor.conclude_history]
        exact hConcluding.shifted.fromReady
    | relocated _ _ events hRelocating =>
        have hLedger := h.relocate hRelocating
        exact ⟨fun hRunning => ⟨hOrder hRunning, _, _, hLedger⟩, hLedger.once,
          hRelocating.shifted.fromReady⟩
    | paused idx rest answer waiting _ _ hReady => exact h.paused hReady waiting
  · refine h.halted ?_
    rcases Reactor.body_error hBody with hHalt | ⟨visit, rest, hVisits, hVisit⟩
    · exact hHalt
    · refine absurd hVisit (Reactor.makeVisit_ne_error (fun hMarks => ?_) (h.bounded _))
      cases action with
      | visit =>
          simp only [CountsLiveFanIns, hVisits] at hLive
          exact h.pending_pos hVisits (hLive hMarks)
      | _ => simp [Reactor.body, hVisits] at hBody

theorem initial (hChains : R.ChainsDetected) : Ledger R (R.initialState ∅) [] [] := by
  have hEnqueued : ∀ n, .enqueued n ∈ (R.initialState ∅).history → R.graph.inDegree n = 0 := by
    intro n hn
    exact (mem_initialReady.1 (enqueued_initialState.1 hn)).2.1
  have hReleased : releasedNodes (R.initialState ∅).history = [] := by
    simp [Reactor.initialState, releasedNodes, List.filterMap_map]
  exact
    { Chronicle.initial ∅ with
      counted := fun n => .inr (openEdges_nil R n).le
      bounded := fun n => le_refl _
      settled := fun n hn => hn.elim (hEnqueued n) fun hn => absurd hn List.not_mem_nil
      cascadedFresh := fun n hn => absurd hn List.not_mem_nil
      leaders := fun n hn => by
        rintro ⟨a, hConsecutive⟩
        have hOne := (hConsecutive.linked hChains).2.2
        rcases hn with hn | hn
        · rw [hEnqueued n hn] at hOne
          cases hOne
        · cases hn
      recorded := fun n hn => by simp at hn
      releasedOnce := hReleased ▸ List.nodup_nil
      releasedResolved := by
        rw [hReleased]
        exact List.nil_subset _ }

end Ledger

end TalosWorkflow
