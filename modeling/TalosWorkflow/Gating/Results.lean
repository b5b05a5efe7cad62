import TalosWorkflow.Gating.Departures

/-!
# Recorded results

The node whose result a step records.
-/

namespace TalosWorkflow

open Multigraph

variable {H : Host}

section Definitions

variable (R : Reactor H)

def Visit.skips (s : State) (visit : Visit) : Prop :=
  R.marks visit = true ∨
    match visit.mode with
    | .succeeds output =>
        R.edgeConditionFailed visit.source visit.target output = true ∧ R.fillsNow s visit.target
    | _ => False

def Completion.output : Completion → Option Json
  | .succeeds output => some output
  | _ => none

theorem Visit.skips_iff (s : State) (visit : Visit) :
    (R.marks visit = true ∨ ∃ output ∈ visit.mode.output,
      R.edgeConditionFailed visit.source visit.target output = true ∧ R.fillsNow s visit.target) ↔
      visit.skips R s := by
  rw [Visit.skips]
  cases visit.mode with
  | succeeds output => simp [Completion.output]
  | _ => simp [Completion.output]

instance (s : State) (visit : Visit) : Decidable (visit.skips R s) :=
  decidable_of_iff _ (Visit.skips_iff R s visit)

def Flight.last : Flight → NodeIndex
  | .single idx _ => idx
  | .chain members _ => members.getLastD 0

/-- The node that is completed by the step, unless the step launches it. -/
def Reactor.recording (s : State) : Action → List NodeIndex
  | .visit => []
  | .store => s.batch.head?.toList.map (·.1)
  | .pop _ => s.ready.head?.toList.filter fun idx => R.chainOf idx = none
  | .finish position _ _ => (s.executing[position]?).toList.map Flight.last

/-- What a step records is the first result of its node; only the mark of a skipped node that has
not been started may be written twice. -/
def RecordsOnce (s : State) (action : Action) : Prop :=
  (∀ n ∈ R.recording s action, s.results.lookup (R.nodeId n) = none) ∧
    (action matches .visit → ∀ visit ∈ s.visits.head?, visit.skips R s →
      visit.target ∉ startedNodes s.history ∧
        ∀ old ∈ s.results.lookup (R.nodeId visit.target), old = skippedMark)

instance : ∀ s action, Decidable (RecordsOnce R s action) := by
  intro s action
  unfold RecordsOnce
  infer_instance

end Definitions

section Steps

variable {R : Reactor H} {s t base : State} {action : Action}

theorem Lands.eq_last {result : Except String Json} {ran : Nat} {flight : Flight} {idx : NodeIndex}
    {nodes : List NodeIndex} (h : Lands result ran flight idx nodes) : idx = flight.last := by
  cases h with
  | single parents => rfl
  | chain members parents _ hTail =>
      rw [Flight.last, List.getLastD_eq_getLast?, hTail]
      rfl

theorem Concluding.recording {start idx : NodeIndex} {events : List Event} {mode : Completion}
    {value : Json} (h : Concluding R s action start idx base events mode value) :
    idx ∈ R.recording s action := by
  cases h with
  | stored _ _ rest _ hBatch => simp [Reactor.recording, hBatch]
  | popped _ rest answer _ _ _ _ _ hReady hPlain => simp [Reactor.recording, hReady, hPlain]
  | returned position result ran flight _ nodes _ _ _ _ _ hFlight hLands =>
      simp [Reactor.recording, hFlight, hLands.eq_last]

theorem visited_results_or_skips {visit : Visit} {rest : List Visit}
    (h : Reactor.Visited R { s with visits := rest } visit t) :
    t.results = s.results ∨
      visit.skips R s ∧ t.results = s.results.insert (R.nodeId visit.target) skippedMark := by
  cases h with
  | marked hMarks => exact .inr ⟨.inl hMarks, rfl⟩
  | counted => exact .inl rfl
  | enqueued => exact .inl rfl
  | cascaded events output hMarks hFills hMode hFails =>
      rw [Reactor.cascadeSkip_eq]
      refine .inr ⟨.inr ?_, rfl⟩
      rw [hMode]
      exact ⟨hFails, hFills.fillsNow⟩
  | wrapped => exact .inl rfl

/-- A step writes the mark of a skipped target, the result of the node it completes, or nothing. -/
theorem step_results (hOrderly : Orderly R s) (hStep : R.step s action = some t) :
    t.results = s.results ∨
      (action = .visit ∧ ∃ visit, s.visits.head? = some visit ∧ visit.skips R s ∧
        t.results = s.results.insert (R.nodeId visit.target) skippedMark) ∨
      ∃ n ∈ R.recording s action, ∃ value, t.results = s.results.insert (R.nodeId n) value := by
  obtain ⟨-, hStepped | ⟨e, -, rfl⟩⟩ := Reactor.step_cases hStep
  · cases hOrderly.moved hStepped with
    | visited visit rest _ hVisits hVisit =>
        obtain hSame | ⟨hSkips, hResults⟩ := visited_results_or_skips hVisit
        · exact .inl hSame
        · exact .inr (.inl ⟨rfl, visit, by rw [hVisits]; rfl, hSkips, hResults⟩)
    | concluded _ start idx base events mode value hConcluding =>
        refine .inr (.inr ⟨idx, hConcluding.recording, value, ?_⟩)
        rw [Reactor.conclude_results, hConcluding.shifted.results]
    | relocated _ _ events hRelocating => exact .inl hRelocating.shifted.results
    | paused idx rest answer waiting _ _ hReady hPlain =>
        exact .inr (.inr ⟨idx, by simp [Reactor.recording, hReady, hPlain], waiting, rfl⟩)
  · cases e with
    | failed message => exact .inl rfl
    | counterUnderflow idx => exact .inl rfl
    | charBoundary => exact .inl rfl

theorem RecordsOnce.lookup (hOrderly : Orderly R s) (hOnce : RecordsOnce R s action)
    (hStep : R.step s action = some t) {id : Uuid} {value : Json}
    (h : s.results.lookup id = some value) : t.results.lookup id = some value := by
  obtain hSame | ⟨rfl, visit, hHead, hSkips, hResults⟩ | ⟨n, hRecords, new, hResults⟩ :=
    step_results hOrderly hStep
  · rw [hSame]
    exact h
  · rw [hResults]
    by_cases hId : id = R.nodeId visit.target
    · subst hId
      rw [AList.lookup_insert, (hOnce.2 rfl visit hHead hSkips).2 value h]
    · rw [AList.lookup_insert_ne hId]
      exact h
  · have hne : id ≠ R.nodeId n := by
      rintro rfl
      rw [hOnce.1 n hRecords] at h
      cases h
    rw [hResults, AList.lookup_insert_ne hne]
    exact h

end Steps

end TalosWorkflow
