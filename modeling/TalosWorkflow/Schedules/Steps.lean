import TalosWorkflow.Schedules.Books

/-!
# Steps keep the books
-/

namespace TalosWorkflow

open Multigraph

variable {H : Host}

@[simps]
def Reactor.booksOf (R : Reactor H) (given cascaded : List NodeIndex) (s : State) : Books where
  pending := s.pending
  visits := s.visits
  entered n := n ∈ s.work ∨ n ∈ completedNodes given s
  completed := completedNodes given s
  cascaded := cascaded
  known := R.known s.results

/-- The books of a state are balanced, and its queues hold what the outcomes give. -/
structure Booked (R : Reactor H) (O : Outcomes) (hAcyclic : R.graph.Acyclic)
    (given : List NodeIndex) (s : State) (cascaded : List NodeIndex) : Prop where
  books : (R.booksOf given cascaded s).Balanced R O hAcyclic
  work : s.work.Nodup
  fresh : ∀ n ∈ s.work, n ∉ completedNodes given s
  flights : ∀ flight ∈ s.executing, ∃ idx,
    flight = .single idx (R.parents (R.known s.results) idx) ∧ R.runsModule idx = true ∧
      O.skip idx (R.gathered (R.known s.results) idx) = none
  batch : ∀ entry ∈ s.batch, R.verdict O (R.known s.results) entry.1 = some (.unblocks, entry.2) ∧
    O.skip entry.1 (R.gathered (R.known s.results) entry.1) = none
  executed : ∀ n, .executed n ∈ s.history ↔ .released n ∈ s.history ∧
    O.skip n (R.gathered (R.known s.results) n) = none

section Queues

variable {R : Reactor H} {O : Outcomes} {hAcyclic : R.graph.Acyclic}
  {given cascaded cascaded' : List NodeIndex} {s t base : State} {n idx : NodeIndex}

theorem mem_completedNodes : n ∈ completedNodes given s ↔ .released n ∈ s.history ∨ n ∈ given := by
  rw [completedNodes, List.mem_append, releasedNodes, List.mem_filterMap]
  refine or_congr_left ⟨?_, fun h => ⟨_, h, rfl⟩⟩
  rintro ⟨event, hEvent, hn⟩
  cases event with
  | released m =>
      obtain rfl := Option.some.inj hn
      exact hEvent
  | _ => cases hn

theorem mem_work_of_flight {flight : Flight} (h : flight ∈ s.executing) : flight.start ∈ s.work :=
  List.mem_append_right _ (List.mem_append_right _ (List.mem_map_of_mem h))

theorem mem_work_of_batch {entry : NodeIndex × Json} (h : entry ∈ s.batch) : entry.1 ∈ s.work :=
  List.mem_append_left _ (List.mem_map_of_mem h)

theorem mem_work_of_ready (h : n ∈ s.ready) : n ∈ s.work :=
  List.mem_append_right _ (List.mem_append_left _ h)

namespace Booked

theorem gathered_kept (h : Booked R O hAcyclic given s cascaded)
    (hExtended : (R.booksOf given cascaded s).Extended (R.booksOf given cascaded' t))
    (hn : n ∈ s.work ∨ n ∈ completedNodes given s) :
    R.gathered (R.known t.results) n = R.gathered (R.known s.results) n :=
  gathered_congr (h.books.parents_kept hExtended hn)

/-- What was in the queues stays as it was while the books are extended. -/
theorem keep (h : Booked R O hAcyclic given s cascaded)
    (hBooks : (R.booksOf given cascaded' t).Balanced R O hAcyclic)
    (hExtended : (R.booksOf given cascaded s).Extended (R.booksOf given cascaded' t))
    (hWork : t.work.Nodup) (hFresh : ∀ n ∈ t.work, n ∉ completedNodes given t)
    (hFlights : ∀ flight ∈ t.executing, flight ∈ s.executing ∨ ∃ idx ∈ s.work,
      flight = .single idx (R.parents (R.known s.results) idx) ∧ R.runsModule idx = true ∧
        O.skip idx (R.gathered (R.known s.results) idx) = none)
    (hBatch : ∀ entry ∈ t.batch, entry ∈ s.batch ∨ entry.1 ∈ s.work ∧
      R.verdict O (R.known s.results) entry.1 = some (.unblocks, entry.2) ∧
        O.skip entry.1 (R.gathered (R.known s.results) entry.1) = none)
    (hExecuted : ∀ n, .executed n ∈ t.history ↔ .executed n ∈ s.history ∨
      (n ∈ s.work ∧ .released n ∈ t.history ∧
        O.skip n (R.gathered (R.known s.results) n) = none))
    (hReleased : ∀ n, .released n ∈ t.history → .released n ∈ s.history ∨ n ∈ s.work)
    (hHistory : s.history ⊆ t.history) : Booked R O hAcyclic given t cascaded' where
  books := hBooks
  work := hWork
  fresh := hFresh
  flights flight hFlight := by
    obtain ⟨idx, hWork, rfl, hModule, hSkip⟩ : ∃ idx ∈ s.work,
        flight = .single idx (R.parents (R.known s.results) idx) ∧ R.runsModule idx = true ∧
          O.skip idx (R.gathered (R.known s.results) idx) = none := by
      obtain hOld | hNew := hFlights flight hFlight
      · obtain ⟨idx, rfl, hRest⟩ := h.flights flight hOld
        exact ⟨idx, mem_work_of_flight hOld, rfl, hRest⟩
      · exact hNew
    refine ⟨idx, ?_, hModule, ?_⟩
    · have hParents := parents_congr (h.books.parents_kept hExtended (.inl hWork))
      exact congrArg (Flight.single idx) hParents.symm
    · rw [h.gathered_kept hExtended (.inl hWork)]
      exact hSkip
  batch entry hEntry := by
    obtain ⟨hWork, hVerdict, hSkip⟩ : entry.1 ∈ s.work ∧
        R.verdict O (R.known s.results) entry.1 = some (.unblocks, entry.2) ∧
          O.skip entry.1 (R.gathered (R.known s.results) entry.1) = none := by
      obtain hOld | hNew := hBatch entry hEntry
      · exact ⟨mem_work_of_batch hOld, h.batch entry hOld⟩
      · exact hNew
    refine ⟨?_, ?_⟩
    · have hKept := h.books.verdict_kept hExtended (.inl hWork)
      exact hKept.trans hVerdict
    · rw [h.gathered_kept hExtended (.inl hWork)]
      exact hSkip
  executed n := by
    rw [hExecuted, h.executed]
    constructor
    · rintro (⟨hOld, hSkip⟩ | ⟨hWork, hNew, hSkip⟩)
      · rw [h.gathered_kept hExtended (.inr (mem_completedNodes.2 (.inl hOld)))]
        exact ⟨hHistory hOld, hSkip⟩
      · rw [h.gathered_kept hExtended (.inl hWork)]
        exact ⟨hNew, hSkip⟩
    · rintro ⟨hIn, hSkip⟩
      obtain hOld | hWork := hReleased n hIn
      · rw [h.gathered_kept hExtended (.inr (mem_completedNodes.2 (.inl hOld)))] at hSkip
        exact .inl ⟨hOld, hSkip⟩
      · rw [h.gathered_kept hExtended (.inl hWork)] at hSkip
        exact .inr ⟨hWork, hIn, hSkip⟩

end Booked

end Queues

section Moves

variable {R : Reactor H} {O : Outcomes} {hAcyclic : R.graph.Acyclic}
  {given cascaded cascaded' : List NodeIndex} {s t base : State} {idx : NodeIndex}
  {visit : Visit} {rest : List Visit} {action : Action} {events : List Event}

theorem quotaMet_eq_false (hJoins : R.joinsEarly idx = false) (count : Nat) :
    R.quotaMet idx count = false := by
  rw [Bool.eq_false_iff]
  intro hMet
  rw [Reactor.joinsEarly_of_quotaMet hMet] at hJoins
  cases hJoins

theorem fills_of_plain (hJoins : R.joinsEarly idx = false)
    (h : Reactor.Fills R s idx events) : events = [] ∧ s.pending idx ≤ 1 := by
  cases h with
  | filled hReady =>
      rw [quotaMet_eq_false hJoins, Bool.false_eq_true, or_false] at hReady
      exact ⟨rfl, hReady⟩
  | wrapped _ _ hQuota =>
      rw [quotaMet_eq_false hJoins] at hQuota
      cases hQuota

/-- The decision of a visit that fills the counter of its target is unanimous. -/
theorem decided_of_unanimous (hUnanimous : visit.unanimous R O given s)
    (hMarks : R.marks visit = false) (hFills : R.fillsNow s visit.target)
    (hSource : visit.source ∈ completedNodes given s)
    (hArc : R.graph.Arc visit.source visit.target) :
    (R.booksOf given cascaded s).Decided R O hAcyclic
      (R.admitsArc O (R.known s.results) visit.source visit.target) visit.target := by
  refine ⟨visit.source, hArc, hSource, rfl, fun q hq hBefore => ?_⟩
  obtain ⟨hCompleted, hSame⟩ := hUnanimous hMarks hFills q ((mem_predecessors _).2 hq)
    (Bool.eq_false_iff.2 hBefore)
  refine ⟨hCompleted, ?_⟩
  change R.admitsArc O (R.known s.results) q visit.target = true ↔
    R.admitsArc O (R.known s.results) visit.source visit.target = true
  rw [hSame]

theorem visited_events (given : List NodeIndex)
    (hVisit : Reactor.Visited R { s with visits := rest } visit t) :
    completedNodes given t = completedNodes given s ∧ s.history ⊆ t.history ∧
      (∀ n, .released n ∈ t.history ↔ .released n ∈ s.history) ∧
        ∀ n, .executed n ∈ t.history ↔ .executed n ∈ s.history := by
  obtain ⟨events, hHistory, hEvents⟩ := visited_history hVisit
  have hNone : releasedNodes events = [] := by
    rw [releasedNodes, List.filterMap_eq_nil_iff]
    intro event hEvent
    obtain rfl | rfl := hEvents event hEvent
    · rfl
    · rfl
  refine ⟨?_, ?_, fun n => ?_, fun n => ?_⟩
  · rw [completedNodes, hHistory, releasedNodes_append, hNone, List.nil_append]
    rfl
  · rw [hHistory]
    exact List.subset_append_right _ _
  · rw [hHistory, List.mem_append]
    refine or_iff_right fun hEvent => ?_
    obtain hOther | hOther := hEvents _ hEvent
    · cases hOther
    · cases hOther
  · rw [hHistory, List.mem_append]
    refine or_iff_right fun hEvent => ?_
    obtain hOther | hOther := hEvents _ hEvent
    · cases hOther
    · cases hOther

namespace Booked

theorem keep_visited (h : Booked R O hAcyclic given s cascaded)
    (hVisit : Reactor.Visited R { s with visits := rest } visit t)
    (hBooks : (R.booksOf given cascaded' t).Balanced R O hAcyclic)
    (hExtended : (R.booksOf given cascaded s).Extended (R.booksOf given cascaded' t))
    (hWork : t.work.Nodup) (hFresh : ∀ n ∈ t.work, n ∉ completedNodes given s) :
    Booked R O hAcyclic given t cascaded' := by
  obtain ⟨hCompleted, hHistory, hReleased, hExecuted⟩ := visited_events given hVisit
  obtain ⟨hExecuting, hBatch, -⟩ := visited_queues hVisit
  refine h.keep hBooks hExtended hWork (hCompleted ▸ hFresh) (fun flight hFlight => .inl ?_)
    (fun entry hEntry => .inl ?_) (fun n => ?_) (fun n hn => .inl ((hReleased n).1 hn)) hHistory
  · rw [hExecuting] at hFlight
    exact hFlight
  · rw [hBatch] at hEntry
    exact hEntry
  · rw [hExecuted]
    refine (or_iff_left_of_imp ?_).symm
    rintro ⟨hIn, hNew, -⟩
    exact absurd (mem_completedNodes.2 (.inl ((hReleased n).1 hNew))) (h.fresh n hIn)

theorem visited (hIds : R.graph.nodes.Nodup)
    (hJoins : ∀ n < R.graph.nodes.length, R.joinsEarly n = false)
    (h : Booked R O hAcyclic given s cascaded) (hUnanimous : visit.unanimous R O given s)
    (hVisits : s.visits = visit :: rest)
    (hVisit : Reactor.Visited R { s with visits := rest } visit t) :
    ∃ cascaded', Booked R O hAcyclic given t cascaded' := by
  have hIn : visit ∈ s.visits := hVisits ▸ List.mem_cons_self
  obtain ⟨hSource, hArc, value, hVerdict⟩ := h.books.visits visit hIn
  have hPos : 0 < s.pending visit.target := h.books.pending_pos hVisits
  have hInsert : R.known (s.results.insert (R.nodeId visit.target) skippedMark) = _ :=
    known_insert hIds hArc.target_lt skippedMark
  have hNew : visit.target ∉ s.work := fun hWork =>
    h.books.target_unresolved hVisits (.inl (.inl hWork)) rfl
  have hNotCompleted : visit.target ∉ completedNodes given s := fun hCompleted =>
    h.books.target_unresolved hVisits (.inl (.inr hCompleted)) rfl
  have hAdmits : R.admitsArc O (R.known s.results) visit.source visit.target =
      visit.mode.output.all fun output =>
        !R.edgeConditionFailed visit.source visit.target output := by
    rw [Reactor.admitsArc, show R.verdict O (R.known s.results) visit.source =
      some (visit.mode, value) from hVerdict]
    rfl
  have hDecided : R.marks visit = false → R.fillsNow s visit.target →
      (R.booksOf given cascaded s).Decided R O hAcyclic
        (R.admitsArc O (R.known s.results) visit.source visit.target) visit.target :=
    fun hMarks hFills => decided_of_unanimous hUnanimous hMarks hFills hSource hArc
  cases hVisit with
  | marked hMarks =>
      have hBooks : R.booksOf given cascaded
          (R.markSkipped { s with visits := rest } visit.target) =
            (R.booksOf given cascaded s).mark visit.target rest := by
        rw [Reactor.booksOf, Books.mark, Books.mk.injEq]
        exact ⟨rfl, rfl, rfl, rfl, rfl, hInsert⟩
      refine ⟨cascaded, h.keep_visited (.marked hMarks) ?_ ?_ h.work h.fresh⟩
      · rw [hBooks]
        exact h.books.mark hVisits hMarks
      · rw [hBooks]
        exact h.books.mark_extended hVisits
  | counted hMarks hPending =>
      refine ⟨cascaded, h.keep_visited (.counted hMarks hPending) ?_ ?_ h.work h.fresh⟩
      · exact h.books.count hVisits hMarks hPending
      · exact Books.count_extended _ visit.target rest
  | enqueued events hMarks hFills hPasses =>
      have hNow := hDecided hMarks hFills.fillsNow
      obtain ⟨rfl, hLast⟩ := fills_of_plain (hJoins _ hArc.target_lt) hFills
      have hAll : (visit.mode.output.all fun output =>
          !R.edgeConditionFailed visit.source visit.target output) = true := by
        cases hMode : visit.mode with
        | succeeds kept => rw [Completion.output, Option.all_some, hPasses kept hMode, Bool.not_false]
        | unblocks => rfl
        | routes => rfl
      rw [hAdmits, hAll] at hNow
      have hWork : (State.enqueue (State.setPending { s with visits := rest } visit.target 0)
          visit.target).work.Perm (visit.target :: s.work) := State.enqueue_work _ _
      have hBooks : R.booksOf given cascaded
          (State.enqueue (State.setPending { s with visits := rest } visit.target 0)
            visit.target) = (R.booksOf given cascaded s).enter visit.target rest := by
        rw [Reactor.booksOf, Books.enter, Books.mk.injEq]
        refine ⟨rfl, rfl, funext fun n => propext ?_, rfl, rfl, rfl⟩
        rw [hWork.mem_iff, List.mem_cons, Reactor.booksOf_entered, or_comm (a := n = _),
          or_right_comm]
        rfl
      refine ⟨cascaded, h.keep_visited (.enqueued [] hMarks hFills hPasses) ?_ ?_ ?_ ?_⟩
      · exact hBooks ▸ h.books.enter hVisits hMarks hLast hNow
      · exact hBooks ▸ Books.enter_extended _ visit.target rest
      · exact hWork.nodup_iff.2 (List.nodup_cons.2 ⟨hNew, h.work⟩)
      · intro n hn
        obtain rfl | hn := List.mem_cons.1 (hWork.mem_iff.1 hn)
        · exact hNotCompleted
        · exact h.fresh n hn
  | cascaded events output hMarks hFills hMode hFails =>
      have hNow := hDecided hMarks hFills.fillsNow
      rw [hAdmits, hMode, Completion.output, Option.all_some, hFails, Bool.not_true] at hNow
      obtain ⟨rfl, hLast⟩ := fills_of_plain (hJoins _ hArc.target_lt) hFills
      have hState := Reactor.cascadeSkip_eq (R := R) { s with visits := rest } visit.target
      have hBooks : R.booksOf given (visit.target :: cascaded)
          (R.cascadeSkip (State.setPending { s with visits := rest } visit.target 0)
            visit.target) = (R.booksOf given cascaded s).pass R visit.target rest := by
        rw [hState, Reactor.booksOf, Books.pass, Books.mk.injEq]
        exact ⟨rfl, rfl, rfl, rfl, rfl, hInsert⟩
      refine ⟨visit.target :: cascaded, h.keep_visited
        (.cascaded [] output hMarks hFills hMode hFails) ?_ ?_ ?_ ?_⟩
      · exact hBooks ▸ h.books.pass hVisits hMarks hLast hNow
      · exact hBooks ▸ h.books.pass_extended hVisits
      · exact (congrArg State.work hState) ▸ h.work
      · exact (congrArg State.work hState) ▸ h.fresh
  | wrapped output _ _ _ hZero => exact absurd hZero hPos.ne'

end Booked

end Moves

end TalosWorkflow
