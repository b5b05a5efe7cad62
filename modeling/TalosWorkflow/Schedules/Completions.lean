import TalosWorkflow.Schedules.Steps

/-!
# Completions keep the books

A node is completed in the way that the outcomes say, whenever it is completed.
-/

namespace TalosWorkflow

open Multigraph

variable {H : Host} {R : Reactor H} {O : Outcomes} {hAcyclic : R.graph.Acyclic}
  {given cascaded : List NodeIndex} {s t base : State} {action : Action} {start idx : NodeIndex}
  {events : List Event} {mode : Completion} {value : Json}

section Verdicts

theorem chainOf_eq_none_of_no_chains (hNone : R.chains = []) (idx : NodeIndex) :
    R.chainOf idx = none := by
  rw [Reactor.chainOf, hNone]
  rfl

theorem executed_mem_handledEvents {n : NodeIndex} :
    .executed n ∈ R.handledEvents idx ↔ n = idx := by
  unfold Reactor.handledEvents
  split
  · simp
  · simp

theorem answers_of_handler {answer : Answer} (hModule : R.runsModule idx = false)
    (hNested : R.isSubWorkflowNode idx = false) (hAnswers : R.answers O s idx answer) :
    answer = O.answer idx (R.gathered (R.known s.results) idx) ∧
      R.answerVerdict idx answer = R.handlerVerdict idx (R.kindOf (R.nodeId idx)) answer := by
  unfold Reactor.answers at hAnswers
  unfold Reactor.answerVerdict
  rw [hModule, hNested, if_neg Bool.false_ne_true, if_neg Bool.false_ne_true] at hAnswers ⊢
  exact ⟨hAnswers, rfl⟩

theorem plain_of_handlerVerdict {answer : Answer}
    (hVerdict : R.handlerVerdict idx (R.kindOf (R.nodeId idx)) answer = some (mode, value)) :
    R.runsModule idx = false ∧ R.isSubWorkflowNode idx = false := by
  constructor
  · rw [← Bool.not_eq_true]
    intro hModule
    unfold Reactor.runsModule at hModule
    split at hModule
    · rename_i hKind
      rw [hKind] at hVerdict
      cases hVerdict
    · rename_i hKind
      rw [hKind] at hVerdict
      cases hVerdict
    · cases hModule
  · rw [← Bool.not_eq_true]
    intro hNested
    unfold Reactor.isSubWorkflowNode at hNested
    split at hNested
    · rename_i hKind
      rw [hKind] at hVerdict
      cases hVerdict
    · cases hNested

theorem answerVerdict_ofResult {result : Except String Json} (hModule : R.runsModule idx = true) :
    R.answerVerdict idx (Answer.ofResult result) = R.resultVerdict idx result := by
  unfold Reactor.answerVerdict
  rw [if_pos hModule]
  cases result with
  | ok value => rfl
  | error message => rfl

theorem verdict_of_skip {known : NodeIndex → Option Json} {output : Json}
    (h : O.skip idx (R.gathered known idx) = some output) :
    R.verdict O known idx = some (.unblocks, output) := by
  rw [Reactor.verdict, h]

theorem verdict_of_answer {known : NodeIndex → Option Json}
    (h : O.skip idx (R.gathered known idx) = none) :
    R.verdict O known idx = R.answerVerdict idx (O.answer idx (R.gathered known idx)) := by
  rw [Reactor.verdict, h]

/-- A node is completed by its outcome, and is executed unless it is skipped. -/
theorem Booked.concluding (h : Booked R O hAcyclic given s cascaded)
    (hFollows : Follows R O s action)
    (hConcluding : Concluding R s action start idx base events mode value) :
    start = idx ∧ R.verdict O (R.known s.results) idx = some (mode, value) ∧
      ∀ n, .executed n ∈ events ↔
        n = idx ∧ O.skip idx (R.gathered (R.known s.results) idx) = none := by
  cases hConcluding with
  | stored _ _ rest hVisits hBatch =>
      have hIn : (start, value) ∈ s.batch := hBatch ▸ List.mem_cons_self
      obtain ⟨hVerdict, hSkip⟩ := h.batch _ hIn
      refine ⟨rfl, hVerdict, fun n => ?_⟩
      rw [List.mem_singleton, Event.executed.injEq]
      exact (and_iff_left hSkip).symm
  | popped _ rest answer _ _ _ hVisits hBatch hReady hPlain hSettles =>
      have hSkips := hFollows.1 start (mem_leaving hReady hPlain)
      have hAnswers := hFollows.2 start (by rw [hReady]; rfl)
      refine ⟨rfl, ?_⟩
      cases hSettles with
      | skipped output hSkip =>
          rw [hSkip] at hSkips
          refine ⟨verdict_of_skip hSkips.symm, fun n => ?_⟩
          rw [← hSkips]
          simp
      | refused limit hSkip hKind hAnswer =>
          have hAccepted := hAnswers hSkip
          rw [Reactor.answers, if_pos hKind, hAnswer] at hAccepted
          cases hAccepted
      | handled _ _ hSkip hVerdict =>
          obtain ⟨hModule, hNested⟩ := plain_of_handlerVerdict hVerdict
          obtain ⟨hAnswer, hRule⟩ := answers_of_handler hModule hNested (hAnswers hSkip)
          rw [hSkip] at hSkips
          refine ⟨?_, fun n => ?_⟩
          · rw [verdict_of_answer hSkips.symm, ← hAnswer, hRule]
            exact hVerdict
          · rw [executed_mem_handledEvents]
            exact (and_iff_left hSkips.symm).symm
  | returned position result ran flight _ nodes _ _ hVisits hBatch hReady hFlight hLands hVerdict =>
      obtain ⟨_, rfl, hModule, hSkip⟩ := h.flights flight (List.mem_of_getElem? hFlight)
      cases hLands with
      | single =>
          have hReturns : Answer.ofResult result = _ := hFollows _ hFlight
          refine ⟨rfl, ?_, fun n => ?_⟩
          · rw [verdict_of_answer hSkip, Reactor.gathered, ← hReturns,
              answerVerdict_ofResult hModule]
            exact hVerdict
          · rw [List.map_singleton, List.mem_singleton, Event.executed.injEq]
            exact (and_iff_left hSkip).symm

end Verdicts

section Moves

variable {n : NodeIndex} {done : List NodeIndex}

theorem Shifted.completedNodes (given : List NodeIndex) (h : Shifted s base done events) :
    completedNodes given base = completedNodes given s := by
  unfold TalosWorkflow.completedNodes
  rw [h.history, releasedNodes_append, h.quiet.released, List.nil_append]

theorem Shifted.released_iff (h : Shifted s base done events) :
    .released n ∈ base.history ↔ .released n ∈ s.history := by
  have hSame := h.completedNodes []
  rw [← or_iff_left (a := Event.released n ∈ base.history) List.not_mem_nil,
    ← or_iff_left (a := Event.released n ∈ s.history) List.not_mem_nil,
    ← mem_completedNodes, ← mem_completedNodes, hSame]

theorem conclude_work : (R.conclude base idx mode value).work = base.work := by
  simp [State.work]

theorem completedNodes_conclude : completedNodes given (R.conclude base idx mode value) =
    idx :: completedNodes given base := by
  unfold completedNodes
  rw [Reactor.conclude_history]
  rfl

theorem booksOf_conclude (hIds : R.graph.nodes.Nodup) (hNone : R.chains = [])
    (hShifted : Shifted s base [idx] events) (hIdx : idx < R.graph.nodes.length) :
    R.booksOf given cascaded (R.conclude base idx mode value) =
      (R.booksOf given cascaded s).conclude R idx mode value := by
  rw [Reactor.booksOf, Books.conclude, Books.mk.injEq]
  refine ⟨funext fun n => ?_, rfl, funext fun n => propext ?_, ?_, rfl, ?_⟩
  · have hChain := chainOf_eq_none_of_no_chains hNone idx
    obtain hSame | ⟨hMember, -⟩ := Reactor.conclude_pending (R := R) base idx mode value n
    · rw [hSame, hShifted.pending]
      rfl
    · rw [hChain] at hMember
      cases hMember
  · rw [conclude_work, completedNodes_conclude, hShifted.completedNodes given, Reactor.booksOf_entered,
      hShifted.work.mem_iff, List.singleton_append, List.mem_cons, List.mem_cons,
      ← or_assoc, or_comm (a := n ∈ base.work)]
  · rw [completedNodes_conclude, hShifted.completedNodes given]
    rfl
  · rw [Reactor.conclude_results, hShifted.results, known_insert hIds hIdx]
    rfl

theorem eq_of_mem_zip {α β γ : Type} {f : α → γ} {g : β → γ} {l : List α} {l' : List β}
    (h : l.map f = l'.map g) {a : α} {b : β} (hIn : (a, b) ∈ l.zip l') : f a = g b := by
  induction l generalizing l' with
  | nil => cases hIn
  | cons x l ih =>
      cases l' with
      | nil => cases hIn
      | cons y l' =>
          rw [List.map_cons, List.map_cons, List.cons.injEq] at h
          rw [List.zip_cons_cons, List.mem_cons, Prod.mk.injEq] at hIn
          obtain ⟨rfl, rfl⟩ | hIn := hIn
          · exact h.1
          · exact ih h.2 hIn

theorem runsModule_eq_false (hKind : R.isSubWorkflowNode idx = true) : R.runsModule idx = false := by
  unfold Reactor.isSubWorkflowNode at hKind
  split at hKind
  · rename_i hNested
    rw [Reactor.runsModule, hNested]
  · cases hKind

/-- A node of a batch that is not skipped is completed by the value that comes back. -/
theorem verdict_of_batch (hKind : R.isSubWorkflowNode idx = true) {known : NodeIndex → Option Json}
    (hSkip : O.skip idx (R.gathered known idx) = none)
    (hAnswer : (O.answer idx (R.gathered known idx)).value = some value) :
    R.verdict O known idx = some (.unblocks, value) := by
  rw [verdict_of_answer hSkip]
  unfold Reactor.answerVerdict
  rw [runsModule_eq_false hKind, hKind, if_neg Bool.false_ne_true, if_pos rfl, hAnswer]
  rfl

theorem executed_not_mem (h : Relocating R s action t events) (n : NodeIndex) :
    .executed n ∉ events := by
  cases h with
  | launchedSingle => simp
  | launchedChain => simp
  | drained => simp

namespace Booked

theorem concluded (hIds : R.graph.nodes.Nodup) (hNone : R.chains = [])
    (h : Booked R O hAcyclic given s cascaded) (hFollows : Follows R O s action)
    (hConcluding : Concluding R s action start idx base events mode value) :
    Booked R O hAcyclic given (R.conclude base idx mode value) cascaded := by
  obtain ⟨rfl, hVerdict, hEvents⟩ := h.concluding hFollows hConcluding
  have hShifted := hConcluding.shifted
  have hIn : start ∈ s.work := hShifted.work.mem_iff.2 List.mem_cons_self
  have hFresh := h.fresh start hIn
  have hEntered : (R.booksOf given cascaded s).entered start := .inl hIn
  have hBooks : R.booksOf given cascaded (R.conclude base start mode value) =
      (R.booksOf given cascaded s).conclude R start mode value :=
    booksOf_conclude hIds hNone hShifted (h.books.nodes start hEntered)
  have hNodup := hShifted.work.nodup_iff.1 h.work
  have hReleased : ∀ n, .released n ∈ (R.conclude base start mode value).history ↔
      n = start ∨ .released n ∈ s.history := by
    intro n
    rw [Reactor.conclude_history, List.mem_cons, Event.released.injEq, hShifted.released_iff]
  refine h.keep ?_ ?_ ?_ ?_ (fun flight hFlight => .inl ?_) (fun entry hEntry => .inl ?_)
    (fun n => ?_) (fun n hn => ?_) ?_
  · exact hBooks ▸ h.books.conclude hShifted.idle hEntered hFresh hVerdict
  · exact hBooks ▸ h.books.conclude_extended hEntered hFresh
  · rw [conclude_work]
    exact (List.nodup_cons.1 hNodup).2
  · intro n hn hDone
    rw [conclude_work] at hn
    rw [completedNodes_conclude, hShifted.completedNodes given, List.mem_cons] at hDone
    obtain rfl | hDone := hDone
    · exact (List.nodup_cons.1 hNodup).1 hn
    · exact h.fresh n (hShifted.work.mem_iff.2 (List.mem_cons_of_mem start hn)) hDone
  · rw [Reactor.conclude_executing] at hFlight
    exact hConcluding.queues.1 hFlight
  · rw [Reactor.conclude_batch] at hEntry
    exact hConcluding.queues.2 hEntry
  · rw [hReleased, Reactor.conclude_history, hShifted.history, List.mem_cons, List.mem_append,
      hEvents]
    constructor
    · rintro (hEvent | ⟨rfl, hSkip⟩ | hOld)
      · cases hEvent
      · exact .inr ⟨hIn, .inl rfl, hSkip⟩
      · exact .inl hOld
    · rintro (hOld | ⟨hWork, rfl | hOld, hSkip⟩)
      · exact .inr (.inr hOld)
      · exact .inr (.inl ⟨rfl, hSkip⟩)
      · exact absurd (mem_completedNodes.2 (.inl hOld)) (h.fresh n hWork)
  · obtain rfl | hOld := (hReleased n).1 hn
    · exact .inr hIn
    · exact .inl hOld
  · rw [Reactor.conclude_history, hShifted.history]
    exact List.subset_cons_of_subset _ (List.subset_append_right _ _)

theorem relocated (hNone : R.chains = []) (h : Booked R O hAcyclic given s cascaded)
    (hFollows : Follows R O s action) (hUnanimous : Unanimous R O given s action)
    (hRelocating : Relocating R s action t events) : Booked R O hAcyclic given t cascaded := by
  have hShifted := hRelocating.shifted
  have hBooks : R.booksOf given cascaded t = R.booksOf given cascaded s := by
    rw [Reactor.booksOf, Reactor.booksOf, Books.mk.injEq]
    refine ⟨hShifted.pending, hShifted.visits.trans hShifted.idle.symm, funext fun n => propext ?_,
      hShifted.completedNodes given, rfl, congrArg R.known hShifted.results⟩
    rw [hShifted.work.mem_iff, hShifted.completedNodes given, List.nil_append]
  refine h.keep (hBooks ▸ h.books) (hBooks ▸ Books.Extended.refl _) (hShifted.work.nodup_iff.1 h.work)
    (fun n hn => ?_) (fun flight hFlight => ?_) (fun entry hEntry => ?_) (fun n => ?_)
    (fun n hn => .inl (hShifted.released_iff.1 hn)) ?_
  · rw [hShifted.completedNodes given]
    exact h.fresh n (hShifted.work.mem_iff.2 hn)
  · cases hRelocating with
    | launchedSingle idx rest hVisits hBatch hReady hPlain hSkips hKind =>
        refine (List.mem_append.1 hFlight).imp_right fun hNew => ?_
        have hSkip := hFollows.1 idx (mem_leaving hReady hPlain)
        rw [hSkips] at hSkip
        refine ⟨idx, mem_work_of_ready (hReady ▸ List.mem_cons_self), ?_, hKind, hSkip.symm⟩
        rw [List.mem_singleton.1 hNew, parents_known]
    | launchedChain idx _ _ _ _ _ _ hChain =>
        rw [chainOf_eq_none_of_no_chains hNone idx] at hChain
        cases hChain
    | drained => exact .inl hFlight
  · cases hRelocating with
    | launchedSingle => exact .inl hEntry
    | launchedChain => exact .inl hEntry
    | drained idx rest values hVisits hBatch hReady hPlain hSkips hKind hLength =>
        have hLeaving : R.leaving s (.pop (.outputs values)) = _ :=
          leaving_drained hReady hPlain hSkips hKind
        have hAnswers := hFollows.2 idx (by rw [hReady]; rfl) hSkips
        have hNotModule := runsModule_eq_false hKind
        rw [Reactor.answers, hNotModule, hKind, if_neg Bool.false_ne_true, if_pos rfl, hReady,
          List.tail_cons] at hAnswers
        have hAnswer := eq_of_mem_zip hAnswers hEntry
        obtain ⟨hNode, -⟩ := List.of_mem_zip hEntry
        have hNested : R.isSubWorkflowNode entry.1 = true ∧ R.skips s entry.1 = none := by
          obtain hHead | hTail := List.mem_cons.1 hNode
          · rw [hHead]
            exact ⟨hKind, hSkips⟩
          · refine ⟨(List.mem_filter.1 hTail).2, hUnanimous.2 _ ?_⟩
            rw [hLeaving]
            exact hTail
        have hSkip := hFollows.1 entry.1 (hLeaving ▸ hNode)
        rw [hNested.2] at hSkip
        refine .inr ⟨hShifted.work.mem_iff.2 (mem_work_of_batch hEntry), ?_, hSkip.symm⟩
        exact verdict_of_batch hNested.1 hSkip.symm hAnswer
  · rw [hShifted.history, List.mem_append, or_iff_right (executed_not_mem hRelocating n)]
    refine (or_iff_left_of_imp ?_).symm
    rintro ⟨hIn, hReleased, -⟩
    rw [← hShifted.history, hShifted.released_iff] at hReleased
    exact absurd (mem_completedNodes.2 (.inl hReleased)) (h.fresh n hIn)
  · rw [hShifted.history]
    exact List.subset_append_right _ _

end Booked

end Moves

end TalosWorkflow
