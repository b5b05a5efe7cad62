import TalosWorkflow.Schedules.Outcomes

/-!
# The books of a run

What the counters of a run stand for, apart from the queues: the edges that are
still to be counted into a node, and why a node was made ready or skipped.
-/

namespace TalosWorkflow

open Multigraph

variable {H : Host}

structure Books where
  pending : NodeIndex → Nat
  visits : List Visit
  entered : NodeIndex → Prop
  completed : List NodeIndex
  cascaded : List NodeIndex
  known : NodeIndex → Option Json

namespace Books

section Definitions

variable (R : Reactor H) (O : Outcomes) (b : Books)

def account : Account NodeIndex Json :=
  ⟨b.entered, (· ∈ b.completed), (· ∈ b.cascaded), b.known⟩

/-- The edge has been counted, or a visit is about to count it. -/
def counts (p n : NodeIndex) : Bool :=
  decide (p ∈ b.cascaded) || decide (p ∈ b.completed) && !R.marksArc O b.known p n

def uncounted (n : NodeIndex) : Nat :=
  (R.graph.predecessors n).countP fun p => !b.counts R O p n

def coming (n : NodeIndex) : Nat :=
  b.visits.countP fun visit => !R.marks visit && decide (visit.target = n)

/-- The edge counted last admits the node, or not; all that may be counted last decide so. -/
def Decided (hAcyclic : R.graph.Acyclic) (admits : Bool) (n : NodeIndex) : Prop :=
  ∃ p, R.graph.Arc p n ∧ p ∈ b.completed ∧ R.admitsArc O b.known p n = admits ∧
    Account.Agree (R.flow O hAcyclic) b.account p n

structure Balanced (hAcyclic : R.graph.Acyclic) : Prop where
  nodes : ∀ n, b.entered n → n < R.graph.nodes.length
  entered : ∀ n ∈ b.completed, b.entered n
  apart : ∀ n ∈ b.cascaded, ¬ b.entered n
  settled : ∀ n, b.entered n ∨ n ∈ b.cascaded → b.pending n = 0
  balanced : ∀ n, b.pending n = b.uncounted R O n + b.coming R n
  released : ∀ n ∈ b.completed, ∃ verdict,
    R.verdict O b.known n = some verdict ∧ b.known n = some verdict.2
  passed : ∀ n ∈ b.cascaded, b.known n = some skippedMark
  marked : ∀ n v, b.known n = some v → n ∉ b.completed → n ∉ b.cascaded → v = skippedMark ∧
    ∃ p, R.graph.Arc p n ∧ p ∈ b.completed ∧ R.marksArc O b.known p n = true
  marks : ∀ p ∈ b.completed, ∀ n, R.graph.Arc p n → R.marksArc O b.known p n = true →
    b.known n = some skippedMark ∨ ∃ visit ∈ b.visits, visit.source = p ∧ visit.target = n
  visits : ∀ visit ∈ b.visits, visit.source ∈ b.completed ∧
    R.graph.Arc visit.source visit.target ∧
      ∃ value, R.verdict O b.known visit.source = some (visit.mode, value)
  opened : ∀ n, b.entered n → R.graph.inDegree n ≠ 0 → b.Decided R O hAcyclic true n
  closed : ∀ n ∈ b.cascaded, b.Decided R O hAcyclic false n
  filled : ∀ n < R.graph.nodes.length, R.graph.inDegree n ≠ 0 → b.pending n = 0 →
    b.entered n ∨ n ∈ b.cascaded ∨
      ∃ p, R.graph.Arc p n ∧ p ∈ b.cascaded ∧ ∀ q, R.graph.Arc q n → R.graph.precedes p q = false
  roots : ∀ n < R.graph.nodes.length, R.graph.inDegree n = 0 → b.entered n

structure Extended (b' : Books) : Prop where
  entered : ∀ n, b.entered n → b'.entered n
  completed : b.completed ⊆ b'.completed
  cascaded : b.cascaded ⊆ b'.cascaded
  known : ∀ n, n ∈ b.completed ∨ n ∈ b.cascaded → b'.known n = b.known n

end Definitions

section Accounts

variable {R : Reactor H} {O : Outcomes} {hAcyclic : R.graph.Acyclic} {b b' : Books}
  {n p : NodeIndex}

theorem counts_iff : b.counts R O p n = true ↔
    p ∈ b.cascaded ∨ p ∈ b.completed ∧ R.marksArc O b.known p n = false := by
  simp [counts]

theorem inDegree_ne_zero (h : R.graph.Arc p n) : R.graph.inDegree n ≠ 0 :=
  (R.graph.inDegree_pos.2 ⟨p, h⟩).ne'

namespace Balanced

theorem counts_of_zero (h : b.Balanced R O hAcyclic) (hZero : b.pending n = 0)
    (hArc : R.graph.Arc p n) : b.counts R O p n = true := by
  have hBalanced := h.balanced n
  have hNone : b.uncounted R O n = 0 := by omega
  rw [uncounted, List.countP_eq_zero] at hNone
  have hCounts := hNone p ((mem_predecessors _).2 hArc)
  simpa using hCounts

theorem resolved_of_zero (h : b.Balanced R O hAcyclic) (hZero : b.pending n = 0)
    (hArc : R.graph.Arc p n) : p ∈ b.completed ∨ p ∈ b.cascaded := by
  obtain hCascaded | ⟨hCompleted, -⟩ := counts_iff.1 (h.counts_of_zero hZero hArc)
  · exact .inr hCascaded
  · exact .inl hCompleted

theorem pending_completed (h : b.Balanced R O hAcyclic) (hn : n ∈ b.completed ∨ n ∈ b.cascaded) :
    b.pending n = 0 :=
  h.settled n (hn.imp_left (h.entered n))

/-- The ancestors of a node that is complete or skipped are so, too. -/
theorem resolved_above (h : b.Balanced R O hAcyclic) (hn : n ∈ b.completed ∨ n ∈ b.cascaded)
    (hPath : Relation.TransGen R.graph.Arc p n) : p ∈ b.completed ∨ p ∈ b.cascaded := by
  induction hPath with
  | single hArc => exact h.resolved_of_zero (h.pending_completed hn) hArc
  | tail _ hArc ih => exact ih (h.resolved_of_zero (h.pending_completed hn) hArc)

theorem sound (h : b.Balanced R O hAcyclic) : Account.Sound (R.flow O hAcyclic) b.account where
  nodes hEntered := h.nodes _ hEntered
  entered hCompleted := h.entered _ hCompleted
  apart hPassed := h.apart _ hPassed
  released hCompleted := by
    obtain ⟨verdict, hVerdict, hKnown⟩ := h.released _ hCompleted
    refine ⟨verdict.2, hKnown, ?_⟩
    rw [Reactor.flow_value, account, hVerdict]
    rfl
  passed hPassed := h.passed _ hPassed
  marked hKnown hCompleted hCascaded := h.marked _ _ hKnown hCompleted hCascaded
  counted hResolved hArc := by
    obtain hCascaded | ⟨hCompleted, hCounts⟩ :=
      counts_iff.1 (h.counts_of_zero (h.settled _ hResolved) hArc)
    · exact .inl hCascaded
    · exact .inr ⟨hCompleted, Bool.eq_false_iff.1 hCounts⟩
  opened hEntered hArc := h.opened _ hEntered (inDegree_ne_zero hArc)
  closed hPassed := by
    obtain ⟨p, hArc, hCompleted, hHolds, hAgree⟩ := h.closed _ hPassed
    exact ⟨p, hArc, hCompleted, Bool.eq_false_iff.1 hHolds, hAgree⟩

theorem complete (h : b.Balanced R O hAcyclic) (hVisits : b.visits = [])
    (hFinished : ∀ n, b.entered n → n ∈ b.completed ∨ R.verdict O b.known n = none) :
    Account.Complete (R.flow O hAcyclic) b.account where
  toSound := h.sound
  finished hEntered := (hFinished _ hEntered).imp_right fun hNone => by
    rw [Reactor.flow_value, account, hNone]
    rfl
  roots {n} hNode hRoot := by
    refine h.roots n hNode ?_
    by_contra hDegree
    obtain ⟨p, hArc⟩ := R.graph.inDegree_pos.1 (Nat.pos_of_ne_zero hDegree)
    exact hRoot p hArc
  marks hCompleted hArc hMarks := by
    obtain hKnown | ⟨visit, hVisit, -⟩ := h.marks _ hCompleted _ hArc hMarks
    · exact hKnown
    · rw [hVisits] at hVisit
      cases hVisit
  filled {q n} hArc hCounted := by
    have hNone : b.uncounted R O n = 0 := by
      rw [uncounted, List.countP_eq_zero]
      intro p hp
      have hCounts : b.counts R O p n = true := by
        rw [counts_iff]
        exact (hCounted p ((mem_predecessors _).1 hp)).imp_right
          (And.imp_right fun hPasses => Bool.eq_false_iff.2 hPasses)
      simp [hCounts]
    have hZero : b.pending n = 0 := by
      rw [h.balanced, hNone, coming, hVisits]
      rfl
    obtain hEntered | hPassed | ⟨p, hp, hPassed, hLast⟩ :=
      h.filled n hArc.target_lt (inDegree_ne_zero hArc) hZero
    · exact .inl hEntered
    · exact .inr (.inl hPassed)
    · exact .inr (.inr ⟨p, hp, hPassed, fun q hq => Bool.eq_false_iff.1 (hLast q hq)⟩)

end Balanced

end Accounts

section Extensions

variable {R : Reactor H} {O : Outcomes} {hAcyclic : R.graph.Acyclic} {b b' : Books}
  {n p : NodeIndex}

namespace Balanced

theorem parents_kept (h : b.Balanced R O hAcyclic) (hExtended : b.Extended b')
    (hEntered : b.entered n) : ∀ p, R.graph.Arc p n → b'.known p = b.known p := fun _ hArc =>
  hExtended.known _ (h.resolved_of_zero (h.settled n (.inl hEntered)) hArc)

theorem verdict_kept (h : b.Balanced R O hAcyclic) (hExtended : b.Extended b')
    (hEntered : b.entered n) : R.verdict O b'.known n = R.verdict O b.known n :=
  verdict_congr (h.parents_kept hExtended hEntered)

theorem marksArc_kept (h : b.Balanced R O hAcyclic) (hExtended : b.Extended b')
    (hp : p ∈ b.completed) : R.marksArc O b'.known p n = R.marksArc O b.known p n := by
  rw [Reactor.marksArc, Reactor.marksArc, h.verdict_kept hExtended (h.entered p hp)]

theorem admitsArc_kept (h : b.Balanced R O hAcyclic) (hExtended : b.Extended b')
    (hp : p ∈ b.completed) : R.admitsArc O b'.known p n = R.admitsArc O b.known p n := by
  rw [Reactor.admitsArc, Reactor.admitsArc, h.verdict_kept hExtended (h.entered p hp)]

theorem decided_kept (h : b.Balanced R O hAcyclic) (hExtended : b.Extended b') {admits : Bool}
    (hDecided : b.Decided R O hAcyclic admits n) : b'.Decided R O hAcyclic admits n := by
  obtain ⟨p, hArc, hp, hAdmits, hAgree⟩ := hDecided
  refine ⟨p, hArc, hExtended.completed hp, ?_, fun q hq hBefore => ?_⟩
  · rw [h.admitsArc_kept hExtended hp]
    exact hAdmits
  · obtain ⟨hReleased, hSame⟩ := hAgree q hq hBefore
    refine ⟨hExtended.completed hReleased, ?_⟩
    simp only [Reactor.flow_admits, account] at hSame ⊢
    rw [h.admitsArc_kept hExtended hp, h.admitsArc_kept hExtended hReleased]
    exact hSame

theorem extend (h : b.Balanced R O hAcyclic) (hExtended : b.Extended b')
    (hEntered : ∀ n, b'.entered n → b.entered n ∨
      n < R.graph.nodes.length ∧ b'.Decided R O hAcyclic true n)
    (hCompleted : ∀ n ∈ b'.completed, n ∈ b.completed ∨ b'.entered n ∧ ∃ verdict,
      R.verdict O b'.known n = some verdict ∧ b'.known n = some verdict.2)
    (hCascaded : ∀ n ∈ b'.cascaded, n ∈ b.cascaded ∨ b'.known n = some skippedMark ∧
      b'.Decided R O hAcyclic false n)
    (hApart : ∀ n ∈ b'.cascaded, ¬ b'.entered n)
    (hSettled : ∀ n, b'.entered n ∨ n ∈ b'.cascaded → b'.pending n = 0)
    (hBalanced : ∀ n, b'.pending n = b'.uncounted R O n + b'.coming R n)
    (hMarked : ∀ n v, b'.known n = some v → n ∉ b'.completed → n ∉ b'.cascaded →
      b.known n = some v ∨ v = skippedMark ∧
        ∃ p, R.graph.Arc p n ∧ p ∈ b'.completed ∧ R.marksArc O b'.known p n = true)
    (hMarks : ∀ p ∈ b'.completed, ∀ n, R.graph.Arc p n → R.marksArc O b'.known p n = true →
      b'.known n = some skippedMark ∨ ∃ visit ∈ b'.visits, visit.source = p ∧ visit.target = n)
    (hVisits : ∀ visit ∈ b'.visits, visit ∈ b.visits ∨ visit.source ∈ b'.completed ∧
      R.graph.Arc visit.source visit.target ∧
        ∃ value, R.verdict O b'.known visit.source = some (visit.mode, value))
    (hFilled : ∀ n < R.graph.nodes.length, R.graph.inDegree n ≠ 0 → b'.pending n = 0 →
      b.pending n = 0 ∨ b'.entered n ∨ n ∈ b'.cascaded ∨ ∃ p, R.graph.Arc p n ∧
        p ∈ b'.cascaded ∧ ∀ q, R.graph.Arc q n → R.graph.precedes p q = false) :
    b'.Balanced R O hAcyclic where
  nodes n hn := (hEntered n hn).elim (h.nodes n) And.left
  entered n hn := (hCompleted n hn).elim (fun hOld => hExtended.entered n (h.entered n hOld)) And.left
  apart := hApart
  settled := hSettled
  balanced := hBalanced
  released n hn := by
    obtain hOld | ⟨-, hNew⟩ := hCompleted n hn
    · obtain ⟨verdict, hVerdict, hKnown⟩ := h.released n hOld
      refine ⟨verdict, ?_, ?_⟩
      · rw [h.verdict_kept hExtended (h.entered n hOld)]
        exact hVerdict
      · rw [hExtended.known n (.inl hOld)]
        exact hKnown
    · exact hNew
  passed n hn := by
    obtain hOld | ⟨hNew, -⟩ := hCascaded n hn
    · rw [hExtended.known n (.inr hOld)]
      exact h.passed n hOld
    · exact hNew
  marked n v hKnown hNotCompleted hNotCascaded := by
    obtain hOld | hNew := hMarked n v hKnown hNotCompleted hNotCascaded
    · obtain ⟨hMark, p, hArc, hp, hMarksArc⟩ := h.marked n v hOld
        (fun hIn => hNotCompleted (hExtended.completed hIn))
        fun hIn => hNotCascaded (hExtended.cascaded hIn)
      refine ⟨hMark, p, hArc, hExtended.completed hp, ?_⟩
      rw [h.marksArc_kept hExtended hp]
      exact hMarksArc
    · exact hNew
  marks := hMarks
  visits visit hVisit := by
    obtain hOld | hNew := hVisits visit hVisit
    · obtain ⟨hSource, hArc, value, hVerdict⟩ := h.visits visit hOld
      refine ⟨hExtended.completed hSource, hArc, value, ?_⟩
      rw [h.verdict_kept hExtended (h.entered _ hSource)]
      exact hVerdict
    · exact hNew
  opened n hn hDegree := by
    obtain hOld | ⟨-, hNew⟩ := hEntered n hn
    · exact h.decided_kept hExtended (h.opened n hOld hDegree)
    · exact hNew
  closed n hn := by
    obtain hOld | ⟨-, hNew⟩ := hCascaded n hn
    · exact h.decided_kept hExtended (h.closed n hOld)
    · exact hNew
  filled n hn hDegree hZero := by
    obtain hOld | hNew := hFilled n hn hDegree hZero
    · obtain hIn | hOver | ⟨p, hArc, hPassed, hLast⟩ := h.filled n hn hDegree hOld
      · exact .inl (hExtended.entered n hIn)
      · exact .inr (.inl (hExtended.cascaded hOver))
      · exact .inr (.inr ⟨p, hArc, hExtended.cascaded hPassed, hLast⟩)
    · exact hNew
  roots n hn hDegree := hExtended.entered n (h.roots n hn hDegree)

end Balanced

end Extensions

section Operations

variable (R : Reactor H) (b : Books)

@[simps]
def mark (target : NodeIndex) (rest : List Visit) : Books :=
  { b with
    visits := rest
    known := Function.update b.known target (some skippedMark) }

@[simps]
def count (target : NodeIndex) (rest : List Visit) : Books :=
  { b with
    visits := rest
    pending := Function.update b.pending target (b.pending target - 1) }

@[simps]
def enter (target : NodeIndex) (rest : List Visit) : Books :=
  { b with
    visits := rest
    pending := Function.update b.pending target 0
    entered := fun n => b.entered n ∨ n = target }

@[simps]
def pass (target : NodeIndex) (rest : List Visit) : Books :=
  { b with
    visits := rest
    pending := fun n => Function.update b.pending target 0 n - (R.graph.successors target).count n
    cascaded := target :: b.cascaded
    known := Function.update b.known target (some skippedMark) }

@[simps]
def conclude (idx : NodeIndex) (mode : Completion) (value : Json) : Books :=
  { b with
    visits := (R.graph.successors idx).map fun child => ⟨mode, idx, child⟩
    completed := idx :: b.completed
    known := Function.update b.known idx (some value) }

end Operations

section Visits

variable {R : Reactor H} {O : Outcomes} {hAcyclic : R.graph.Acyclic} {b b' : Books}
  {visit : Visit} {rest : List Visit} {n p : NodeIndex}

theorem Extended.refl (b : Books) : b.Extended b :=
  ⟨fun _ => id, List.Subset.refl _, List.Subset.refl _, fun _ _ => rfl⟩

theorem count_extended (b : Books) (target : NodeIndex) (rest : List Visit) :
    b.Extended (b.count target rest) :=
  ⟨fun _ => id, List.Subset.refl _, List.Subset.refl _, fun _ _ => rfl⟩

theorem enter_extended (b : Books) (target : NodeIndex) (rest : List Visit) :
    b.Extended (b.enter target rest) :=
  ⟨fun _ => .inl, List.Subset.refl _, List.Subset.refl _, fun _ _ => rfl⟩

theorem coming_cons (hVisits : b.visits = visit :: rest) (n : NodeIndex) :
    b.coming R n = rest.countP (fun visit => !R.marks visit && decide (visit.target = n)) +
      if R.marks visit = false ∧ n = visit.target then 1 else 0 := by
  rw [coming, hVisits, List.countP_cons]
  simp only [Bool.and_eq_true, Bool.not_eq_true', decide_eq_true_eq, eq_comm (a := n)]

theorem uncounted_eq (h : b.Balanced R O hAcyclic) (hExtended : b.Extended b')
    (hCompleted : b'.completed = b.completed) (hCascaded : b'.cascaded = b.cascaded)
    (n : NodeIndex) : b'.uncounted R O n = b.uncounted R O n := by
  refine List.countP_congr fun p _ => ?_
  simp only [Bool.not_eq_true', ← Bool.not_eq_true, not_iff_not, counts_iff, hCompleted, hCascaded]
  refine or_congr_right (and_congr_right fun hp => ?_)
  rw [h.marksArc_kept hExtended hp]

/-- A node that is decided now counts its own edges, and no others. -/
theorem countP_new {c c' : NodeIndex → Bool} {a : NodeIndex} {l : List NodeIndex}
    (hOld : c a = false) (hNew : c' a = true) (hOther : ∀ x, x ≠ a → c' x = c x) :
    l.countP (fun x => !c' x) + l.count a = l.countP fun x => !c x := by
  induction l with
  | nil => rfl
  | cons x l ih =>
      rw [List.countP_cons, List.countP_cons, List.count_cons]
      obtain rfl | hne := eq_or_ne x a
      · simp only [hOld, hNew, beq_self_eq_true, Bool.not_true, Bool.not_false, if_true,
          Bool.false_eq_true, if_false]
        omega
      · simp only [hOther x hne, beq_eq_false_iff_ne.2 hne, Bool.false_eq_true, if_false]
        omega

namespace Balanced

theorem marksArc_eq (h : b.Balanced R O hAcyclic) (hVisit : visit ∈ b.visits) :
    R.marksArc O b.known visit.source visit.target = R.marks visit := by
  obtain ⟨-, -, value, hVerdict⟩ := h.visits visit hVisit
  rw [Reactor.marksArc, hVerdict]
  rfl

theorem pending_pos (h : b.Balanced R O hAcyclic) (hVisits : b.visits = visit :: rest) :
    0 < b.pending visit.target := by
  have hVisit : visit ∈ b.visits := hVisits ▸ List.mem_cons_self
  obtain ⟨hSource, hArc, -⟩ := h.visits visit hVisit
  have hBalanced := h.balanced visit.target
  cases hMarks : R.marks visit with
  | false =>
      rw [coming_cons hVisits, if_pos ⟨hMarks, rfl⟩] at hBalanced
      omega
  | true =>
      rw [Nat.pos_iff_ne_zero]
      intro hZero
      obtain hCascaded | ⟨-, hCounts⟩ := counts_iff.1 (h.counts_of_zero hZero hArc)
      · exact h.apart _ hCascaded (h.entered _ hSource)
      · rw [h.marksArc_eq hVisit, hMarks] at hCounts
        cases hCounts

theorem target_unresolved (h : b.Balanced R O hAcyclic) (hVisits : b.visits = visit :: rest)
    (hResolved : b.entered n ∨ n ∈ b.cascaded) : n ≠ visit.target := by
  rintro rfl
  exact (h.pending_pos hVisits).ne' (h.settled _ hResolved)

theorem known_kept (h : b.Balanced R O hAcyclic) (hVisits : b.visits = visit :: rest)
    (value : Option Json) (hResolved : n ∈ b.completed ∨ n ∈ b.cascaded) :
    Function.update b.known visit.target value n = b.known n :=
  Function.update_of_ne (h.target_unresolved hVisits (hResolved.imp_left (h.entered n))) _ _

/-- A visit that counts its edge is none of those that are still to mark their targets. -/
theorem marks_rest (h : b.Balanced R O hAcyclic) (hVisits : b.visits = visit :: rest)
    (hMarks : R.marks visit = false) (hp : p ∈ b.completed) (hArc : R.graph.Arc p n)
    (hMarksArc : R.marksArc O b.known p n = true) :
    b.known n = some skippedMark ∨ ∃ visit ∈ rest, visit.source = p ∧ visit.target = n := by
  refine (h.marks p hp n hArc hMarksArc).imp_right ?_
  rintro ⟨other, hIn, rfl, rfl⟩
  have hMarked := h.marksArc_eq hIn
  rw [hVisits] at hIn
  refine ⟨other, (List.mem_cons.1 hIn).resolve_left ?_, rfl, rfl⟩
  rintro rfl
  rw [hMarksArc, hMarks] at hMarked
  cases hMarked

theorem mark_extended (h : b.Balanced R O hAcyclic) (hVisits : b.visits = visit :: rest) :
    b.Extended (b.mark visit.target rest) :=
  ⟨fun _ => id, List.Subset.refl _, List.Subset.refl _, fun _ => h.known_kept hVisits _⟩

theorem pass_extended (h : b.Balanced R O hAcyclic) (hVisits : b.visits = visit :: rest) :
    b.Extended (b.pass R visit.target rest) :=
  ⟨fun _ => id, List.Subset.refl _, List.subset_cons_self _ _, fun _ => h.known_kept hVisits _⟩

theorem conclude_extended (h : b.Balanced R O hAcyclic) {idx : NodeIndex} {mode : Completion}
    {value : Json} (hEntered : b.entered idx) (hFresh : idx ∉ b.completed) :
    b.Extended (b.conclude R idx mode value) := by
  refine ⟨fun _ => id, List.subset_cons_self _ _, List.Subset.refl _, fun n hn => ?_⟩
  refine Function.update_of_ne ?_ _ _
  rintro rfl
  exact hn.elim hFresh fun hPassed => h.apart n hPassed hEntered

theorem mark (h : b.Balanced R O hAcyclic) (hVisits : b.visits = visit :: rest)
    (hMarks : R.marks visit = true) : (b.mark visit.target rest).Balanced R O hAcyclic := by
  have hVisit : visit ∈ b.visits := hVisits ▸ List.mem_cons_self
  obtain ⟨hSource, hArc, -⟩ := h.visits visit hVisit
  have hExtended := h.mark_extended hVisits
  have hKept : ∀ p ∈ b.completed, ∀ n, R.marksArc O (b.mark visit.target rest).known p n =
      R.marksArc O b.known p n := fun p hp n => h.marksArc_kept hExtended hp
  refine h.extend hExtended (fun n hn => .inl hn) (fun n hn => .inl hn) (fun n hn => .inl hn)
    h.apart h.settled (fun n => ?_) (fun n v hKnown _ _ => ?_) (fun p hp n hpn hMarksArc => ?_)
    (fun v hv => .inl ?_) fun n _ _ hZero => .inl hZero
  · rw [uncounted_eq h hExtended rfl rfl]
    have hBalanced := h.balanced n
    rw [coming_cons hVisits, if_neg (by simp [hMarks])] at hBalanced
    exact hBalanced
  · rw [mark_known] at hKnown
    obtain rfl | hOther := eq_or_ne n visit.target
    · rw [Function.update_self, Option.some.injEq] at hKnown
      refine .inr ⟨hKnown.symm, visit.source, hArc, hSource, ?_⟩
      rw [hKept _ hSource, h.marksArc_eq hVisit]
      exact hMarks
    · rw [Function.update_of_ne hOther] at hKnown
      exact .inl hKnown
  · rw [hKept p hp] at hMarksArc
    rw [mark_known]
    obtain rfl | hOther := eq_or_ne n visit.target
    · exact .inl (Function.update_self ..)
    · rw [Function.update_of_ne hOther]
      refine (h.marks p hp n hpn hMarksArc).imp_right ?_
      rintro ⟨other, hIn, rfl, rfl⟩
      rw [hVisits] at hIn
      refine ⟨other, (List.mem_cons.1 hIn).resolve_left ?_, rfl, rfl⟩
      rintro rfl
      exact hOther rfl
  · rw [hVisits]
    exact List.mem_cons_of_mem visit hv

theorem count (h : b.Balanced R O hAcyclic) (hVisits : b.visits = visit :: rest)
    (hMarks : R.marks visit = false) (hMany : 1 < b.pending visit.target) :
    (b.count visit.target rest).Balanced R O hAcyclic := by
  have hExtended := count_extended b visit.target rest
  refine h.extend hExtended (fun n hn => .inl hn) (fun n hn => .inl hn) (fun n hn => .inl hn)
    h.apart (fun n hn => ?_) (fun n => ?_) (fun n v hKnown _ _ => .inl hKnown)
    (fun p hp n hpn hMarksArc => ?_) (fun v hv => .inl ?_) fun n _ _ hZero => .inl ?_
  · rw [count_pending, Function.update_of_ne (h.target_unresolved hVisits hn)]
    exact h.settled n hn
  · rw [uncounted_eq h hExtended rfl rfl]
    have hBalanced := h.balanced n
    rw [coming_cons hVisits] at hBalanced
    rw [coming, count_pending, count_visits]
    obtain rfl | hOther := eq_or_ne n visit.target
    · rw [if_pos ⟨hMarks, rfl⟩] at hBalanced
      rw [Function.update_self]
      omega
    · rw [if_neg fun hBoth => hOther hBoth.2] at hBalanced
      rw [Function.update_of_ne hOther]
      exact hBalanced
  · exact h.marks_rest hVisits hMarks hp hpn hMarksArc
  · rw [hVisits]
    exact List.mem_cons_of_mem visit hv
  · rw [count_pending] at hZero
    obtain rfl | hOther := eq_or_ne n visit.target
    · rw [Function.update_self] at hZero
      omega
    · rwa [Function.update_of_ne hOther] at hZero

theorem enter (h : b.Balanced R O hAcyclic) (hVisits : b.visits = visit :: rest)
    (hMarks : R.marks visit = false) (hLast : b.pending visit.target ≤ 1)
    (hDecided : b.Decided R O hAcyclic true visit.target) :
    (b.enter visit.target rest).Balanced R O hAcyclic := by
  have hPos := h.pending_pos hVisits
  have hExtended := enter_extended b visit.target rest
  have hLength : visit.target < R.graph.nodes.length :=
    (h.visits visit (hVisits ▸ List.mem_cons_self)).2.1.target_lt
  refine h.extend hExtended (fun n hn => hn.imp_right ?_) (fun n hn => .inl hn)
    (fun n hn => .inl hn) (fun n hn hIn => ?_) (fun n hn => ?_) (fun n => ?_)
    (fun n v hKnown _ _ => .inl hKnown)
    (fun p hp n hpn hMarksArc => h.marks_rest hVisits hMarks hp hpn hMarksArc)
    (fun v hv => .inl ?_) fun n _ _ hZero => ?_
  · rintro rfl
    exact ⟨hLength, h.decided_kept hExtended hDecided⟩
  · obtain hIn | rfl := hIn
    · exact h.apart n hn hIn
    · exact h.target_unresolved hVisits (.inr hn) rfl
  · rw [enter_pending]
    obtain rfl | hOther := eq_or_ne n visit.target
    · exact Function.update_self ..
    · rw [Function.update_of_ne hOther]
      exact h.settled n (hn.imp_left fun hIn => hIn.resolve_right hOther)
  · rw [uncounted_eq h hExtended rfl rfl]
    have hBalanced := h.balanced n
    rw [coming_cons hVisits] at hBalanced
    rw [coming, enter_pending, enter_visits]
    obtain rfl | hOther := eq_or_ne n visit.target
    · rw [if_pos ⟨hMarks, rfl⟩] at hBalanced
      rw [Function.update_self]
      omega
    · rw [if_neg fun hBoth => hOther hBoth.2] at hBalanced
      rw [Function.update_of_ne hOther]
      exact hBalanced
  · rw [hVisits]
    exact List.mem_cons_of_mem visit hv
  · rw [enter_pending] at hZero
    obtain rfl | hOther := eq_or_ne n visit.target
    · exact .inr (.inl (.inr rfl))
    · rw [Function.update_of_ne hOther] at hZero
      exact .inl hZero

/-- A skipped node counts its own edges, and makes none of its successors ready. -/
theorem pass (h : b.Balanced R O hAcyclic) (hVisits : b.visits = visit :: rest)
    (hMarks : R.marks visit = false) (hLast : b.pending visit.target ≤ 1)
    (hDecided : b.Decided R O hAcyclic false visit.target) :
    (b.pass R visit.target rest).Balanced R O hAcyclic := by
  have hPos := h.pending_pos hVisits
  have hExtended := h.pass_extended hVisits
  have hNew : ∀ n, b.counts R O visit.target n = false := by
    intro n
    rw [← Bool.not_eq_true, counts_iff]
    rintro (hCascaded | ⟨hCompleted, -⟩)
    · exact h.target_unresolved hVisits (.inr hCascaded) rfl
    · exact h.target_unresolved hVisits (.inl (h.entered _ hCompleted)) rfl
  have hCounts : ∀ n, (b.pass R visit.target rest).counts R O visit.target n = true := fun n =>
    counts_iff.2 (.inl List.mem_cons_self)
  have hOld : ∀ p n, p ≠ visit.target →
      (b.pass R visit.target rest).counts R O p n = b.counts R O p n := by
    intro p n hne
    rw [Bool.eq_iff_iff, counts_iff, counts_iff]
    simp only [pass_cascaded, pass_completed, List.mem_cons, hne, false_or]
    refine or_congr_right (and_congr_right fun hp => ?_)
    rw [h.marksArc_kept hExtended hp]
  have hUncounted : ∀ n, (b.pass R visit.target rest).uncounted R O n +
      (R.graph.successors visit.target).count n = b.uncounted R O n := by
    intro n
    rw [count_successors_eq_count_predecessors]
    exact countP_new (hNew n) (hCounts n) fun p => hOld p n
  have hSelf : (R.graph.successors visit.target).count visit.target = 0 := by
    rw [List.count_eq_zero, mem_successors]
    exact hAcyclic.not_arc_self _
  have hBalanced : ∀ n, (b.pass R visit.target rest).pending n =
      (b.pass R visit.target rest).uncounted R O n + (b.pass R visit.target rest).coming R n := by
    intro n
    have hBefore := h.balanced n
    have hEdges := hUncounted n
    rw [coming_cons hVisits] at hBefore
    rw [coming, pass_pending, pass_visits]
    obtain rfl | hOther := eq_or_ne n visit.target
    · rw [if_pos ⟨hMarks, rfl⟩] at hBefore
      rw [Function.update_self]
      omega
    · rw [if_neg fun hBoth => hOther hBoth.2] at hBefore
      rw [Function.update_of_ne hOther]
      omega
  refine h.extend hExtended (fun n hn => .inl hn) (fun n hn => .inl hn)
    (fun n hn => (List.mem_cons.1 hn).symm.imp_right ?_) (fun n hn hIn => ?_) (fun n hn => ?_)
    hBalanced (fun n v hKnown _ hNot => .inl ?_) (fun p hp n hpn hMarksArc => ?_)
    (fun v hv => .inl ?_) fun n hLength hDegree hZero => ?_
  · rintro rfl
    exact ⟨Function.update_self .., h.decided_kept hExtended hDecided⟩
  · obtain rfl | hn := List.mem_cons.1 hn
    · exact h.target_unresolved hVisits (.inl hIn) rfl
    · exact h.apart n hn hIn
  · rw [pass_pending]
    obtain rfl | hOther := eq_or_ne n visit.target
    · rw [Function.update_self, Nat.zero_sub]
    · have hOldResolved : b.entered n ∨ n ∈ b.cascaded :=
        hn.imp_right fun hIn => (List.mem_cons.1 hIn).resolve_left hOther
      rw [Function.update_of_ne hOther, h.settled n hOldResolved, Nat.zero_sub]
  · rw [pass_known, Function.update_of_ne] at hKnown
    · exact hKnown
    · rintro rfl
      exact hNot List.mem_cons_self
  · rw [h.marksArc_kept hExtended hp] at hMarksArc
    rw [pass_known]
    obtain rfl | hOther := eq_or_ne n visit.target
    · exact .inl (Function.update_self ..)
    · rw [Function.update_of_ne hOther]
      exact h.marks_rest hVisits hMarks hp hpn hMarksArc
  · rw [hVisits]
    exact List.mem_cons_of_mem visit hv
  · obtain rfl | hOther := eq_or_ne n visit.target
    · exact .inr (.inr (.inl List.mem_cons_self))
    · by_cases hChild : R.graph.Arc visit.target n
      · -- The last edge came from the skipped node, so no other parent lies behind it.
        refine .inr (.inr (.inr ⟨visit.target, hChild, List.mem_cons_self, fun q hq => ?_⟩))
        rw [← Bool.not_eq_true]
        intro hPrecedes
        have hPath := transGen_of_reaches hPrecedes
        have hNone := hBalanced n
        rw [hZero] at hNone
        have hq' : (b.pass R visit.target rest).counts R O q n = true := by
          have hUncountedZero : (b.pass R visit.target rest).uncounted R O n = 0 := by omega
          rw [uncounted, List.countP_eq_zero] at hUncountedZero
          simpa using hUncountedZero q ((mem_predecessors _).2 hq)
        have hne : q ≠ visit.target := by
          rintro rfl
          exact hAcyclic _ hPath
        rw [hOld q n hne, counts_iff] at hq'
        have hAbove := h.resolved_above (hq'.symm.imp_left And.left) hPath
        exact h.target_unresolved hVisits (hAbove.imp_left (h.entered _)) rfl
      · rw [pass_pending, Function.update_of_ne hOther, List.count_eq_zero.2, Nat.sub_zero] at hZero
        · exact .inl hZero
        · rw [mem_successors]
          exact hChild

/-- The edges of a completed node are all to be visited, but those that it marks are not counted. -/
theorem conclude (h : b.Balanced R O hAcyclic) {idx : NodeIndex} {mode : Completion} {value : Json}
    (hVisits : b.visits = []) (hEntered : b.entered idx) (hFresh : idx ∉ b.completed)
    (hVerdict : R.verdict O b.known idx = some (mode, value)) :
    (b.conclude R idx mode value).Balanced R O hAcyclic := by
  have hNotPassed : idx ∉ b.cascaded := fun hPassed => h.apart idx hPassed hEntered
  have hKnown : ∀ n, n ≠ idx → (b.conclude R idx mode value).known n = b.known n := fun n hne =>
    Function.update_of_ne hne _ _
  have hExtended : b.Extended (b.conclude R idx mode value) := h.conclude_extended hEntered hFresh
  have hVerdict' : R.verdict O (b.conclude R idx mode value).known idx = some (mode, value) := by
    rw [h.verdict_kept hExtended hEntered]
    exact hVerdict
  have hMarksArc : ∀ n, R.marksArc O (b.conclude R idx mode value).known idx n =
      R.marks ⟨mode, idx, n⟩ := by
    intro n
    rw [Reactor.marksArc, hVerdict']
    rfl
  have hOld : ∀ p n, p ≠ idx →
      (b.conclude R idx mode value).counts R O p n = b.counts R O p n := by
    intro p n hne
    rw [Bool.eq_iff_iff, counts_iff, counts_iff]
    simp only [conclude_cascaded, conclude_completed, List.mem_cons, hne, false_or]
    refine or_congr_right (and_congr_right fun hp => ?_)
    rw [h.marksArc_kept hExtended hp]
  have hNew : ∀ n, b.counts R O idx n = false := by
    intro n
    rw [← Bool.not_eq_true, counts_iff]
    exact fun hCounts => hCounts.elim hNotPassed fun hBoth => hFresh hBoth.1
  refine h.extend hExtended (fun n hn => .inl hn)
    (fun n hn => (List.mem_cons.1 hn).symm.imp_right ?_) (fun n hn => .inl hn) h.apart h.settled
    (fun n => ?_) (fun n v hValue hNot _ => .inl ?_) (fun p hp n hpn hMarks => ?_)
    (fun v hv => .inr ?_) fun n _ _ hZero => .inl hZero
  · rintro rfl
    exact ⟨hEntered, _, hVerdict', Function.update_self ..⟩
  · have hBefore := h.balanced n
    have hComing : (b.conclude R idx mode value).coming R n =
        if R.marks ⟨mode, idx, n⟩ = false then (R.graph.successors idx).count n else 0 := by
      rw [coming, conclude_visits, List.countP_map]
      split
      · rename_i hMarks
        refine List.countP_congr fun child _ => ?_
        simp only [Function.comp, Bool.and_eq_true, Bool.not_eq_true', decide_eq_true_eq,
          beq_iff_eq, and_iff_right_iff_imp]
        rintro rfl
        exact hMarks
      · rename_i hMarks
        rw [List.countP_eq_zero]
        intro child _ hChild
        simp only [Function.comp, Bool.and_eq_true, Bool.not_eq_true', decide_eq_true_eq] at hChild
        obtain ⟨hCounts, rfl⟩ := hChild
        exact hMarks hCounts
    rw [coming, hVisits, List.countP_nil] at hBefore
    rw [hComing, conclude_pending]
    split
    · rename_i hMarks
      have hEdges : (b.conclude R idx mode value).uncounted R O n +
          (R.graph.successors idx).count n = b.uncounted R O n := by
        rw [count_successors_eq_count_predecessors]
        refine countP_new (hNew n) ?_ fun p => hOld p n
        rw [counts_iff, hMarksArc]
        exact .inr ⟨List.mem_cons_self, hMarks⟩
      omega
    · rename_i hMarks
      have hEdges : (b.conclude R idx mode value).uncounted R O n = b.uncounted R O n := by
        refine List.countP_congr fun p _ => ?_
        obtain rfl | hne := eq_or_ne p idx
        · have hSame : (b.conclude R p mode value).counts R O p n = false := by
            rw [← Bool.not_eq_true, counts_iff, hMarksArc]
            exact fun hCounts => hCounts.elim hNotPassed fun hBoth => hMarks hBoth.2
          rw [hSame, hNew n]
        · rw [hOld p n hne]
      omega
  · rw [hKnown n] at hValue
    · exact hValue
    · rintro rfl
      exact hNot List.mem_cons_self
  · obtain rfl | hBefore := List.mem_cons.1 hp
    · refine .inr ⟨⟨mode, p, n⟩, ?_, rfl, rfl⟩
      rw [conclude_visits, List.mem_map]
      exact ⟨n, (mem_successors _).2 hpn, rfl⟩
    · rw [h.marksArc_kept hExtended hBefore] at hMarks
      have hne : n ≠ idx := by
        rintro rfl
        obtain hCascaded | ⟨-, hPasses⟩ :=
          counts_iff.1 (h.counts_of_zero (h.settled n (.inl hEntered)) hpn)
        · exact h.apart p hCascaded (h.entered p hBefore)
        · rw [hMarks] at hPasses
          cases hPasses
      rw [hKnown n hne]
      obtain hMark | ⟨visit, hVisit, -⟩ := h.marks p hBefore n hpn hMarks
      · exact .inl hMark
      · rw [hVisits] at hVisit
        cases hVisit
  · rw [conclude_visits, List.mem_map] at hv
    obtain ⟨child, hChild, rfl⟩ := hv
    exact ⟨List.mem_cons_self, (mem_successors _).1 hChild, value, hVerdict'⟩

end Balanced

end Visits

end Books

end TalosWorkflow
