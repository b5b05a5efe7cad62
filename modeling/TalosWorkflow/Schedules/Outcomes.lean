import TalosWorkflow.Gating.Results
import TalosWorkflow.Library.Dataflow

/-!
# Outcomes

Runs in which every module and every handler is a function of the input that
its node gathers.
-/

namespace TalosWorkflow

open Multigraph

variable {H : Host}

deriving instance DecidableEq for Answer

/-- What is made of the input that a node gathers: whether the node is skipped, and the answer of
its handler or module. -/
structure Outcomes where
  skip : NodeIndex → Json → Option Json
  answer : NodeIndex → Json → Answer

def Answer.ofResult : Except String Json → Answer
  | .ok value => .output value
  | .error message => .error message

def Answer.value : Answer → Option Json
  | .output value => some value
  | _ => none

def Answer.values : Answer → List Json
  | .outputs values => values
  | _ => []

section Definitions

variable (R : Reactor H) (O : Outcomes)

def Reactor.known (results : Table Json) (n : NodeIndex) : Option Json :=
  (R.graph.nodes[n]?).bind results.lookup

def Reactor.parents (known : NodeIndex → Option Json) (n : NodeIndex) : List (Uuid × Json) :=
  (R.graph.predecessors n).filterMap fun p => (known p).map fun output => (R.nodeId p, output)

def Reactor.gathered (known : NodeIndex → Option Json) (n : NodeIndex) : Json :=
  R.gatherParents (R.parents known n)

def Reactor.answerVerdict (n : NodeIndex) (answer : Answer) : Option (Completion × Json) :=
  if R.runsModule n then
    match answer with
    | .output value => R.resultVerdict n (.ok value)
    | .error message => R.resultVerdict n (.error message)
    | _ => none
  else if R.isSubWorkflowNode n then answer.value.map fun value => (.unblocks, value)
  else R.handlerVerdict n (R.kindOf (R.nodeId n)) answer

/-- How a node is completed, given the results that are known. -/
def Reactor.verdict (known : NodeIndex → Option Json) (n : NodeIndex) :
    Option (Completion × Json) :=
  match O.skip n (R.gathered known n) with
  | some output => some (.unblocks, output)
  | none => R.answerVerdict n (O.answer n (R.gathered known n))

/-- The edge is not counted, and its target is recorded as skipped. -/
def Reactor.marksArc (known : NodeIndex → Option Json) (p n : NodeIndex) : Bool :=
  (R.verdict O known p).any fun verdict => R.marks ⟨verdict.1, p, n⟩

def Reactor.admitsArc (known : NodeIndex → Option Json) (p n : NodeIndex) : Bool :=
  ((R.verdict O known p).bind (·.1.output)).all fun output => !R.edgeConditionFailed p n output

/-- The answer of a popped node is the one that its outcome gives. -/
def Reactor.answers (s : State) (idx : NodeIndex) (answer : Answer) : Prop :=
  if R.runsModule idx then answer = .accepted
  else if R.isSubWorkflowNode idx then
    ((idx :: s.ready.tail.filter R.isSubWorkflowNode).map fun n =>
      (O.answer n (R.gathered (R.known s.results) n)).value) = answer.values.map some
  else answer = O.answer idx (R.gathered (R.known s.results) idx)

/-- The future returns what the outcome of its node gives for the input of the dispatch. -/
def Flight.returns (result : Except String Json) : Flight → Prop
  | .single idx parents => Answer.ofResult result = O.answer idx (R.gatherParents parents)
  | .chain .. => True

/-- What the step is told comes from the outcomes. -/
def Follows (s : State) : Action → Prop
  | .visit => True
  | .store => True
  | .pop answer =>
      (∀ n ∈ R.leaving s (.pop answer), R.skips s n = O.skip n (R.gathered (R.known s.results) n)) ∧
        ∀ idx ∈ s.ready.head?, R.skips s idx = none → R.answers O s idx answer
  | .finish position result _ => ∀ flight ∈ s.executing[position]?, flight.returns R O result

/-- The nodes of an earlier run that are given, and those that are complete since then. -/
def completedNodes (given : List NodeIndex) (s : State) : List NodeIndex :=
  releasedNodes s.history ++ given

/-- The edges that may be counted last into a node that becomes ready or is skipped now come from
completed nodes and decide alike. -/
def Visit.unanimous (given : List NodeIndex) (s : State) (visit : Visit) : Prop :=
  R.marks visit = false → R.fillsNow s visit.target →
    ∀ q ∈ R.graph.predecessors visit.target, R.graph.precedes q visit.source = false →
      q ∈ completedNodes given s ∧ R.admitsArc O (R.known s.results) q visit.target =
        R.admitsArc O (R.known s.results) visit.source visit.target

/-- What becomes of a node does not depend on which of its predecessors is the last one, nor on
the batch in which it runs. -/
def Unanimous (given : List NodeIndex) (s : State) (action : Action) : Prop :=
  (action matches .visit → ∀ visit ∈ s.visits.head?, visit.unanimous R O given s) ∧
    ∀ n ∈ (R.leaving s action).tail, R.skips s n = none

end Definitions

section Instances

variable (R : Reactor H) (O : Outcomes)

instance (s : State) (idx : NodeIndex) (answer : Answer) : Decidable (R.answers O s idx answer) := by
  unfold Reactor.answers
  infer_instance

instance (result : Except String Json) : ∀ flight, Decidable (Flight.returns R O result flight)
  | .single idx parents =>
      inferInstanceAs (Decidable (Answer.ofResult result = O.answer idx (R.gatherParents parents)))
  | .chain .. => .isTrue trivial

instance (s : State) : ∀ action, Decidable (Follows R O s action)
  | .visit => .isTrue trivial
  | .store => .isTrue trivial
  | .pop answer => inferInstanceAs (Decidable ((∀ n ∈ R.leaving s (.pop answer),
      R.skips s n = O.skip n (R.gathered (R.known s.results) n)) ∧
        ∀ idx ∈ s.ready.head?, R.skips s idx = none → R.answers O s idx answer))
  | .finish position result _ =>
      inferInstanceAs (Decidable (∀ flight ∈ s.executing[position]?, flight.returns R O result))

instance (given : List NodeIndex) (s : State) (visit : Visit) :
    Decidable (visit.unanimous R O given s) := by
  unfold Visit.unanimous
  infer_instance

instance (given : List NodeIndex) (s : State) (action : Action) :
    Decidable (Unanimous R O given s action) := by
  unfold Unanimous
  infer_instance

end Instances

section Congruence

variable {R : Reactor H} {O : Outcomes} {φ ψ : NodeIndex → Option Json} {n p : NodeIndex}

theorem parents_congr (h : ∀ q, R.graph.Arc q n → φ q = ψ q) : R.parents φ n = R.parents ψ n := by
  apply List.filterMap_congr
  intro q hq
  rw [h q ((mem_predecessors _).1 hq)]

theorem gathered_congr (h : ∀ q, R.graph.Arc q n → φ q = ψ q) :
    R.gathered φ n = R.gathered ψ n := by
  rw [Reactor.gathered, Reactor.gathered, parents_congr h]

theorem verdict_congr (h : ∀ q, R.graph.Arc q n → φ q = ψ q) :
    R.verdict O φ n = R.verdict O ψ n := by
  rw [Reactor.verdict, Reactor.verdict, gathered_congr h]

theorem marksArc_congr (h : ∀ q, R.graph.Arc q p → φ q = ψ q) :
    R.marksArc O φ p = R.marksArc O ψ p := by
  funext n
  rw [Reactor.marksArc, Reactor.marksArc, verdict_congr h]

theorem admitsArc_congr (h : ∀ q, R.graph.Arc q p → φ q = ψ q) :
    R.admitsArc O φ p = R.admitsArc O ψ p := by
  funext n
  rw [Reactor.admitsArc, Reactor.admitsArc, verdict_congr h]

theorem known_eq {results : Table Json} (hn : n < R.graph.nodes.length) :
    R.known results n = results.lookup (R.nodeId n) := by
  rw [Reactor.known, ParallelWorkflowEngine.nodeId, List.getElem?_eq_getElem hn]
  rfl

theorem parents_known (results : Table Json) (n : NodeIndex) :
    R.parents (R.known results) n = R.parentOutputs n results := by
  apply List.filterMap_congr
  intro q hq
  rw [known_eq ((mem_predecessors _).1 hq).source_lt]

theorem known_insert (hIds : R.graph.nodes.Nodup) {results : Table Json} {a : NodeIndex}
    (ha : a < R.graph.nodes.length) (value : Json) :
    R.known (results.insert (R.nodeId a) value) =
      Function.update (R.known results) a (some value) := by
  funext n
  obtain rfl | hOther := eq_or_ne n a
  · rw [Function.update_self, known_eq ha, AList.lookup_insert]
  · rw [Function.update_of_ne hOther]
    cases hNode : R.graph.nodes[n]? with
    | none => rw [Reactor.known, Reactor.known, hNode, Option.bind_none, Option.bind_none]
    | some id =>
        have hn : n < R.graph.nodes.length := (List.getElem?_eq_some_iff.1 hNode).1
        rw [known_eq hn, known_eq hn, AList.lookup_insert_ne]
        exact fun hSame => hOther (nodeId_injective hIds hn ha hSame)

@[simps]
def Reactor.flow (R : Reactor H) (O : Outcomes) (hAcyclic : R.graph.Acyclic) :
    Flow NodeIndex Json where
  node n := n < R.graph.nodes.length
  arc := R.graph.Arc
  before p q := R.graph.precedes p q = true
  value φ n := (R.verdict O φ n).map (·.2)
  blocks φ p n := R.marksArc O φ p n = true
  admits φ p n := R.admitsArc O φ p n = true
  mark := skippedMark
  asymm h := Bool.eq_false_iff.1 (hAcyclic.not_precedes h)
  value_congr h := by rw [verdict_congr h]
  blocks_congr h := by rw [marksArc_congr h]
  admits_congr h := by rw [admitsArc_congr h]

end Congruence

end TalosWorkflow
