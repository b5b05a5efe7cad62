import Mathlib.Logic.Relation
import Mathlib.Order.WellFounded

/-!
# Dataflow graphs

A node is entered when all of its arcs have been counted and the arc counted
last admits it; otherwise it is passed over. What becomes of the nodes does not
depend on the order in which the arcs are counted, as long as the arcs that may
be counted last agree with each other.
-/

namespace TalosWorkflow

universe u v

/-- The rules of a dataflow graph. The arc from a node that lies before another one is never
counted last of the two. -/
structure Flow (ν : Type u) (β : Type v) where
  node : ν → Prop
  arc : ν → ν → Prop
  before : ν → ν → Prop
  /-- The value of a released node. -/
  value : (ν → Option β) → ν → Option β
  /-- A released node blocks the arcs that are not counted, and marks their targets. -/
  blocks : (ν → Option β) → ν → ν → Prop
  admits : (ν → Option β) → ν → ν → Prop
  mark : β
  asymm : ∀ {p q}, before p q → ¬ before q p
  value_congr : ∀ {φ ψ p}, (∀ q, arc q p → φ q = ψ q) → value φ p = value ψ p
  blocks_congr : ∀ {φ ψ p}, (∀ q, arc q p → φ q = ψ q) → blocks φ p = blocks ψ p
  admits_congr : ∀ {φ ψ p}, (∀ q, arc q p → φ q = ψ q) → admits φ p = admits ψ p

structure Account (ν : Type u) (β : Type v) where
  entered : ν → Prop
  released : ν → Prop
  passed : ν → Prop
  value : ν → Option β

namespace Account

variable {ν : Type u} {β : Type v}

def Counted (F : Flow ν β) (a : Account ν β) (p n : ν) : Prop :=
  a.passed p ∨ a.released p ∧ ¬ F.blocks a.value p n

/-- The arcs into a node that may be counted after the one from `p` all come from released nodes
that decide as `p` does. -/
def Agree (F : Flow ν β) (a : Account ν β) (p n : ν) : Prop :=
  ∀ q, F.arc q n → ¬ F.before q p → a.released q ∧ (F.admits a.value q n ↔ F.admits a.value p n)

structure Sound (F : Flow ν β) (a : Account ν β) : Prop where
  nodes : ∀ {n}, a.entered n → F.node n
  entered : ∀ {n}, a.released n → a.entered n
  apart : ∀ {n}, a.passed n → ¬ a.entered n
  released : ∀ {n}, a.released n → ∃ v, a.value n = some v ∧ F.value a.value n = some v
  passed : ∀ {n}, a.passed n → a.value n = some F.mark
  marked : ∀ {n v}, a.value n = some v → ¬ a.released n → ¬ a.passed n →
    v = F.mark ∧ ∃ p, F.arc p n ∧ a.released p ∧ F.blocks a.value p n
  counted : ∀ {p n}, a.entered n ∨ a.passed n → F.arc p n → Counted F a p n
  opened : ∀ {p n}, a.entered n → F.arc p n →
    ∃ p, F.arc p n ∧ a.released p ∧ F.admits a.value p n ∧ Agree F a p n
  closed : ∀ {n}, a.passed n →
    ∃ p, F.arc p n ∧ a.released p ∧ ¬ F.admits a.value p n ∧ Agree F a p n

/-- Nothing is left to do but for nodes that have no value. -/
structure Complete (F : Flow ν β) (a : Account ν β) : Prop extends Sound F a where
  finished : ∀ {n}, a.entered n → a.released n ∨ F.value a.value n = none
  roots : ∀ {n}, F.node n → (∀ p, ¬ F.arc p n) → a.entered n
  marks : ∀ {p n}, a.released p → F.arc p n → F.blocks a.value p n → a.value n = some F.mark
  /-- A node whose arcs are all counted is stuck only where a passed node was counted last. -/
  filled : ∀ {q n}, F.arc q n → (∀ p, F.arc p n → Counted F a p n) → a.entered n ∨ a.passed n ∨
    ∃ p, F.arc p n ∧ a.passed p ∧ ∀ q, F.arc q n → ¬ F.before p q

/-- What one account says of a node, the other one says as well. -/
structure LeAt (a c : Account ν β) (n : ν) : Prop where
  entered : a.entered n → c.entered n
  passed : a.passed n → c.passed n
  value : ∀ {v}, a.value n = some v → c.value n = some v

variable {F : Flow ν β} {a c : Account ν β} {n p q : ν}

section Comparison

theorem Counted.value (hSound : Sound F a) (h : Counted F a p n) : ∃ v, a.value p = some v := by
  obtain hPassed | ⟨hReleased, -⟩ := h
  · exact ⟨_, hSound.passed hPassed⟩
  · obtain ⟨v, hValue, -⟩ := hSound.released hReleased
    exact ⟨v, hValue⟩

/-- The arcs into an entered node have not marked it. -/
theorem Sound.value_eq_none (hSound : Sound F a) (hEntered : a.entered n)
    (hHeld : ¬ a.released n) : a.value n = none := by
  by_contra hSome
  obtain ⟨v, hValue⟩ := Option.ne_none_iff_exists'.1 hSome
  have hNotPassed : ¬ a.passed n := fun hPassed => hSound.apart hPassed hEntered
  obtain ⟨-, p, hArc, hReleased, hBlocks⟩ := hSound.marked hValue hHeld hNotPassed
  obtain hPassed | ⟨-, hPasses⟩ := hSound.counted (.inl hEntered) hArc
  · exact hSound.apart hPassed (hSound.entered hReleased)
  · exact hPasses hBlocks

/-- A released node reads the same values in a larger account. -/
theorem values_eq (hSound : Sound F a) (hEntered : a.entered n)
    (h : ∀ p, F.arc p n → LeAt a c p) : ∀ p, F.arc p n → a.value p = c.value p := by
  intro p hArc
  obtain ⟨v, hValue⟩ := (hSound.counted (.inl hEntered) hArc).value hSound
  rw [hValue, (h p hArc).value hValue]

section Node

variable (hSound : Sound F a) (hComplete : Complete F c)
  (h : ∀ m, Relation.TransGen F.arc m n → LeAt a c m)

include hSound hComplete h

/-- A node that is released in the smaller account has a value in both. -/
theorem released_of_entered (hReleased : a.released n) (hEntered : c.entered n) :
    c.released n := by
  refine (hComplete.finished hEntered).resolve_right fun hNone => ?_
  obtain ⟨v, -, hRule⟩ := hSound.released hReleased
  have hValues := values_eq hSound (hSound.entered hReleased) fun p hp => h p (.single hp)
  rw [F.value_congr hValues, hNone] at hRule
  cases hRule

theorem released_above (hArc : F.arc p n) (hReleased : a.released p) : c.released p ∧
    F.blocks a.value p = F.blocks c.value p ∧ F.admits a.value p = F.admits c.value p := by
  have hEntered := hSound.entered hReleased
  have hAbove : ∀ m, Relation.TransGen F.arc m p → LeAt a c m := fun m hm => h m (hm.tail hArc)
  have hValues : ∀ q, F.arc q p → a.value q = c.value q :=
    values_eq hSound hEntered fun q hq => hAbove q (.single hq)
  exact ⟨released_of_entered hSound hComplete hAbove hReleased
    ((h p (.single hArc)).entered hEntered), F.blocks_congr hValues, F.admits_congr hValues⟩

theorem counted_above (hArc : F.arc p n) (hCounted : Counted F a p n) : Counted F c p n := by
  obtain hPassed | ⟨hReleased, hPasses⟩ := hCounted
  · exact .inl ((h p (.single hArc)).passed hPassed)
  · obtain ⟨hAbove, hBlocks, -⟩ := released_above hSound hComplete h hArc hReleased
    exact .inr ⟨hAbove, hBlocks ▸ hPasses⟩

/-- Two arcs that were counted last in two accounts decide alike. -/
theorem admits_iff_of_agree (hp : F.arc p n) (hq : F.arc q n) (hReleased : a.released p)
    (hAgree : Agree F a p n) (hAgree' : Agree F c q n) :
    F.admits a.value p n ↔ F.admits c.value q n := by
  obtain ⟨-, -, hSame⟩ := released_above hSound hComplete h hp hReleased
  rcases Classical.em (F.before q p) with hBefore | hBefore
  · rw [hSame]
    exact (hAgree' p hp (F.asymm hBefore)).2
  · obtain ⟨hOther, hIff⟩ := hAgree q hq hBefore
    obtain ⟨-, -, hSame'⟩ := released_above hSound hComplete h hq hOther
    rw [← hSame']
    exact hIff.symm

/-- Where the arcs that may be counted last agree, no node is stuck. -/
theorem decided_above (hArc : F.arc p n) (hResolved : a.entered n ∨ a.passed n)
    (hAgree : Agree F a p n) : c.entered n ∨ c.passed n := by
  have hCounted : ∀ q, F.arc q n → Counted F c q n := fun q hq =>
    counted_above hSound hComplete h hq (hSound.counted hResolved hq)
  obtain hEntered | hPassed | ⟨q, hq, hPassed, hLast⟩ := hComplete.filled hArc hCounted
  · exact .inl hEntered
  · exact .inr hPassed
  · obtain ⟨hReleased, -⟩ := hAgree q hq (hLast p hArc)
    obtain ⟨hAbove, -, -⟩ := released_above hSound hComplete h hq hReleased
    exact absurd (hComplete.entered hAbove) (hComplete.apart hPassed)

theorem leAt_of_above : LeAt a c n := by
  have hEntered : a.entered n → c.entered n := by
    intro hEntered
    by_cases hRoot : ∃ p, F.arc p n
    · obtain ⟨p, hp⟩ := hRoot
      obtain ⟨p, hp, hReleased, hAdmits, hAgree⟩ := hSound.opened hEntered hp
      obtain hIn | hPassed := decided_above hSound hComplete h hp (.inl hEntered) hAgree
      · exact hIn
      · obtain ⟨q, hq, -, hHolds, hAgree'⟩ := hComplete.closed hPassed
        exact absurd ((admits_iff_of_agree hSound hComplete h hp hq hReleased hAgree hAgree').1
          hAdmits) hHolds
    · exact hComplete.roots (hSound.nodes hEntered) (not_exists.1 hRoot)
  have hPassed : a.passed n → c.passed n := by
    intro hPassed
    obtain ⟨p, hp, hReleased, hHolds, hAgree⟩ := hSound.closed hPassed
    obtain hIn | hOver := decided_above hSound hComplete h hp (.inr hPassed) hAgree
    · obtain ⟨q, hq, -, hAdmits, hAgree'⟩ := hComplete.opened hIn hp
      exact absurd ((admits_iff_of_agree hSound hComplete h hp hq hReleased hAgree hAgree').2
        hAdmits) hHolds
    · exact hOver
  refine ⟨hEntered, hPassed, fun {v} hValue => ?_⟩
  by_cases hReleased : a.released n
  · have hIn := hSound.entered hReleased
    obtain ⟨w, hSame, hRule⟩ := hSound.released hReleased
    obtain ⟨w', hAbove, hRule'⟩ :=
      hComplete.released (released_of_entered hSound hComplete h hReleased (hEntered hIn))
    have hValues := values_eq hSound hIn fun p hp => h p (.single hp)
    rw [← F.value_congr hValues, hRule] at hRule'
    rw [hAbove, ← hRule', ← hSame, hValue]
  · by_cases hOver : a.passed n
    · rw [hComplete.passed (hPassed hOver), ← hSound.passed hOver, hValue]
    · obtain ⟨rfl, p, hp, hSource, hBlocks⟩ := hSound.marked hValue hReleased hOver
      obtain ⟨hAbove, hSame, -⟩ := released_above hSound hComplete h hp hSource
      exact hComplete.marks hAbove hp (hSame ▸ hBlocks)

end Node

/-- A complete account says all that any sound account says. -/
theorem Sound.le (hArc : WellFounded F.arc) (hSound : Sound F a) (hComplete : Complete F c)
    (n : ν) : LeAt a c n := by
  induction n using hArc.transGen.induction with
  | _ n ih => exact leAt_of_above hSound hComplete ih

end Comparison

theorem Sound.released_le (hArc : WellFounded F.arc) (hSound : Sound F a)
    (hComplete : Complete F c) (hReleased : a.released n) : c.released n :=
  released_of_entered hSound hComplete (fun m _ => hSound.le hArc hComplete m) hReleased
    ((hSound.le hArc hComplete n).entered (hSound.entered hReleased))

section Complete

variable (hArc : WellFounded F.arc) (hFirst : Complete F a) (hSecond : Complete F c)

include hArc hFirst hSecond

theorem Complete.entered_iff (n : ν) : a.entered n ↔ c.entered n :=
  ⟨(hFirst.le hArc hSecond n).entered, (hSecond.le hArc hFirst n).entered⟩

theorem Complete.released_iff (n : ν) : a.released n ↔ c.released n :=
  ⟨hFirst.released_le hArc hSecond, hSecond.released_le hArc hFirst⟩

theorem Complete.value_eq (n : ν) : a.value n = c.value n := by
  cases hValue : a.value n with
  | some v => exact ((hFirst.le hArc hSecond n).value hValue).symm
  | none =>
      cases hOther : c.value n with
      | none => rfl
      | some v =>
          rw [(hSecond.le hArc hFirst n).value hOther] at hValue
          cases hValue

end Complete

end Account

end TalosWorkflow
