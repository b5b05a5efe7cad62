import Mathlib.Data.List.Chain
import Mathlib.Data.List.Infix
import Mathlib.Data.List.Nodup

/-!
# Lists along links

Lists whose consecutive members are linked, for links of which at most one leads
to each member. Such a list has no member twice if none leads to its head, and
two of them that share a member have one head.
-/

namespace TalosWorkflow

universe u

namespace Links

variable {α : Type u} {r : α → α → Prop}

def Joinless (r : α → α → Prop) : Prop := ∀ ⦃a b c⦄, r a c → r b c → a = b

def Source (r : α → α → Prop) (a : α) : Prop := ∀ b, ¬ r b a

def Sink (r : α → α → Prop) (a : α) : Prop := ∀ b, ¬ r a b

section Sources

variable {s t : α} {l m : List α} (hJoinless : Joinless r)

include hJoinless

/-- Going back from one member in two lists, both heads are reached at once. -/
theorem index_eq (hs : Source r s) (ht : Source r t) (hl : (s :: l).IsChain r)
    (hm : (t :: m).IsChain r) {i j : Nat} (hi : i < (s :: l).length) (hj : j < (t :: m).length)
    (hSame : (s :: l)[i] = (t :: m)[j]) : i = j ∧ s = t := by
  induction i generalizing j with
  | zero =>
      cases j with
      | zero => exact ⟨rfl, hSame⟩
      | succ j =>
          have hLink := List.isChain_iff_getElem.1 hm j hj
          rw [← hSame] at hLink
          exact absurd hLink (hs _)
  | succ i ih =>
      have hLink := List.isChain_iff_getElem.1 hl i hi
      cases j with
      | zero =>
          rw [hSame] at hLink
          exact absurd hLink (ht _)
      | succ j =>
          have hOther := List.isChain_iff_getElem.1 hm j hj
          rw [← hSame] at hOther
          obtain ⟨hIndex, hHead⟩ := ih (Nat.lt_of_succ_lt hi) (Nat.lt_of_succ_lt hj)
            (hJoinless hLink hOther)
          exact ⟨congrArg Nat.succ hIndex, hHead⟩

theorem nodup_of_source (hs : Source r s) (hl : (s :: l).IsChain r) : (s :: l).Nodup := by
  rw [List.nodup_iff_injective_getElem]
  intro i j hSame
  exact Fin.ext (index_eq hJoinless hs hs hl hl i.isLt j.isLt hSame).1

theorem head_eq_of_mem (hs : Source r s) (ht : Source r t) (hl : (s :: l).IsChain r)
    (hm : (t :: m).IsChain r) {n : α} (hnl : n ∈ s :: l) (hnm : n ∈ t :: m) : s = t := by
  obtain ⟨i, hi, rfl⟩ := List.getElem_of_mem hnl
  obtain ⟨j, hj, hSame⟩ := List.getElem_of_mem hnm
  exact (index_eq hJoinless hs ht hl hm hi hj hSame.symm).2

end Sources

/-- Every member behind the head is linked to. -/
theorem linked_of_mem {s n : α} {l : List α} (hl : (s :: l).IsChain r) (hn : n ∈ l) :
    ∃ a, r a n := by
  obtain ⟨i, hi, rfl⟩ := List.getElem_of_mem hn
  exact ⟨_, List.isChain_iff_getElem.1 hl i (Nat.succ_lt_succ hi)⟩

section Maximal

def Maximal (r : α → α → Prop) (p : List α) : Prop :=
  p.IsChain r ∧ ∀ q, q.IsChain r → p <:+: q → q = p

variable {a z : α} {p : List α}

/-- A list is maximal when nothing is linked to its head and to nothing its last member. -/
theorem maximal_iff (hHead : p.head? = some a) (hLast : p.getLast? = some z) :
    Maximal r p ↔ p.IsChain r ∧ Source r a ∧ Sink r z := by
  constructor
  · rintro ⟨hChain, hMax⟩
    refine ⟨hChain, fun b hb => ?_, fun b hb => ?_⟩
    · have hLonger := hMax (b :: p) (List.isChain_cons.2 ⟨fun y hy => ?_, hChain⟩)
        (List.suffix_cons b p).isInfix
      · exact List.cons_ne_self b p hLonger
      · rw [hHead, Option.mem_some_iff] at hy
        exact hy ▸ hb
    · have hLonger := hMax (p ++ [b]) (List.isChain_append.2 ⟨hChain, .singleton b, ?_⟩)
        (List.prefix_append p [b]).isInfix
      · exact absurd (congrArg List.length hLonger) (by simp)
      · intro x hx y hy
        rw [hLast, Option.mem_some_iff] at hx
        rw [List.head?_cons, Option.mem_some_iff] at hy
        exact hx ▸ hy ▸ hb
  · rintro ⟨hChain, hSource, hSink⟩
    refine ⟨hChain, ?_⟩
    rintro q hq ⟨front, rest, rfl⟩
    obtain ⟨hBefore, -, hBehind⟩ := List.isChain_append.1 hq
    have hEnd : (front ++ p).getLast? = some z := by
      rw [List.getLast?_append, hLast, Option.some_or]
    have hFront : front.getLast? = none := by
      rw [Option.eq_none_iff_forall_not_mem]
      exact fun b hb => hSource b ((List.isChain_append.1 hBefore).2.2 b hb a hHead)
    have hRest : rest.head? = none := by
      rw [Option.eq_none_iff_forall_not_mem]
      exact fun b hb => hSink b (hBehind z hEnd b hb)
    rw [List.getLast?_eq_none_iff.1 hFront, List.head?_eq_none_iff.1 hRest, List.nil_append,
      List.append_nil]

end Maximal

end Links

end TalosWorkflow
