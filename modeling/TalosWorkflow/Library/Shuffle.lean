import Mathlib.Data.List.Nodup
import Mathlib.Logic.Function.Basic
import TalosWorkflow.Library.Transition

/-!
# Scripts that run side by side

Each script of a family appends its entries to one log, in order and one at a
time; which script is next is open, and a script may stop on its way. Where no
two scripts have an entry in common, what the log holds of a script is what
the script has behind it.
-/

namespace TalosWorkflow

universe u v

/-- What is left of each script, and the log. -/
structure Shuffle (ι : Type u) (ε : Type v) where
  rest : ι → List ε
  entries : List ε

namespace Shuffle

variable {ι : Type u} {ε : Type v}

def start (script : ι → List ε) : Shuffle ι ε := ⟨script, []⟩

section Runs

variable [DecidableEq ι]

/-- The script `i` makes its next entry. -/
def step (s : Shuffle ι ε) (i : ι) : Option (Shuffle ι ε) :=
  match s.rest i with
  | [] => none
  | e :: rest => some ⟨Function.update s.rest i rest, s.entries ++ [e]⟩

abbrev Interleaves (script : ι → List ε) (s : Shuffle ι ε) : Prop :=
  Run step (fun _ _ => True) (start script) s

variable {script : ι → List ε} {owns : ι → ε → Bool} {s t : Shuffle ι ε} {i : ι}

theorem step_cases (h : s.step i = some t) : ∃ e, s.rest i = e :: t.rest i ∧
    t.entries = s.entries ++ [e] ∧ ∀ j, j ≠ i → t.rest j = s.rest j := by
  unfold step at h
  split at h
  · cases h
  · rename_i e rest hRest
    cases h
    refine ⟨e, ?_, rfl, fun j hne => Function.update_of_ne hne _ _⟩
    rw [hRest]
    exact congrArg (e :: ·) (Function.update_self i rest s.rest).symm

/-- Scripts make entries of their own, and no entry is of two scripts. -/
structure Apart (script : ι → List ε) (owns : ι → ε → Bool) : Prop where
  own : ∀ i, ∀ e ∈ script i, owns i e = true
  unique : ∀ i j e, owns i e = true → owns j e = true → i = j

/-- The entries of a script, with what is left of it, are the script. -/
def Accounts (script : ι → List ε) (owns : ι → ε → Bool) (s : Shuffle ι ε) : Prop :=
  ∀ i, s.entries.filter (owns i) ++ s.rest i = script i

theorem Accounts.step (hApart : Apart script owns) (h : Accounts script owns s)
    (hStep : s.step i = some t) : Accounts script owns t := by
  obtain ⟨e, hRest, hEntries, hOthers⟩ := step_cases hStep
  have hOwn : owns i e = true := by
    apply hApart.own i
    rw [← h i, hRest]
    exact List.mem_append_right _ List.mem_cons_self
  intro j
  rw [hEntries, List.filter_append]
  obtain rfl | hne := eq_or_ne j i
  · rw [List.filter_cons_of_pos hOwn, List.append_assoc, ← h j, hRest]
    rfl
  · have hOther : ¬ owns j e = true := fun hOwns => hne (hApart.unique j i e hOwns hOwn)
    rw [List.filter_cons_of_neg hOther, List.filter_nil, List.append_nil, hOthers j hne]
    exact h j

theorem Interleaves.accounts (hApart : Apart script owns) (hRun : Interleaves script s) :
    Accounts script owns s :=
  Run.invariant (Accounts script owns) (fun _ _ _ _ h hStep => h.step hApart hStep) hRun
    fun _ => rfl

/-- What is left of a script comes from it, and whatever is in the log from one of them. -/
def Stems (script : ι → List ε) (s : Shuffle ι ε) : Prop :=
  (∀ i, s.rest i ⊆ script i) ∧ ∀ e ∈ s.entries, ∃ i, e ∈ script i

theorem Stems.step (h : Stems script s) (hStep : s.step i = some t) : Stems script t := by
  obtain ⟨e, hRest, hEntries, hOthers⟩ := step_cases hStep
  have hFrom := h.1 i
  rw [hRest] at hFrom
  constructor
  · intro j
    obtain rfl | hne := eq_or_ne j i
    · exact List.Subset.trans (List.subset_cons_self e _) hFrom
    · rw [hOthers j hne]
      exact h.1 j
  · intro e' he'
    rw [hEntries] at he'
    obtain hOld | hNew := List.mem_append.1 he'
    · exact h.2 e' hOld
    · rw [List.mem_singleton.1 hNew]
      exact ⟨i, hFrom List.mem_cons_self⟩

theorem Interleaves.stems (hRun : Interleaves script s) : Stems script s :=
  Run.invariant (Stems script) (fun _ _ _ _ h hStep => h.step hStep) hRun
    ⟨fun _ => List.Subset.refl _, fun _ he => absurd he List.not_mem_nil⟩

end Runs

section Selection

/-- Where an indexed list makes entries of `p` at one index only, they are the entries made there. -/
theorem filter_flatMap_zipIdx {α : Type u} {f : α × Nat → List ε} {p : ε → Bool} (n : Nat)
    {l : List α} {first : Nat}
    (h : ∀ x ∈ l.zipIdx first, ∀ e ∈ f x, (p e = true ↔ x.2 = n)) :
    ((l.zipIdx first).flatMap f).filter p =
      if first ≤ n then (l[n - first]?.map fun a => f (a, n)).getD [] else [] := by
  induction l generalizing first with
  | nil => simp
  | cons a l ih =>
      rw [List.zipIdx_cons, List.forall_mem_cons] at h
      obtain ⟨hHead, hTail⟩ := h
      rw [List.zipIdx_cons, List.flatMap_cons, List.filter_append, ih hTail]
      obtain hne | rfl : first ≠ n ∨ first = n := (Decidable.em (first = n)).symm
      · have hNone : (f (a, first)).filter p = [] := by
          rw [List.filter_eq_nil_iff]
          exact fun e he hIs => hne ((hHead e he).1 hIs)
        rw [hNone, List.nil_append]
        obtain hlt | hgt := Nat.lt_or_gt_of_ne hne
        · rw [if_pos (Nat.succ_le_of_lt hlt), if_pos (Nat.le_of_lt hlt),
            show n - first = n - (first + 1) + 1 by omega, List.getElem?_cons_succ]
        · rw [if_neg (by omega), if_neg (by omega)]
      · have hAll : (f (a, first)).filter p = f (a, first) := by
          rw [List.filter_eq_self]
          exact fun e he => (hHead e he).2 rfl
        rw [hAll, if_neg (by omega), if_pos (Nat.le_refl first), Nat.sub_self]
        simp

end Selection

end Shuffle

end TalosWorkflow
