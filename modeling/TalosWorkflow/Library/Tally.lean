import Mathlib.Data.List.Count
import Mathlib.Data.List.Induction
import Mathlib.Data.List.Nodup
import Mathlib.Data.List.Perm.Basic

/-!
# Tallies

Values are counted by a key, and the first value with a key stands for it. In
whatever order the counts are looked through, the last of the maximal ones wins.
-/

namespace TalosWorkflow

universe u v

namespace Tally

variable {κ : Type u} {α : Type v}

section Winners

/-- The last one of the maximal counts. -/
def lastMax (votes : List (κ × Nat × α)) : Option (κ × Nat × α) :=
  votes.foldl (fun best vote =>
    match best with
    | some b => if b.2.1 ≤ vote.2.1 then some vote else some b
    | none => some vote) none

theorem lastMax_concat (votes : List (κ × Nat × α)) (vote : κ × Nat × α) :
    lastMax (votes ++ [vote]) = match lastMax votes with
      | some b => if b.2.1 ≤ vote.2.1 then some vote else some b
      | none => some vote := by
  rw [lastMax, List.foldl_append]
  rfl

theorem lastMax_eq_none {votes : List (κ × Nat × α)} : lastMax votes = none ↔ votes = [] := by
  induction votes using List.reverseRecOn with
  | nil => exact iff_of_true rfl rfl
  | append_singleton votes vote =>
      rw [lastMax_concat]
      refine iff_of_false ?_ (by simp)
      split
      · split <;> simp
      · simp

/-- The winner is one of the counts, and none is larger. -/
theorem lastMax_spec {votes : List (κ × Nat × α)} {best : κ × Nat × α}
    (h : lastMax votes = some best) : best ∈ votes ∧ ∀ vote ∈ votes, vote.2.1 ≤ best.2.1 := by
  induction votes using List.reverseRecOn generalizing best with
  | nil => cases h
  | append_singleton votes vote ih =>
      rw [lastMax_concat] at h
      simp only [List.mem_append, List.mem_singleton]
      split at h
      · rename_i b hBest
        obtain ⟨hMem, hLargest⟩ := ih hBest
        split at h
        · rename_i hLe
          cases h
          refine ⟨.inr rfl, ?_⟩
          rintro other (hOther | rfl)
          · exact Nat.le_trans (hLargest other hOther) hLe
          · exact Nat.le_refl _
        · rename_i hLess
          cases h
          refine ⟨.inl hMem, ?_⟩
          rintro other (hOther | rfl)
          · exact hLargest other hOther
          · omega
      · rename_i hNone
        cases h
        refine ⟨.inr rfl, ?_⟩
        rintro other (hOther | rfl)
        · rw [lastMax_eq_none.1 hNone] at hOther
          exact absurd hOther List.not_mem_nil
        · exact Nat.le_refl _

end Winners

section Counts

variable [DecidableEq κ]

def cast (votes : List (κ × Nat × α)) (key : κ) (value : α) : List (κ × Nat × α) :=
  if (votes.lookup key).isSome then
    votes.map fun vote => if vote.1 = key then (key, vote.2.1 + 1, vote.2.2) else vote
  else votes ++ [(key, 1, value)]

variable {key : α → κ} {seen : List α} {votes : List (κ × Nat × α)}

/-- The votes are the counts of the values seen so far. -/
structure Tallied (key : α → κ) (seen : List α) (votes : List (κ × Nat × α)) : Prop where
  nodup : (votes.map Prod.fst).Nodup
  entry : ∀ vote ∈ votes, vote.2.2 ∈ seen ∧ key vote.2.2 = vote.1 ∧
    vote.2.1 = seen.countP fun value => key value = vote.1
  complete : ∀ value ∈ seen, ∃ vote ∈ votes, vote.1 = key value

theorem Tallied.nil : Tallied key [] [] where
  nodup := List.nodup_nil
  entry _ h := absurd h List.not_mem_nil
  complete _ h := absurd h List.not_mem_nil

theorem lookup_isSome_iff_mem {k : κ} : (votes.lookup k).isSome = true ↔
    ∃ vote ∈ votes, vote.1 = k := by
  rw [List.lookup_isSome_iff]
  constructor
  · rintro ⟨vote, hVote, hKey⟩
    exact ⟨vote, hVote, (beq_iff_eq.1 hKey).symm⟩
  · rintro ⟨vote, hVote, rfl⟩
    exact ⟨vote, hVote, beq_self_eq_true _⟩

theorem Tallied.cast (h : Tallied key seen votes) (value : α) :
    Tallied key (seen ++ [value]) (cast votes (key value) value) := by
  rw [Tally.cast]
  split
  · rename_i hSome
    rw [lookup_isSome_iff_mem] at hSome
    have hKeys : (votes.map fun vote =>
        if vote.1 = key value then (key value, vote.2.1 + 1, vote.2.2) else vote).map Prod.fst =
          votes.map Prod.fst := by
      rw [List.map_map]
      refine List.map_congr_left fun vote _ => ?_
      simp only [Function.comp_apply]
      split
      · rename_i hKey
        exact hKey.symm
      · rfl
    constructor
    · rw [hKeys]
      exact h.nodup
    · intro vote hVote
      obtain ⟨old, hOld, rfl⟩ := List.mem_map.1 hVote
      obtain ⟨hSeen, hKey, hCount⟩ := h.entry old hOld
      simp only [List.countP_append, List.countP_singleton]
      split
      · rename_i hSame
        rw [hSame] at hKey hCount
        exact ⟨List.mem_append_left _ hSeen, hKey, by simp [hCount]⟩
      · rename_i hOther
        refine ⟨List.mem_append_left _ hSeen, hKey, ?_⟩
        rw [if_neg (by simpa using Ne.symm hOther), hCount, Nat.add_zero]
    · intro other hOther
      have hOld : ∃ vote ∈ votes, vote.1 = key other := by
        obtain hSeen | hNew := List.mem_append.1 hOther
        · exact h.complete other hSeen
        · rw [List.mem_singleton.1 hNew]
          exact hSome
      obtain ⟨vote, hVote, hKey⟩ := hOld
      refine ⟨_, List.mem_map.2 ⟨vote, hVote, rfl⟩, ?_⟩
      split
      · rename_i hSame
        rw [← hSame]
        exact hKey
      · exact hKey
  · rename_i hNone
    rw [lookup_isSome_iff_mem] at hNone
    have hFresh : ∀ other ∈ seen, key other ≠ key value := by
      intro other hSeen hSame
      obtain ⟨vote, hVote, hKey⟩ := h.complete other hSeen
      exact hNone ⟨vote, hVote, hKey.trans hSame⟩
    constructor
    · rw [List.map_append, List.map_singleton, List.nodup_append]
      refine ⟨h.nodup, List.nodup_singleton _, ?_⟩
      intro k hk k' hk' hSame
      obtain ⟨vote, hVote, rfl⟩ := List.mem_map.1 hk
      exact hNone ⟨vote, hVote, hSame.trans (List.mem_singleton.1 hk')⟩
    · intro vote hVote
      simp only [List.countP_append, List.countP_singleton]
      obtain hOld | hNew := List.mem_append.1 hVote
      · obtain ⟨hSeen, hKey, hCount⟩ := h.entry vote hOld
        refine ⟨List.mem_append_left _ hSeen, hKey, ?_⟩
        rw [if_neg, hCount, Nat.add_zero]
        rw [decide_eq_true_iff]
        intro hSame
        exact hNone ⟨vote, hOld, hSame.symm⟩
      · rw [List.mem_singleton.1 hNew]
        refine ⟨List.mem_append_right _ (List.mem_singleton_self _), rfl, ?_⟩
        rw [if_pos (decide_eq_true rfl), List.countP_eq_zero.2]
        intro other hSeen hSame
        exact hFresh other hSeen (of_decide_eq_true hSame)
    · intro other hOther
      obtain hSeen | hNew := List.mem_append.1 hOther
      · obtain ⟨vote, hVote, hKey⟩ := h.complete other hSeen
        exact ⟨vote, List.mem_append_left _ hVote, hKey⟩
      · rw [List.mem_singleton.1 hNew]
        exact ⟨_, List.mem_append_right _ (List.mem_singleton_self _), rfl⟩

/-- Votes with one key are one vote. -/
theorem Tallied.eq_of_key (h : Tallied key seen votes) {a b : κ × Nat × α} (ha : a ∈ votes)
    (hb : b ∈ votes) (hKey : a.1 = b.1) : a = b :=
  List.inj_on_of_nodup_map h.nodup ha hb hKey

/-- The value that wins has as many votes as any other. -/
theorem Tallied.count_le (h : Tallied key seen votes) {best : κ × Nat × α} (hBest : best ∈ votes)
    (hMax : ∀ vote ∈ votes, vote.2.1 ≤ best.2.1) {value : α} (hSeen : value ∈ seen) :
    (seen.countP fun other => key other = key value) ≤
      seen.countP fun other => key other = key best.2.2 := by
  obtain ⟨vote, hVote, hKey⟩ := h.complete value hSeen
  have hLe := hMax vote hVote
  obtain ⟨-, -, hCount⟩ := h.entry vote hVote
  obtain ⟨-, hIs, hTop⟩ := h.entry best hBest
  rwa [hCount, hTop, hKey, ← hIs] at hLe

/-- With one key in front, the order in which the votes are looked through does not matter. -/
theorem Tallied.lastMax_perm (h : Tallied key seen votes)
    (hTop : ∀ a ∈ seen, ∀ b ∈ seen,
      (∀ c ∈ seen, (seen.countP fun other => key other = key c) ≤
        seen.countP fun other => key other = key a) →
      (∀ c ∈ seen, (seen.countP fun other => key other = key c) ≤
        seen.countP fun other => key other = key b) → key a = key b)
    {first second : List (κ × Nat × α)} (hFirst : first.Perm votes) (hSecond : second.Perm votes) :
    lastMax first = lastMax second := by
  cases hLeft : lastMax first with
  | none =>
      have hEmpty := lastMax_eq_none.1 hLeft
      rw [hEmpty] at hFirst
      rw [← hFirst.nil_eq] at hSecond
      rw [hSecond.eq_nil]
      rfl
  | some a =>
      cases hRight : lastMax second with
      | none =>
          have hEmpty := lastMax_eq_none.1 hRight
          rw [hEmpty] at hSecond
          rw [← hSecond.nil_eq] at hFirst
          rw [hFirst.eq_nil] at hLeft
          cases hLeft
      | some b =>
          obtain ⟨ha, hMaxA⟩ := lastMax_spec hLeft
          obtain ⟨hb, hMaxB⟩ := lastMax_spec hRight
          have ha' := hFirst.mem_iff.1 ha
          have hb' := hSecond.mem_iff.1 hb
          obtain ⟨hSeenA, hKeyA, -⟩ := h.entry a ha'
          obtain ⟨hSeenB, hKeyB, -⟩ := h.entry b hb'
          have hSame := hTop a.2.2 hSeenA b.2.2 hSeenB
            (fun c hc => h.count_le ha' (fun vote hVote => hMaxA vote (hFirst.mem_iff.2 hVote)) hc)
            (fun c hc => h.count_le hb' (fun vote hVote => hMaxB vote (hSecond.mem_iff.2 hVote)) hc)
          rw [h.eq_of_key ha' hb' (hKeyA.symm.trans (hSame.trans hKeyB))]

end Counts

end Tally

end TalosWorkflow
