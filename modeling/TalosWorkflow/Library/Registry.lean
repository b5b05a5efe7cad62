import Mathlib.Data.List.Nodup

/-!
# Stamped keys

A registry of keys with the stamp each was entered under. It can be swept by
stamp; what is still live is remembered across the sweeps that spare it.
-/

namespace TalosWorkflow

universe u v

/-- Every key has one stamp. -/
structure Registry (κ : Type u) (τ : Type v) where
  entries : List (κ × τ)
  nodup : (entries.map Prod.fst).Nodup

namespace Registry

variable {κ : Type u} {τ : Type v}

def empty : Registry κ τ := ⟨[], List.nodup_nil⟩

def size (r : Registry κ τ) : Nat := r.entries.length

def retain (keep : τ → Bool) (r : Registry κ τ) : Registry κ τ where
  entries := r.entries.filter fun entry => keep entry.2
  nodup := r.nodup.sublist (List.filter_sublist.map Prod.fst)

variable [DecidableEq κ]

def contains (r : Registry κ τ) (key : κ) : Bool := r.entries.any fun entry => entry.1 == key

/-- An earlier stamp of the key is replaced. -/
def insert (key : κ) (stamp : τ) (r : Registry κ τ) : Registry κ τ where
  entries := (key, stamp) :: r.entries.filter fun entry => entry.1 ≠ key
  nodup := by
    rw [List.map_cons, List.nodup_cons]
    constructor
    · simp
    · exact r.nodup.sublist (List.filter_sublist.map Prod.fst)

@[simp]
theorem contains_iff {r : Registry κ τ} {key : κ} :
    r.contains key = true ↔ ∃ stamp, (key, stamp) ∈ r.entries := by
  simp [contains]

omit [DecidableEq κ] in
@[simp]
theorem mem_retain {r : Registry κ τ} {keep : τ → Bool} {entry : κ × τ} :
    entry ∈ (r.retain keep).entries ↔ entry ∈ r.entries ∧ keep entry.2 = true :=
  List.mem_filter

/-- Nothing comes back in a sweep. -/
theorem contains_retain {r : Registry κ τ} {keep : τ → Bool} {key : κ}
    (h : r.contains key = false) : (r.retain keep).contains key = false := by
  rw [← Bool.not_eq_true, contains_iff] at h ⊢
  rintro ⟨stamp, hEntry⟩
  exact h ⟨stamp, (mem_retain.1 hEntry).1⟩

omit [DecidableEq κ] in
theorem retain_eq_self {r : Registry κ τ} {keep : τ → Bool}
    (h : ∀ entry ∈ r.entries, keep entry.2 = true) : r.retain keep = r := by
  cases r
  simp only [retain, mk.injEq]
  exact List.filter_eq_self.2 h

omit [DecidableEq κ] in
theorem retain_eq_empty {r : Registry κ τ} {keep : τ → Bool}
    (h : ∀ entry ∈ r.entries, keep entry.2 = false) : r.retain keep = empty := by
  cases r
  simp only [retain, empty, mk.injEq]
  rw [List.filter_eq_nil_iff]
  intro entry hEntry
  rw [h entry hEntry]
  exact Bool.false_ne_true

theorem contains_insert_ne {r : Registry κ τ} {key other : κ} {stamp : τ}
    (h : r.contains key = false) (hNe : key ≠ other) :
    (r.insert other stamp).contains key = false := by
  rw [← Bool.not_eq_true, contains_iff] at h ⊢
  rintro ⟨stamp', hEntry⟩
  obtain hSame | hEntry := List.mem_cons.1 hEntry
  · exact hNe (Prod.mk.inj hSame).1
  · exact h ⟨stamp', (List.mem_filter.1 hEntry).1⟩

theorem entries_insert_of_fresh {r : Registry κ τ} {key : κ} {stamp : τ}
    (h : r.contains key = false) : (r.insert key stamp).entries = (key, stamp) :: r.entries := by
  have hOthers : r.entries.filter (fun entry => entry.1 ≠ key) = r.entries := by
    rw [List.filter_eq_self]
    intro entry hEntry
    rw [decide_eq_true_iff]
    rintro rfl
    rw [← Bool.not_eq_true, contains_iff] at h
    exact h ⟨entry.2, hEntry⟩
  exact congrArg ((key, stamp) :: ·) hOthers

theorem size_insert_of_fresh {r : Registry κ τ} {key : κ} {stamp : τ}
    (h : r.contains key = false) : (r.insert key stamp).size = r.size + 1 := by
  rw [size, entries_insert_of_fresh h, List.length_cons, size]

section Memory

/-- What was entered and is still live is there. -/
def Remembers (live : τ → Prop) (past : List (κ × τ)) (r : Registry κ τ) : Prop :=
  ∀ entry ∈ past, live entry.2 → entry ∈ r.entries

variable {live live' : τ → Prop} {past : List (κ × τ)} {r : Registry κ τ}

omit [DecidableEq κ] in
theorem Remembers.mono (h : r.Remembers live past) (hLess : ∀ stamp, live' stamp → live stamp) :
    r.Remembers live' past :=
  fun entry hPast hLive => h entry hPast (hLess _ hLive)

omit [DecidableEq κ] in
/-- A sweep that spares the live entries forgets none of them. -/
theorem Remembers.retain {keep : τ → Bool} (h : r.Remembers live past)
    (hSpares : ∀ entry ∈ r.entries, live entry.2 → keep entry.2 = true) :
    (r.retain keep).Remembers live past := by
  intro entry hPast hLive
  have hEntry := h entry hPast hLive
  exact mem_retain.2 ⟨hEntry, hSpares entry hEntry hLive⟩

theorem Remembers.insert {key : κ} {stamp : τ} (h : r.Remembers live past)
    (hFresh : r.contains key = false) :
    (r.insert key stamp).Remembers live ((key, stamp) :: past) := by
  intro entry hPast hLive
  rw [entries_insert_of_fresh hFresh]
  obtain rfl | hPast := List.mem_cons.1 hPast
  · exact List.mem_cons_self
  · exact List.mem_cons_of_mem _ (h entry hPast hLive)

/-- A live key is recognised when it comes again. -/
theorem Remembers.contains {key : κ} {stamp : τ} (h : r.Remembers live past)
    (hPast : (key, stamp) ∈ past) (hLive : live stamp) : r.contains key = true :=
  contains_iff.2 ⟨stamp, h _ hPast hLive⟩

end Memory

end Registry

end TalosWorkflow
