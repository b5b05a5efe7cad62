import Mathlib.Data.List.AList

/-!
# A cache that batches fill

Each batch is asked for on behalf of an owner and brings rows, which replace
what the cache had under their keys. The rows that have come are kept with
their owners, the newest in front.
-/

namespace TalosWorkflow

universe u v w

structure Grant (υ : Type u) (κ : Type v) (α : Type w) where
  owner : υ
  key : κ
  value : α

structure Preload (υ : Type u) (κ : Type v) (α : Type w) where
  cache : AList fun _ : κ => α
  grants : List (Grant υ κ α)

namespace Preload

variable {υ : Type u} {κ : Type v} {α : Type w}

def initial : Preload υ κ α := ⟨∅, []⟩

variable [DecidableEq κ]

def insert (s : Preload υ κ α) (grant : Grant υ κ α) : Preload υ κ α :=
  ⟨s.cache.insert grant.key grant.value, grant :: s.grants⟩

def insertRows (owner : υ) (s : Preload υ κ α) (rows : List (Sigma fun _ : κ => α)) :
    Preload υ κ α :=
  rows.foldl (fun s row => s.insert ⟨owner, row.1, row.2⟩) s

def fill (s : Preload υ κ α) (owner : υ) (rows : AList fun _ : κ => α) : Preload υ κ α :=
  s.insertRows owner rows.entries

def newest (s : Preload υ κ α) (key : κ) : Option (Grant υ κ α) :=
  s.grants.find? fun grant => grant.key = key

/-- The cache holds what came last. -/
def Current (s : Preload υ κ α) : Prop :=
  ∀ key, s.cache.lookup key = (s.newest key).map Grant.value

variable {s : Preload υ κ α} {owner : υ} {key : κ}

theorem current_initial : (initial : Preload υ κ α).Current := fun _ => rfl

theorem Current.insert (h : s.Current) (grant : Grant υ κ α) : (s.insert grant).Current := by
  intro key
  unfold Preload.insert newest
  obtain rfl | hne := eq_or_ne key grant.key
  · rw [AList.lookup_insert, List.find?_cons_of_pos (by simp)]
    rfl
  · rw [AList.lookup_insert_ne hne, List.find?_cons_of_neg (by simpa using hne.symm)]
    exact h key

theorem Current.fill (h : s.Current) (owner : υ) (rows : AList fun _ : κ => α) :
    (s.fill owner rows).Current := by
  have hRows : ∀ (entries : List (Sigma fun _ : κ => α)) (s : Preload υ κ α), s.Current →
      (s.insertRows owner entries).Current := by
    intro entries
    induction entries with
    | nil => exact fun s h => h
    | cons row entries ih => exact fun s h => ih _ (h.insert ⟨owner, row.1, row.2⟩)
  exact hRows rows.entries s h

theorem mem_grants_insertRows {rows : List (Sigma fun _ : κ => α)} {grant : Grant υ κ α}
    (h : grant ∈ (s.insertRows owner rows).grants) :
    grant ∈ s.grants ∨ grant.owner = owner ∧ ⟨grant.key, grant.value⟩ ∈ rows := by
  induction rows generalizing s with
  | nil => exact .inl h
  | cons row rows ih =>
      obtain hOld | ⟨hOwner, hRow⟩ := ih h
      · obtain rfl | hOld := List.mem_cons.1 hOld
        · exact .inr ⟨rfl, List.mem_cons_self⟩
        · exact .inl hOld
      · exact .inr ⟨hOwner, List.mem_cons_of_mem row hRow⟩

/-- A row that has come is of the last batch or was there before. -/
theorem mem_grants_fill {rows : AList fun _ : κ => α} {grant : Grant υ κ α}
    (h : grant ∈ (s.fill owner rows).grants) :
    grant ∈ s.grants ∨ grant.owner = owner ∧ rows.lookup grant.key = some grant.value := by
  obtain hOld | ⟨hOwner, hRow⟩ := mem_grants_insertRows h
  · exact .inl hOld
  · exact .inr ⟨hOwner, AList.mem_lookup_iff.2 hRow⟩

theorem mem_of_newest {grant : Grant υ κ α} (h : s.newest key = some grant) :
    grant ∈ s.grants ∧ grant.key = key :=
  ⟨List.mem_of_find?_eq_some h, by simpa using List.find?_some h⟩

theorem lookup_insertRows {rows : List (Sigma fun _ : κ => α)} (hKeys : rows.NodupKeys) (key : κ) :
    (s.insertRows owner rows).cache.lookup key = (rows.dlookup key).or (s.cache.lookup key) := by
  induction rows generalizing s with
  | nil => rfl
  | cons row rows ih =>
      obtain ⟨k, value⟩ := row
      obtain ⟨hFresh, hRest⟩ := List.nodupKeys_cons.1 hKeys
      refine (ih hRest).trans ?_
      obtain rfl | hne := eq_or_ne key k
      · rw [List.dlookup_eq_none.2 hFresh, List.dlookup_cons_eq]
        exact AList.lookup_insert _
      · rw [List.dlookup_cons_ne _ _ hne]
        exact congrArg _ (AList.lookup_insert_ne hne)

theorem lookup_fill (rows : AList fun _ : κ => α) (key : κ) :
    (s.fill owner rows).cache.lookup key = (rows.lookup key).or (s.cache.lookup key) :=
  lookup_insertRows rows.nodupKeys key

end Preload

end TalosWorkflow
