import Mathlib.Data.List.Basic

/-!
# Maps ordered by their keys

A finite map as the list of its entries in key order. A list that is in key
order is the map collected from its own entries.
-/

namespace TalosWorkflow

universe u v w

namespace OrderedMap

variable {κ : Type u} {α : Type v} {β : Type w}

section Insertion

variable [LT κ] [DecidableLT κ] [DecidableEq κ]

/-- An earlier entry of the key is replaced. -/
def insert (key : κ) (value : α) : List (κ × α) → List (κ × α)
  | [] => [(key, value)]
  | (k, v) :: rest =>
      if key = k then (key, value) :: rest
      else if key < k then (key, value) :: (k, v) :: rest
      else (k, v) :: insert key value rest

/-- Of several entries with one key the last one stays. -/
def collect (entries : List (κ × α)) : List (κ × α) :=
  entries.foldl (fun map entry => insert entry.1 entry.2 map) []

end Insertion

section Order

variable [LT κ]

/-- The keys increase strictly. -/
def Ordered (map : List (κ × α)) : Prop := map.Pairwise fun a b => a.1 < b.1

theorem ordered_map_iff {f : α → β} {map : List (κ × α)} :
    Ordered (map.map (Prod.map id f)) ↔ Ordered map := by
  rw [Ordered, List.pairwise_map]
  rfl

variable [DecidableLT κ] [DecidableEq κ]

theorem mem_insert {key : κ} {value : α} {map : List (κ × α)} {entry : κ × α}
    (h : entry ∈ insert key value map) : entry = (key, value) ∨ entry ∈ map := by
  induction map with
  | nil =>
      rw [insert, List.mem_singleton] at h
      exact .inl h
  | cons first rest ih =>
      obtain ⟨k, v⟩ := first
      rw [insert] at h
      split at h
      · obtain h | h := List.mem_cons.1 h
        · exact .inl h
        · exact .inr (List.mem_cons_of_mem _ h)
      · split at h
        · exact List.mem_cons.1 h
        · obtain h | h := List.mem_cons.1 h
          · exact .inr (List.mem_cons.2 (.inl h))
          · exact (ih h).imp id (List.mem_cons_of_mem _)

variable [Std.Trichotomous (α := κ) (· < ·)]

omit [DecidableLT κ] [DecidableEq κ] in
private theorem lt_of_not {a b : κ} (hNe : a ≠ b) (hNot : ¬ a < b) : b < a := by
  obtain h | h | h := Std.lt_trichotomy a b
  · exact absurd h hNot
  · exact absurd h hNe
  · exact h

variable [Trans (α := κ) (· < ·) (· < ·) (· < ·)]

theorem ordered_insert (key : κ) (value : α) {map : List (κ × α)} (h : Ordered map) :
    Ordered (insert key value map) := by
  induction map with
  | nil => exact List.pairwise_singleton _ _
  | cons first rest ih =>
      obtain ⟨k, v⟩ := first
      obtain ⟨hFirst, hRest⟩ := List.pairwise_cons.1 h
      rw [insert]
      split
      · rename_i hKey
        subst hKey
        exact List.pairwise_cons.2 ⟨hFirst, hRest⟩
      · rename_i hNe
        split
        · rename_i hLess
          apply List.Pairwise.cons _ h
          intro entry hEntry
          obtain hEntry | hEntry := List.mem_cons.1 hEntry
          · rw [hEntry]
            exact hLess
          · exact Std.lt_trans hLess (hFirst entry hEntry)
        · rename_i hNot
          apply List.Pairwise.cons _ (ih hRest)
          intro entry hEntry
          obtain hEntry | hEntry := mem_insert hEntry
          · rw [hEntry]
            exact lt_of_not hNe hNot
          · exact hFirst entry hEntry

theorem ordered_collect (entries : List (κ × α)) : Ordered (collect entries) := by
  have hFold : ∀ map : List (κ × α), Ordered map →
      Ordered (entries.foldl (fun map entry => insert entry.1 entry.2 map) map) := by
    induction entries with
    | nil =>
        intro map hMap
        exact hMap
    | cons entry rest ih =>
        intro map hMap
        exact ih _ (ordered_insert entry.1 entry.2 hMap)
  exact hFold [] List.Pairwise.nil

end Order

section Collecting

variable [LT κ] [DecidableLT κ] [DecidableEq κ] [Std.Asymm (α := κ) (· < ·)]

/-- A key beyond all others goes to the end. -/
theorem insert_of_forall_lt {key : κ} {value : α} {map : List (κ × α)}
    (h : ∀ entry ∈ map, entry.1 < key) : insert key value map = map ++ [(key, value)] := by
  induction map with
  | nil => rfl
  | cons first rest ih =>
      obtain ⟨k, v⟩ := first
      have hLess : k < key := h (k, v) List.mem_cons_self
      rw [insert, if_neg, if_neg (Std.not_gt_of_lt hLess),
        ih fun entry hEntry => h entry (List.mem_cons_of_mem _ hEntry)]
      · rfl
      · rintro rfl
        exact Std.not_gt_of_lt hLess hLess

theorem collect_of_ordered {map : List (κ × α)} (h : Ordered map) : collect map = map := by
  have hFold : ∀ front : List (κ × α), Ordered (front ++ map) →
      map.foldl (fun map entry => insert entry.1 entry.2 map) front = front ++ map := by
    clear h
    induction map with
    | nil =>
        intro front _
        rw [List.foldl_nil, List.append_nil]
    | cons entry rest ih =>
        intro front hFront
        have hLast : insert entry.1 entry.2 front = front ++ [entry] := by
          apply insert_of_forall_lt
          intro earlier hEarlier
          exact (List.pairwise_append.1 hFront).2.2 earlier hEarlier entry List.mem_cons_self
        rw [List.foldl_cons, hLast, ih, List.append_assoc, List.singleton_append]
        rwa [List.append_assoc, List.singleton_append]
  exact hFold [] h

end Collecting

section Permutations

variable [LT κ] [DecidableLT κ] [DecidableEq κ]

/-- A new key adds an entry. -/
theorem insert_perm {key : κ} {value : α} {map : List (κ × α)} (h : key ∉ map.map Prod.fst) :
    (insert key value map).Perm ((key, value) :: map) := by
  induction map with
  | nil => exact .refl _
  | cons first rest ih =>
      obtain ⟨k, v⟩ := first
      obtain ⟨hNe, hNotIn⟩ := List.ne_and_not_mem_of_not_mem_cons h
      rw [insert, if_neg hNe]
      split
      · exact .refl _
      · exact ((ih hNotIn).cons _).trans (.swap _ _ _)

/-- Entries with different keys are all collected. -/
theorem collect_perm {entries : List (κ × α)} (h : (entries.map Prod.fst).Nodup) :
    (collect entries).Perm entries := by
  have hFold : ∀ map : List (κ × α), ((entries ++ map).map Prod.fst).Nodup →
      (entries.foldl (fun map entry => insert entry.1 entry.2 map) map).Perm (entries ++ map) := by
    clear h
    induction entries with
    | nil => exact fun map _ => .refl _
    | cons entry rest ih =>
        intro map hNodup
        rw [List.cons_append, List.map_cons, List.nodup_cons] at hNodup
        obtain ⟨hNew, hNodup⟩ := hNodup
        have hInsert : (insert entry.1 entry.2 map).Perm (entry :: map) := by
          apply insert_perm
          intro hIn
          rw [List.map_append] at hNew
          exact hNew (List.mem_append_right _ hIn)
        have hAll : (rest ++ insert entry.1 entry.2 map).Perm (entry :: (rest ++ map)) :=
          (hInsert.append_left rest).trans List.perm_middle
        refine (ih (insert entry.1 entry.2 map) ?_).trans hAll
        rw [(hAll.map Prod.fst).nodup_iff]
        exact List.nodup_cons.2 ⟨hNew, hNodup⟩
  rw [← List.append_nil entries] at h
  exact (hFold [] h).trans (.of_eq (List.append_nil entries))

variable [Std.Trichotomous (α := κ) (· < ·)] [Trans (α := κ) (· < ·) (· < ·) (· < ·)]
  [Std.Asymm (α := κ) (· < ·)]

/-- What is collected of entries with different keys does not depend on their order. -/
theorem collect_congr {entries others : List (κ × α)} (h : (entries.map Prod.fst).Nodup)
    (hPerm : entries.Perm others) : collect entries = collect others := by
  have hOthers : (others.map Prod.fst).Nodup := (hPerm.map Prod.fst).nodup_iff.1 h
  refine List.Perm.eq_of_pairwise ?_ (ordered_collect entries) (ordered_collect others)
    ((collect_perm h).trans (hPerm.trans (collect_perm hOthers).symm))
  intro a b _ _ hab hba
  exact absurd hba (Std.not_gt_of_lt hab)

end Permutations

end OrderedMap

end TalosWorkflow
