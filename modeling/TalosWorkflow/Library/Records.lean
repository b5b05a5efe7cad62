import Mathlib.Data.List.Basic
import Mathlib.Data.List.Perm.Basic

/-!
# Records read by their keys

A record is read from a list of entries, each of its fields by a key of its
own. Neither the order of the entries nor an entry under another key matters,
and a key that is given twice is refused.
-/

namespace TalosWorkflow

universe u v w

namespace Record

variable {κ : Type u} {ν : Type v} {α : Type w} [DecidableEq κ]

def valuesOf (key : κ) : List (κ × ν) → List ν
  | [] => []
  | (k, value) :: rest => if k = key then value :: valuesOf key rest else valuesOf key rest

/-- The value of a key, if it has one. -/
def once (key : κ) (entries : List (κ × ν)) : Option (Option ν) :=
  match valuesOf key entries with
  | [] => some none
  | [value] => some (some value)
  | _ => none

def required (read : ν → Option α) (key : κ) (entries : List (κ × ν)) : Option α :=
  (once key entries).bind fun found => found.bind read

def defaulted (default : α) (read : ν → Option α) (key : κ) (entries : List (κ × ν)) : Option α :=
  (once key entries).bind fun found => found.elim (some default) read

section Values

variable {key : κ} {value : ν} {entries others : List (κ × ν)}

@[simp] theorem valuesOf_nil : valuesOf key ([] : List (κ × ν)) = [] := rfl

@[simp] theorem valuesOf_cons (k : κ) : valuesOf key ((k, value) :: entries) =
    if k = key then value :: valuesOf key entries else valuesOf key entries := rfl

@[simp] theorem valuesOf_append :
    valuesOf key (entries ++ others) = valuesOf key entries ++ valuesOf key others := by
  induction entries with
  | nil => rfl
  | cons entry rest ih =>
      rw [List.cons_append, valuesOf, valuesOf, ih]
      split
      · rfl
      · rfl

theorem valuesOf_eq_nil (h : ∀ entry ∈ entries, entry.1 ≠ key) : valuesOf key entries = [] := by
  induction entries with
  | nil => rfl
  | cons entry rest ih =>
      rw [valuesOf, if_neg (h entry List.mem_cons_self)]
      exact ih fun entry' h' => h entry' (List.mem_cons_of_mem _ h')

theorem valuesOf_filter (kept : κ → Bool) :
    valuesOf key (entries.filter fun entry => kept entry.1) = if kept key then valuesOf key entries else [] := by
  induction entries with
  | nil => simp
  | cons entry rest ih =>
      obtain ⟨k, value⟩ := entry
      rw [List.filter_cons]
      by_cases hKey : k = key
      · subst hKey
        cases hKept : kept k with
        | false => simpa [hKept] using ih
        | true => simpa [hKept] using ih
      · cases hKept : kept k with
        | false => simpa [hKey, hKept] using ih
        | true => simpa [hKey, hKept] using ih

theorem valuesOf_perm (h : entries.Perm others) :
    (valuesOf key entries).Perm (valuesOf key others) := by
  induction h with
  | nil => exact .refl _
  | cons entry _ ih =>
      rw [valuesOf, valuesOf]
      split
      · exact ih.cons _
      · exact ih
  | swap entry entry' rest =>
      obtain ⟨k, value⟩ := entry
      obtain ⟨k', value'⟩ := entry'
      simp only [valuesOf_cons]
      split
      · split
        · exact .swap _ _ _
        · exact .refl _
      · exact .refl _
  | trans _ _ ih ih' => exact ih.trans ih'

theorem once_of_values (found : Option ν) (h : valuesOf key entries = found.toList) :
    once key entries = some found := by
  cases found with
  | none => rw [once, h, Option.toList_none]
  | some value => rw [once, h, Option.toList_some]

/-- Where an entry stands does not matter. -/
theorem once_perm (h : entries.Perm others) : once key entries = once key others := by
  have hPerm : (valuesOf key entries).Perm (valuesOf key others) := valuesOf_perm h
  rw [once, once]
  match hValues : valuesOf key entries with
  | [] => rw [hValues] at hPerm; rw [List.nil_perm.1 hPerm]
  | [value] => rw [hValues] at hPerm; rw [List.singleton_perm.1 hPerm]
  | value :: value' :: rest =>
      rw [hValues] at hPerm
      match hOthers : valuesOf key others with
      | [] => rw [hOthers] at hPerm; cases hPerm.eq_nil
      | [_] => rw [hOthers] at hPerm; cases hPerm.length_eq
      | _ :: _ :: _ => rfl

end Values

section Restating

/-- The fields under the kept keys, in any order, beside entries under keys that nobody reads. The
needed keys are kept. -/
structure Restates (keys needed : List κ) (kept : κ → Bool) (fields entries : List (κ × ν)) :
    Prop where
  subset : needed ⊆ keys
  keeps : ∀ key ∈ needed, kept key = true
  perm : ∃ others, (∀ entry ∈ others, entry.1 ∉ keys) ∧
    entries.Perm (fields.filter (fun entry => kept entry.1) ++ others)

namespace Restates

variable {keys needed : List κ} {kept : κ → Bool} {fields entries : List (κ × ν)} {key : κ}
  {a d : α} {read : ν → Option α}

omit [DecidableEq κ] in
theorem self (hSubset : needed ⊆ keys) (fields : List (κ × ν)) :
    Restates keys needed (fun _ => true) fields fields where
  subset := hSubset
  keeps := fun _ _ => rfl
  perm := by
    refine ⟨[], ?_, ?_⟩
    · intro entry hEntry
      cases hEntry
    · rw [List.filter_true, List.append_nil]

variable (h : Restates keys needed kept fields entries)

include h

theorem once (hKey : key ∈ keys) {found : Option ν} (hValues : valuesOf key fields = found.toList) :
    once key entries = some (if kept key then found else none) := by
  obtain ⟨others, hOthers, hPerm⟩ := h.perm
  have hNone : valuesOf key others = [] :=
    valuesOf_eq_nil fun entry hEntry hSame => hOthers entry hEntry (hSame ▸ hKey)
  rw [once_perm hPerm]
  apply once_of_values
  rw [valuesOf_append, hNone, List.append_nil, valuesOf_filter, hValues]
  split
  · rfl
  · rfl

theorem required (hKey : key ∈ needed) {value : ν} (hValues : valuesOf key fields = [value])
    (hRead : read value = some a) : required read key entries = some a := by
  have hOnce := h.once (h.subset hKey) (show _ = (some value).toList from hValues)
  rw [Record.required, hOnce, if_pos (h.keeps key hKey)]
  exact hRead

theorem defaulted (hKey : key ∈ keys) {found : Option ν}
    (hValues : valuesOf key fields = found.toList)
    (hRead : found.elim (some d) read = some a) :
    defaulted d read key entries = some (if kept key then a else d) := by
  rw [Record.defaulted, h.once hKey hValues, Option.bind_some]
  split
  · exact hRead
  · rfl

/-- A field that is always written, and has a default since it was not. -/
theorem defaulted_value (hKey : key ∈ keys) {value : ν} (hValues : valuesOf key fields = [value])
    (hRead : read value = some a) :
    Record.defaulted d read key entries = some (if kept key then a else d) :=
  h.defaulted hKey (show _ = (some value).toList from hValues) hRead

end Restates

end Restating

section Accepting

variable {key : κ} {entries : List (κ × ν)} {read : ν → Option α} {a d : α}

theorem once_of_required (h : required read key entries = some a) :
    ∃ value, once key entries = some (some value) := by
  obtain ⟨found, hOnce, hFound⟩ := Option.bind_eq_some_iff.1 h
  obtain ⟨value, rfl, -⟩ := Option.bind_eq_some_iff.1 hFound
  exact ⟨value, hOnce⟩

theorem exists_of_once {value : ν} (h : once key entries = some (some value)) :
    ∃ entry ∈ entries, entry.1 = key := by
  by_contra hNone
  have hValues : valuesOf key entries = (none : Option ν).toList :=
    valuesOf_eq_nil fun entry hEntry hKey => hNone ⟨entry, hEntry, hKey⟩
  rw [once_of_values none hValues] at h
  cases h

theorem found_of_required (h : required read key entries = some a) :
    ∃ found, once key entries = some found := by
  obtain ⟨value, hOnce⟩ := once_of_required h
  exact ⟨some value, hOnce⟩

theorem found_of_defaulted (h : defaulted d read key entries = some a) :
    ∃ found, once key entries = some found := by
  obtain ⟨found, hOnce, -⟩ := Option.bind_eq_some_iff.1 h
  exact ⟨found, hOnce⟩

end Accepting

end Record

end TalosWorkflow
