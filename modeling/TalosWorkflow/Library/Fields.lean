import Mathlib.Algebra.BigOperators.Group.List.Basic
import Mathlib.Algebra.GroupWithZero.Nat
import Mathlib.Data.List.Forall2
import Mathlib.Data.Set.Basic

/-!
# Joined fields

A format is a list of classes of words. When the words of each class can be
told from what follows a separator, the fields are determined by their join.
-/

namespace TalosWorkflow

universe u

section Classes

variable {σ : Type u}

/-- A word of the class ends before a separator in one place only. -/
def Delimited (sep : σ) (words : Set (List σ)) : Prop :=
  ∀ u ∈ words, ∀ v ∈ words, ∀ r s, u ++ sep :: r = v ++ sep :: s → u = v

variable {sep : σ} {words words' : Set (List σ)}

theorem Delimited.mono (h : Delimited sep words) (hSub : words' ⊆ words) : Delimited sep words' :=
  fun u hu v hv => h u (hSub hu) v (hSub hv)

/-- Words with the same number of separators. -/
theorem delimited_count [DecidableEq σ] (sep : σ) (k : Nat) :
    Delimited sep {w | w.count sep = k} := by
  intro u hu v hv r s
  induction u generalizing v k with
  | nil =>
      intro h
      cases v with
      | nil => rfl
      | cons c v =>
          obtain ⟨rfl, -⟩ := List.cons.inj h
          have hEmpty : 0 = k := hu
          have hOne : (sep :: v).count sep = k := hv
          rw [List.count_cons_self] at hOne
          omega
  | cons a u ih =>
      intro h
      cases v with
      | nil =>
          obtain ⟨rfl, -⟩ := List.cons.inj h
          have hEmpty : 0 = k := hv
          have hOne : (a :: u).count a = k := hu
          rw [List.count_cons_self] at hOne
          omega
      | cons c v =>
          obtain ⟨rfl, hRest⟩ := List.cons.inj h
          have hu' : (a :: u).count sep = k := hu
          have hv' : (a :: v).count sep = k := hv
          rw [List.count_cons] at hu' hv'
          rw [ih (u.count sep) rfl v (show v.count sep = u.count sep by omega) hRest]

/-- Equally heavy words in front of one list are equal. -/
theorem eq_of_append_eq_append_of_weight {weight : σ → Nat} (hPos : ∀ c, 0 < weight c)
    {u v r s : List σ} (h : u ++ r = v ++ s)
    (hWeight : (u.map weight).sum = (v.map weight).sum) : u = v := by
  induction u generalizing v with
  | nil =>
      cases v with
      | nil => rfl
      | cons c v =>
          have hHead := hPos c
          simp only [List.map_nil, List.sum_nil, List.map_cons, List.sum_cons] at hWeight
          omega
  | cons a u ih =>
      cases v with
      | nil =>
          have hHead := hPos a
          simp only [List.map_nil, List.sum_nil, List.map_cons, List.sum_cons] at hWeight
          omega
      | cons c v =>
          obtain ⟨rfl, hRest⟩ := List.cons.inj h
          simp only [List.map_cons, List.sum_cons, Nat.add_left_cancel_iff] at hWeight
          rw [ih hRest hWeight]

def counted (sep : σ) (numeral : Nat → List σ) (weight : σ → Nat) : Set (List σ) :=
  {w | ∃ body, w = numeral (body.map weight).sum ++ sep :: body}

theorem delimited_counted [DecidableEq σ] {numeral : Nat → List σ} {weight : σ → Nat}
    (hFree : ∀ n, sep ∉ numeral n) (hNumeral : Function.Injective numeral)
    (hPos : ∀ c, 0 < weight c) : Delimited sep (counted sep numeral weight) := by
  rintro - ⟨a, rfl⟩ - ⟨b, rfl⟩ r s h
  simp only [List.append_assoc, List.cons_append] at h
  have hHead := delimited_count sep 0 _ (List.count_eq_zero.2 (hFree _)) _
    (List.count_eq_zero.2 (hFree _)) _ _ h
  rw [hHead, List.append_cancel_left_eq] at h
  rw [eq_of_append_eq_append_of_weight hPos (List.cons.inj h).2 (hNumeral hHead)]

end Classes

section Formats

variable {σ : Type u} {sep : σ}

theorem intercalate_append_sep {us : List (List σ)} (h : us ≠ []) :
    [sep].intercalate us ++ [sep] = us.flatMap (· ++ [sep]) := by
  induction us with
  | nil => exact absurd rfl h
  | cons u us ih =>
      cases us with
      | nil => simp [List.intercalate]
      | cons v us =>
          rw [List.flatMap_cons, ← ih (List.cons_ne_nil v us)]
          simp [List.intercalate]

theorem flatMap_sep_inj {formats : List (Set (List σ))} {us vs : List (List σ)}
    (hFormats : ∀ words ∈ formats, Delimited sep words)
    (hu : List.Forall₂ (fun words u => u ∈ words) formats us)
    (hv : List.Forall₂ (fun words v => v ∈ words) formats vs)
    (h : us.flatMap (· ++ [sep]) = vs.flatMap (· ++ [sep])) : us = vs := by
  induction hu generalizing vs with
  | nil =>
      cases hv
      rfl
  | cons hHead hTail ih =>
      cases hv with
      | cons hHead' hTail' =>
          rw [List.flatMap_cons, List.flatMap_cons, List.append_assoc, List.append_assoc] at h
          have hSame := hFormats _ List.mem_cons_self _ hHead _ hHead' _ _ h
          rw [hSame, List.append_cancel_left_eq, List.append_cancel_left_eq] at h
          rw [hSame, ih (fun words hIn => hFormats words (List.mem_cons_of_mem _ hIn)) hTail' h]

/-- The fields of a format of delimited classes are determined by their join. -/
theorem fields_inj {formats : List (Set (List σ))} {us vs : List (List σ)}
    (hFormats : ∀ words ∈ formats, Delimited sep words)
    (hu : List.Forall₂ (fun words u => u ∈ words) formats us)
    (hv : List.Forall₂ (fun words v => v ∈ words) formats vs)
    (h : [sep].intercalate us = [sep].intercalate vs) : us = vs := by
  cases hu with
  | nil =>
      cases hv
      rfl
  | cons hHead hTail =>
      cases hv with
      | cons hHead' hTail' =>
          refine flatMap_sep_inj hFormats (.cons hHead hTail) (.cons hHead' hTail') ?_
          rw [← intercalate_append_sep (List.cons_ne_nil _ _),
            ← intercalate_append_sep (List.cons_ne_nil _ _), h]

/-- The first fields, and what the others are joined to, when there are others. -/
theorem head_inj {words : Set (List σ)} {u v : List σ} {us vs : List (List σ)}
    (hWords : Delimited sep words) (hu : u ∈ words) (hv : v ∈ words) (hus : us ≠ [])
    (hvs : vs ≠ []) (h : [sep].intercalate (u :: us) = [sep].intercalate (v :: vs)) :
    u = v ∧ [sep].intercalate us = [sep].intercalate vs := by
  rw [List.intercalate_cons_of_ne_nil hus, List.intercalate_cons_of_ne_nil hvs, List.append_assoc,
    List.append_assoc] at h
  have hSame := hWords u hu v hv _ _ h
  rw [hSame, List.append_cancel_left_eq, List.append_cancel_left_eq] at h
  exact ⟨hSame, h⟩

/-- Any number of words without a separator, when no words do not read like one empty word. -/
theorem words_inj [DecidableEq σ] {us vs : List (List σ)} (hu : ∀ u ∈ us, sep ∉ u)
    (hv : ∀ v ∈ vs, sep ∉ v) (hus : us ≠ [[]]) (hvs : vs ≠ [[]])
    (h : [sep].intercalate us = [sep].intercalate vs) : us = vs := by
  have hSome : ∀ words : List (List σ), (∀ w ∈ words, sep ∉ w) → words ≠ [[]] →
      [sep].intercalate words = [] → words = [] := by
    intro words hFree hNot hNil
    by_contra hWords
    have hSplit := List.splitOn_intercalate sep hFree hWords
    rw [hNil] at hSplit
    exact hNot hSplit.symm
  obtain rfl | hLeft := eq_or_ne us []
  · exact (hSome vs hv hvs h.symm).symm
  · obtain rfl | hRight := eq_or_ne vs []
    · exact hSome us hu hus h
    · rw [← List.splitOn_intercalate sep hu hLeft, h, List.splitOn_intercalate sep hv hRight]

end Formats

section Collisions

variable {σ : Type u} {sep : σ} {us vs : List (List σ)}

/-- In some place the one word goes on with a separator where the other one ends. -/
def RunsOn (sep : σ) (us vs : List (List σ)) : Prop :=
  ∃ i : Nat, ∃ u v r, us[i]? = some u ∧ vs[i]? = some v ∧ (u = v ++ sep :: r ∨ v = u ++ sep :: r)

theorem RunsOn.exists_mem (h : RunsOn sep us vs) : ∃ w ∈ us ++ vs, sep ∈ w := by
  obtain ⟨i, u, v, r, hu, hv, rfl | rfl⟩ := h
  · exact ⟨_, List.mem_append_left _ (List.mem_of_getElem? hu), by simp⟩
  · exact ⟨_, List.mem_append_right _ (List.mem_of_getElem? hv), by simp⟩

theorem not_runsOn_self (us : List (List σ)) : ¬ RunsOn sep us us := by
  rintro ⟨i, u, v, r, hu, hv, hEq⟩
  obtain rfl : u = v := Option.some.inj (hu.symm.trans hv)
  obtain hEq | hEq := hEq <;> simp at hEq

theorem RunsOn.cons (h : RunsOn sep us vs) (u v : List σ) : RunsOn sep (u :: us) (v :: vs) := by
  obtain ⟨i, u', v', r, hu, hv, hEq⟩ := h
  exact ⟨i + 1, u', v', r, hu, hv, hEq⟩

/-- Words in front of one text are equal, or one is the beginning of the other. -/
theorem eq_or_runsOn_of_append_eq {u v r s : List σ} (hr : ∀ c ∈ r.head?, c = sep)
    (hs : ∀ c ∈ s.head?, c = sep) (h : u ++ r = v ++ s) :
    u = v ∨ (∃ t, u = v ++ sep :: t) ∨ ∃ t, v = u ++ sep :: t := by
  obtain ⟨t, rfl, hRest⟩ | ⟨t, rfl, hRest⟩ := List.append_eq_append_iff.1 h
  · cases t with
    | nil => exact .inl (List.append_nil u).symm
    | cons c t =>
        obtain rfl : c = sep := hr c (by rw [hRest]; rfl)
        exact .inr (.inr ⟨t, rfl⟩)
  · cases t with
    | nil => exact .inl (List.append_nil v)
    | cons c t =>
        obtain rfl : c = sep := hs c (by rw [hRest]; rfl)
        exact .inr (.inl ⟨t, rfl⟩)

/-- A join keeps words apart none of which runs on. -/
theorem intercalate_inj_of_not_runsOn (hNot : ¬ RunsOn sep us vs) (hus : us ≠ []) (hvs : vs ≠ [])
    (h : [sep].intercalate us = [sep].intercalate vs) : us = vs := by
  have hJoin : ∀ (w : List σ) (ws : List (List σ)), ∃ tail, [sep].intercalate (w :: ws) = w ++ tail ∧
      (∀ c ∈ tail.head?, c = sep) ∧ (ws = [] ∧ tail = [] ∨
        ws ≠ [] ∧ tail = sep :: [sep].intercalate ws) := by
    intro w ws
    obtain rfl | hSome := eq_or_ne ws []
    · exact ⟨[], by simp [List.intercalate], by simp, .inl ⟨rfl, rfl⟩⟩
    · refine ⟨sep :: [sep].intercalate ws, ?_, by simp, .inr ⟨hSome, rfl⟩⟩
      rw [List.intercalate_cons_of_ne_nil hSome, List.append_assoc]
      rfl
  induction us generalizing vs with
  | nil => exact absurd rfl hus
  | cons u us ih =>
      obtain ⟨v, vs, rfl⟩ := List.exists_cons_of_ne_nil hvs
      obtain ⟨r, hu, hr, hTailU⟩ := hJoin u us
      obtain ⟨s, hv, hs, hTailV⟩ := hJoin v vs
      rw [hu, hv] at h
      obtain rfl | ⟨t, hRuns⟩ | ⟨t, hRuns⟩ := eq_or_runsOn_of_append_eq hr hs h
      · rw [List.append_cancel_left_eq] at h
        obtain ⟨rfl, rfl⟩ | ⟨hSomeU, rfl⟩ := hTailU <;> obtain ⟨rfl, rfl⟩ | ⟨hSomeV, rfl⟩ := hTailV
        · rfl
        · cases h
        · cases h
        · rw [ih (fun hRuns => hNot (hRuns.cons u u)) hSomeU hSomeV (List.cons.inj h).2]
      · exact absurd ⟨0, u, v, t, rfl, rfl, .inl hRuns⟩ hNot
      · exact absurd ⟨0, u, v, t, rfl, rfl, .inr hRuns⟩ hNot

/-- A word of the class is told from whatever follows it. -/
def SelfDelimiting (words : Set (List σ)) : Prop :=
  ∀ u ∈ words, ∀ v ∈ words, ∀ r s, u ++ r = v ++ s → u = v

theorem SelfDelimiting.intercalate_inj {words : Set (List σ)} {sep : List σ}
    (hWords : SelfDelimiting words) (hu : ∀ u ∈ us, u ∈ words) (hv : ∀ v ∈ vs, v ∈ words)
    (hLength : us.length = vs.length) (h : sep.intercalate us = sep.intercalate vs) : us = vs := by
  induction us generalizing vs with
  | nil => exact (List.length_eq_zero_iff.1 hLength.symm).symm
  | cons u us ih =>
      obtain ⟨v, vs, rfl⟩ := List.exists_cons_of_length_eq_add_one hLength.symm
      rw [List.forall_mem_cons] at hu hv
      rw [List.length_cons, List.length_cons, Nat.add_right_cancel_iff] at hLength
      obtain rfl | hSome := eq_or_ne us []
      · obtain rfl := List.length_eq_zero_iff.1 hLength.symm
        simpa [List.intercalate] using h
      · have hSome' : vs ≠ [] := by
          rintro rfl
          exact hSome (List.length_eq_zero_iff.1 hLength)
        rw [List.intercalate_cons_of_ne_nil hSome, List.intercalate_cons_of_ne_nil hSome',
          List.append_assoc, List.append_assoc] at h
        obtain rfl := hWords u hu.1 v hv.1 _ _ h
        rw [List.append_cancel_left_eq, List.append_cancel_left_eq] at h
        rw [ih hu.2 hv.2 hLength h]

end Collisions

end TalosWorkflow
