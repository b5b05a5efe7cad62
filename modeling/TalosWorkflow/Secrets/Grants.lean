import Mathlib.Data.List.Infix

/-!
# Vault grants

Which vault keys the `allowed_secrets` of a module permit, and which keys a
grant is documented to stand for.
-/

namespace TalosWorkflow

/-- The key lies in a segment below the path. -/
def Below (path key : String) : Prop := (path ++ "/").toList <+: key.toList

instance (path key : String) : Decidable (Below path key) :=
  inferInstanceAs (Decidable ((path ++ "/").toList <+: key.toList))

def endsInGlob (s : String) : Bool := "/*".toList <:+ s.toList

def patternPermits (keyPath s : String) : Bool :=
  s = "*" || s = keyPath || Below s keyPath
    || (endsInGlob s && s.toList.dropLast <+: keyPath.toList)

def vaultPathPermitted (allowed : List String) (keyPath : String) : Bool :=
  if allowed.isEmpty then false else allowed.any (patternPermits keyPath)

section Meaning

/-- A pattern without the trailing `/*` that it may have. -/
def grantBase (s : String) : String :=
  if endsInGlob s then String.ofList (s.toList.take (s.toList.length - 2)) else s

/-- What a pattern is documented to grant: every key, or its path with all that lies below. -/
def Grants (s key : String) : Prop := s = "*" ∨ grantBase s = key ∨ Below (grantBase s) key

end Meaning

section Globs

variable {s key path : String}

theorem not_below_self : ¬ Below path path := by
  intro h
  have hLength := h.length_le
  rw [String.toList_append, List.length_append] at hLength
  exact absurd hLength (Nat.not_le_of_lt (Nat.lt_add_of_pos_right (by decide)))

/-- A pattern ends in `/*` when it is some path followed by it. -/
theorem endsInGlob_iff : endsInGlob s = true ↔ ∃ path : String, s = path ++ "/*" := by
  rw [endsInGlob, decide_eq_true_iff]
  constructor
  · rintro ⟨front, hFront⟩
    refine ⟨String.ofList front, String.toList_injective ?_⟩
    rw [String.toList_append, String.toList_ofList, hFront]
  · rintro ⟨path, rfl⟩
    rw [String.toList_append]
    exact List.suffix_append _ _

theorem endsInGlob_glob : endsInGlob (path ++ "/*") = true := endsInGlob_iff.2 ⟨path, rfl⟩

theorem grantBase_glob : grantBase (path ++ "/*") = path := by
  rw [grantBase, if_pos endsInGlob_glob, String.toList_append]
  simp

theorem grantBase_plain (h : endsInGlob s = false) : grantBase s = s := by
  rw [grantBase, h]
  rfl

/-- A glob without its star is the path followed by the separator. -/
theorem dropLast_glob : (path ++ "/*").toList.dropLast = (path ++ "/").toList := by
  rw [String.toList_append, String.toList_append]
  exact List.dropLast_append_of_ne_nil (by decide)

theorem Below.of_glob (h : Below (path ++ "/*") key) : Below path key := by
  refine List.IsPrefix.trans ?_ h
  rw [← dropLast_glob, String.toList_append (s := path ++ "/*")]
  exact (List.dropLast_prefix _).trans (List.prefix_append _ _)

theorem glob_ne_star : path ++ "/*" ≠ "*" := by
  intro h
  have hLength := congrArg (fun s : String => s.toList.length) h
  simp at hLength

theorem glob_below_path : Below path (path ++ "/*") := by
  rw [Below, ← dropLast_glob]
  exact List.dropLast_prefix _

end Globs

section Permissions

variable {s key path : String} {allowed : List String}

theorem vaultPathPermitted_eq_any :
    vaultPathPermitted allowed key = allowed.any (patternPermits key) := by
  cases allowed with
  | nil => rfl
  | cons s rest => rfl

/-- A glob permits what lies below its path, and the path itself is not among it. -/
theorem patternPermits_glob : patternPermits key (path ++ "/*") = true ↔ Below path key := by
  simp only [patternPermits, Bool.or_eq_true, Bool.and_eq_true, decide_eq_true_eq,
    dropLast_glob]
  constructor
  · rintro (((hStar | rfl) | hBelow) | ⟨_, hBelow⟩)
    · exact absurd hStar glob_ne_star
    · exact glob_below_path
    · exact hBelow.of_glob
    · exact hBelow
  · intro hBelow
    exact .inr ⟨endsInGlob_glob, hBelow⟩

theorem patternPermits_plain (h : endsInGlob s = false) :
    patternPermits key s = true ↔ s = "*" ∨ s = key ∨ Below s key := by
  simp [patternPermits, h, or_assoc]

/-- A pattern permits all that it grants, except that a glob leaves out its own path. -/
theorem patternPermits_iff : patternPermits key s = true ↔ Grants s key ∧ s ≠ key ++ "/*" := by
  cases hGlob : endsInGlob s with
  | false =>
      have hNe : s ≠ key ++ "/*" := by
        rintro rfl
        rw [endsInGlob_glob] at hGlob
        cases hGlob
      rw [patternPermits_plain hGlob, Grants, grantBase_plain hGlob]
      exact (and_iff_left hNe).symm
  | true =>
      obtain ⟨path, rfl⟩ := endsInGlob_iff.1 hGlob
      rw [patternPermits_glob, Grants, grantBase_glob]
      constructor
      · intro hBelow
        refine ⟨.inr (.inr hBelow), fun hSame => ?_⟩
        have hPath := congrArg grantBase hSame
        rw [grantBase_glob, grantBase_glob] at hPath
        rw [hPath] at hBelow
        exact not_below_self hBelow
      · rintro ⟨hStar | rfl | hBelow, hNe⟩
        · exact absurd hStar glob_ne_star
        · exact absurd rfl hNe
        · exact hBelow

theorem permitted_iff_granted :
    vaultPathPermitted allowed key = true ↔ ∃ s ∈ allowed, s ≠ key ++ "/*" ∧ Grants s key := by
  rw [vaultPathPermitted_eq_any, List.any_eq_true]
  refine exists_congr fun s => and_congr_right fun _ => ?_
  rw [patternPermits_iff, and_comm]

/-- The grants mean what they say for a key unless its own glob is all that grants it; and a glob
never permits the path that the plain form of the grant permits. -/
theorem grants_mean_what_they_say_iff (allowed : List String) (key path : String) :
    ((vaultPathPermitted allowed key = true ↔ ∃ s ∈ allowed, Grants s key) ↔
        (key ++ "/*" ∈ allowed → ∃ s ∈ allowed, s ≠ key ++ "/*" ∧ Grants s key)) ∧
      (vaultPathPermitted [path ++ "/*"] key = true ↔ Below path key) ∧
        vaultPathPermitted [path] path = true ∧ ¬ Below path path := by
  constructor
  · rw [permitted_iff_granted]
    constructor
    · intro hMean hGlob
      exact hMean.2 ⟨key ++ "/*", hGlob, .inr (.inl grantBase_glob)⟩
    · intro hOther
      refine ⟨fun ⟨s, hIn, _, hGrants⟩ => ⟨s, hIn, hGrants⟩, ?_⟩
      rintro ⟨s, hIn, hGrants⟩
      by_cases hGlob : s = key ++ "/*"
      · rw [hGlob] at hIn
        exact hOther hIn
      · exact ⟨s, hIn, hGlob, hGrants⟩
  · refine ⟨?_, ?_, not_below_self⟩
    · rw [vaultPathPermitted_eq_any, List.any_cons, List.any_nil, Bool.or_false]
      exact patternPermits_glob
    · simp [vaultPathPermitted, patternPermits]

/-- The glob of a path does not permit the path itself. -/
theorem bare_path_refused :
    vaultPathPermitted ["oauth/gmail/*"] "oauth/gmail" = false ∧
      (∃ s ∈ ["oauth/gmail/*"], Grants s "oauth/gmail") ∧
        vaultPathPermitted ["oauth/gmail"] "oauth/gmail" = true := by
  refine ⟨by decide, ⟨"oauth/gmail/*", List.mem_singleton_self _, .inr (.inl ?_)⟩, by decide⟩
  exact @grantBase_glob "oauth/gmail"

end Permissions

end TalosWorkflow
