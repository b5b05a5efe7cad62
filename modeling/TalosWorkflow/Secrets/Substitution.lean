import Mathlib.Data.List.TakeWhile
import TalosWorkflow.Secrets.Pipeline

/-!
# Vault substitution

How `vault://` references in a payload are replaced by resolved secrets, one
reference after the other and in three places.
-/

namespace TalosWorkflow

/-- A config key with the path that its value refers to. -/
abbrev VaultRef := String × String

inductive VaultResolverError where
  | secretNotResolved (configKey vaultPath : String)

def VaultResolverError.text : VaultResolverError → String
  | .secretNotResolved configKey vaultPath =>
      "Config key '" ++ configKey ++ "' references vault://" ++ vaultPath ++ " but the secret " ++
        "could not be resolved. Ensure the secret exists (set_secret) and the path is correct."

/-- What follows the prefix `vault://`. -/
def vaultPathOf (s : String) : Option String :=
  if "vault://".toList <+: s.toList then
    some (String.ofList (s.toList.drop "vault://".length))
  else none

/-- A config object, whose keys are distinct. -/
structure JsonObject where
  fields : List (String × Json)
  distinctKeys : (fields.map Prod.fst).Nodup

def vaultRefOf (field : String × Json) : Option VaultRef :=
  match field.2 with
  | .string s => ((vaultPathOf s).filter fun path => path ≠ "").map fun path => (field.1, path)
  | _ => none

def extractVaultRefs (config : Json) : List VaultRef :=
  (config.asObject.getD []).filterMap vaultRefOf

section Places

/-- In place, under every field of the key. -/
def updateFields (key : String) (f : Json → Json) (fields : List (String × Json)) :
    List (String × Json) :=
  fields.map fun field => if field.1 = key then (field.1, f field.2) else field

/-- Only strings that begin with the prefix are replaced. -/
def substituteValue (plaintext : String) : Json → Json
  | .string s => if (vaultPathOf s).isSome then .string plaintext else .string s
  | value => value

def substituteInside (key plaintext : String) : Json → Json
  | .object inner => .object (updateFields key (substituteValue plaintext) inner)
  | value => value

/-- One turn of `replace_vault_values`. -/
def substituteRef (key plaintext : String) : Json → Json
  | .object fields =>
      let fields := updateFields key (substituteValue plaintext) fields
      let fields := updateFields "config" (substituteInside key plaintext) fields
      .object (updateFields "input" (substituteInside key plaintext) fields)
  | payload => payload

def replaceVaultValues (resolved : Secrets) :
    List VaultRef → Json → Except VaultResolverError Unit × Json
  | [], payload => (.ok (), payload)
  | (key, path) :: rest, payload =>
      match resolved.lookup path with
      | none => (.error (.secretNotResolved key path), payload)
      | some plaintext => replaceVaultValues resolved rest (substituteRef key plaintext payload)

end Places

section Strings

/-- A map of the strings in the three places, given their keys. -/
abbrev StringMap := String → String → String

def mapString (g : StringMap) (field : String × Json) : String × Json :=
  match field.2 with
  | .string s => (field.1, .string (g field.1 s))
  | _ => field

def mapInside (g : StringMap) (field : String × Json) : String × Json :=
  match field.2 with
  | .object inner =>
      if field.1 ∈ ["config", "input"] then (field.1, .object (inner.map (mapString g))) else field
  | _ => mapString g field

def mapPlaces (g : StringMap) : Json → Json
  | .object fields => .object (fields.map (mapInside g))
  | payload => payload

/-- A string under a key, at the top level or in one of the two objects below it. -/
inductive StandsAt : Json → String → String → Prop
  | top {fields : List (String × Json)} {key s : String} (h : (key, .string s) ∈ fields) :
      StandsAt (.object fields) key s
  | inside {fields inner : List (String × Json)} {outer key s : String}
      (hOuter : outer ∈ ["config", "input"]) (hObject : (outer, .object inner) ∈ fields)
      (h : (key, .string s) ∈ inner) : StandsAt (.object fields) key s

variable {g h : StringMap}

theorem mapString_mapString (field : String × Json) :
    mapString g (mapString h field) = mapString (fun key s => g key (h key s)) field := by
  obtain ⟨key, value⟩ := field
  cases value <;> rfl

theorem mapInside_mapInside (field : String × Json) :
    mapInside g (mapInside h field) = mapInside (fun key s => g key (h key s)) field := by
  obtain ⟨key, value⟩ := field
  cases value with
  | object inner =>
      by_cases hKey : key ∈ ["config", "input"]
      · simp only [mapInside, if_pos hKey, List.map_map]
        congr 2
        exact List.map_congr_left fun field _ => mapString_mapString field
      · simp only [mapInside, if_neg hKey]
  | _ => rfl

theorem mapPlaces_mapPlaces (payload : Json) :
    mapPlaces g (mapPlaces h payload) = mapPlaces (fun key s => g key (h key s)) payload := by
  cases payload with
  | object fields =>
      simp only [mapPlaces, List.map_map]
      congr 1
      exact List.map_congr_left fun field _ => mapInside_mapInside field
  | _ => rfl

theorem map_mapString_eq_iff {fields : List (String × Json)} :
    fields.map (mapString g) = fields.map (mapString h) ↔
      ∀ key s, (key, .string s) ∈ fields → g key s = h key s := by
  rw [List.map_inj_left]
  constructor
  · intro hSame key s hIn
    have hField := hSame _ hIn
    simpa [mapString] using hField
  · rintro hSame ⟨key, value⟩ hIn
    cases value with
    | string s => simp only [mapString, hSame key s hIn]
    | _ => rfl

/-- Two maps give the same payload when they agree on the strings in the three places. -/
theorem mapPlaces_eq_iff {payload : Json} :
    mapPlaces g payload = mapPlaces h payload ↔
      ∀ key s, StandsAt payload key s → g key s = h key s := by
  cases payload with
  | object fields =>
      simp only [mapPlaces, Json.object.injEq, List.map_inj_left]
      constructor
      · rintro hSame key s (⟨hIn⟩ | ⟨hOuter, hObject, hIn⟩)
        · simpa [mapInside, mapString] using hSame _ hIn
        · have hField := hSame _ hObject
          simp only [mapInside, if_pos hOuter, Prod.mk.injEq, Json.object.injEq, true_and] at hField
          exact map_mapString_eq_iff.1 hField key s hIn
      · rintro hSame ⟨key, value⟩ hIn
        cases value with
        | string s => simp only [mapInside, mapString, hSame key s (.top hIn)]
        | object inner =>
            by_cases hKey : key ∈ ["config", "input"]
            · simp only [mapInside, if_pos hKey]
              rw [map_mapString_eq_iff.2 fun k s hInner => hSame k s (.inside hKey hIn hInner)]
            · simp only [mapInside, if_neg hKey]
        | _ => rfl
  | _ =>
      simp only [mapPlaces, true_iff]
      intro key s hStands
      cases hStands

theorem mapString_id (field : String × Json) : mapString (fun _ s => s) field = field := by
  obtain ⟨key, value⟩ := field
  cases value <;> rfl

theorem mapPlaces_id (payload : Json) : mapPlaces (fun _ s => s) payload = payload := by
  cases payload with
  | object fields =>
      simp only [mapPlaces]
      congr 1
      conv_rhs => rw [← List.map_id fields]
      refine List.map_congr_left fun field _ => ?_
      obtain ⟨key, value⟩ := field
      cases value with
      | object inner =>
          by_cases hKey : key ∈ ["config", "input"]
          · simp only [mapInside, if_pos hKey, id_eq]
            congr 2
            conv_rhs => rw [← List.map_id inner]
            exact List.map_congr_left fun field _ => mapString_id field
          · simp only [mapInside, if_neg hKey, id_eq]
      | _ => rfl
  | _ => rfl

end Strings

section Refs

def refsMap (resolved : Secrets) (refs : List VaultRef) : StringMap := fun key s =>
  if (vaultPathOf s).isSome then ((refs.lookup key).bind resolved.lookup).getD s else s

/-- The references before the first one that is not resolved. -/
def resolvedFront (resolved : Secrets) (refs : List VaultRef) : List VaultRef :=
  refs.takeWhile fun ref => (resolved.lookup ref.2).isSome

variable {resolved : Secrets} {refs : List VaultRef}

theorem substituteRef_eq (key plaintext : String) (payload : Json) :
    substituteRef key plaintext payload =
      mapPlaces (fun k s => if k = key ∧ (vaultPathOf s).isSome then plaintext else s) payload := by
  cases payload with
  | object fields =>
      simp only [substituteRef, mapPlaces, updateFields, List.map_map]
      congr 1
      refine List.map_congr_left fun field _ => ?_
      obtain ⟨k, value⟩ := field
      have hInner : ∀ inner : List (String × Json),
          updateFields key (substituteValue plaintext) inner = inner.map (mapString fun k s =>
            if k = key ∧ (vaultPathOf s).isSome then plaintext else s) := by
        intro inner
        refine List.map_congr_left fun field _ => ?_
        obtain ⟨k, value⟩ := field
        cases value <;> by_cases hKey : k = key <;>
          simp [mapString, substituteValue, hKey, apply_ite Json.string]
      cases value with
      | string s =>
          by_cases hKey : k = key
          · by_cases hVault : (vaultPathOf s).isSome = true
            · simp [mapInside, mapString, substituteValue, substituteInside, hKey, hVault]
            · simp [mapInside, mapString, substituteValue, substituteInside, hKey, hVault]
          · simp [mapInside, mapString, substituteInside, hKey]
      | object inner =>
          by_cases hConfig : k = "config"
          · subst hConfig
            simp [mapInside, substituteValue, substituteInside, hInner]
          · by_cases hInput : k = "input"
            · subst hInput
              simp [mapInside, substituteValue, substituteInside, hInner]
            · simp [mapInside, substituteValue, hConfig, hInput]
      | _ => simp [mapInside, mapString, substituteValue, substituteInside]
  | _ => rfl

/-- A reference whose key has no other one replaces its strings once. -/
theorem refsMap_cons {key path plaintext : String} (hFound : resolved.lookup path = some plaintext)
    (hKey : key ∉ refs.map Prod.fst) :
    refsMap resolved ((key, path) :: refs) = fun k s => refsMap resolved refs k
      (if k = key ∧ (vaultPathOf s).isSome then plaintext else s) := by
  funext k s
  by_cases hVault : (vaultPathOf s).isSome = true
  · by_cases hSame : k = key
    · have hNone : refs.lookup k = none := by
        rw [List.lookup_eq_none_iff]
        intro ref hRef
        refine bne_iff_ne.2 fun hRefKey => hKey ?_
        rw [← hSame, hRefKey]
        exact List.mem_map_of_mem hRef
      simp only [refsMap, hSame ▸ hNone, hSame, hVault, and_self, if_true, List.lookup_cons_self,
        Option.bind_some, hFound, Option.getD_some, Option.bind_none, Option.getD_none, ite_self]
    · simp only [refsMap, hVault, hSame, false_and, if_true, if_false, List.lookup_cons,
        beq_false_of_ne hSame]
  · simp only [refsMap, hVault, and_false, if_false, Bool.false_eq_true]

/-- Whatever the answer, exactly the references before the first unresolved one are replaced. -/
theorem replaceVaultValues_eq (hKeys : (refs.map Prod.fst).Nodup) (payload : Json) :
    replaceVaultValues resolved refs payload =
      (match refs.find? fun ref => (resolved.lookup ref.2).isNone with
        | none => .ok ()
        | some ref => .error (.secretNotResolved ref.1 ref.2),
      mapPlaces (refsMap resolved (resolvedFront resolved refs)) payload) := by
  induction refs generalizing payload with
  | nil =>
      have hNothing : refsMap resolved (resolvedFront resolved []) = fun _ s => s := by
        funext key s
        simp [refsMap, resolvedFront]
      rw [hNothing, mapPlaces_id]
      rfl
  | cons ref rest ih =>
      obtain ⟨key, path⟩ := ref
      rw [List.map_cons, List.nodup_cons] at hKeys
      rw [replaceVaultValues]
      cases hFound : resolved.lookup path with
      | none =>
          have hNothing : refsMap resolved (resolvedFront resolved ((key, path) :: rest)) =
              fun _ s => s := by
            funext key s
            simp [refsMap, resolvedFront, hFound]
          rw [hNothing, mapPlaces_id]
          simp [hFound]
      | some plaintext =>
          have hFront : resolvedFront resolved ((key, path) :: rest) =
              (key, path) :: resolvedFront resolved rest := by
            simp [resolvedFront, hFound]
          have hFresh : key ∉ (resolvedFront resolved rest).map Prod.fst := by
            intro hIn
            refine hKeys.1 (List.Sublist.subset (List.Sublist.map _ ?_) hIn)
            exact (List.takeWhile_prefix _).sublist
          have hFind : ((key, path) :: rest).find? (fun ref => (resolved.lookup ref.2).isNone) =
              rest.find? fun ref => (resolved.lookup ref.2).isNone := by
            simp [hFound]
          simp only
          rw [ih hKeys.2, hFind, hFront, refsMap_cons hFound hFresh, substituteRef_eq,
            mapPlaces_mapPlaces]

end Refs

section Exactness

/-- A string under a referenced key is replaced by the secret of its own path. -/
def ownSecrets (resolved : Secrets) (refs : List VaultRef) : StringMap := fun key s =>
  if (refs.lookup key).isSome then ((vaultPathOf s).bind resolved.lookup).getD s else s

/-- Each vault string under a referenced key gets its own secret, and nothing else changes. -/
def SubstitutedExactly (resolved : Secrets) (refs : List VaultRef) (before after : Json) : Prop :=
  (∀ key s path, StandsAt before key s → (refs.lookup key).isSome = true →
    vaultPathOf s = some path → (resolved.lookup path).isSome = true) ∧
      after = mapPlaces (ownSecrets resolved refs) before

def AllOrNothing (resolved : Secrets) (refs : List VaultRef) (payload : Json) : Prop :=
  match (replaceVaultValues resolved refs payload).1 with
  | .ok () => SubstitutedExactly resolved refs payload (replaceVaultValues resolved refs payload).2
  | .error _ => (replaceVaultValues resolved refs payload).2 = payload

/-- What a key's strings refer to in the payload agrees with what its config entry refers to; and
where some reference is not resolved, those before it have nothing to replace. -/
def SubstitutesSafely (resolved : Secrets) (refs : List VaultRef) (payload : Json) : Prop :=
  ((∀ ref ∈ refs, (resolved.lookup ref.2).isSome = true) → ∀ ref ∈ refs, ∀ s path,
    StandsAt payload ref.1 s → vaultPathOf s = some path →
      resolved.lookup path = resolved.lookup ref.2) ∧
  ((∃ ref ∈ refs, resolved.lookup ref.2 = none) → ∀ ref ∈ resolvedFront resolved refs, ∀ s,
    StandsAt payload ref.1 s → (vaultPathOf s).isSome = true → resolved.lookup ref.2 = some s)

variable {resolved : Secrets} {refs : List VaultRef} {payload : Json}

theorem lookup_of_mem_refs (hKeys : (refs.map Prod.fst).Nodup) {ref : VaultRef} (h : ref ∈ refs) :
    refs.lookup ref.1 = some ref.2 := by
  induction refs with
  | nil => cases h
  | cons first rest ih =>
      rw [List.map_cons, List.nodup_cons] at hKeys
      obtain rfl | h := List.mem_cons.1 h
      · exact List.lookup_cons_self
      · have hNe : ref.1 ≠ first.1 := fun hSame => hKeys.1 (hSame ▸ List.mem_map_of_mem h)
        rw [List.lookup_cons, beq_false_of_ne hNe]
        exact ih hKeys.2 h

theorem mem_refs_of_lookup {key path : String} (h : refs.lookup key = some path) :
    (key, path) ∈ refs := by
  obtain ⟨before, after, rfl, -⟩ := List.lookup_eq_some_iff.1 h
  exact List.mem_append_right _ List.mem_cons_self

theorem all_resolved_iff :
    (refs.find? fun ref => (resolved.lookup ref.2).isNone) = none ↔
      ∀ ref ∈ refs, (resolved.lookup ref.2).isSome = true := by
  simp [List.find?_eq_none, Option.isSome_iff_ne_none]

theorem substituted_exactly_iff (hKeys : (refs.map Prod.fst).Nodup)
    (hResolved : ∀ ref ∈ refs, (resolved.lookup ref.2).isSome = true) :
    SubstitutedExactly resolved refs payload (mapPlaces (refsMap resolved refs) payload) ↔
      ∀ ref ∈ refs, ∀ s path, StandsAt payload ref.1 s → vaultPathOf s = some path →
        resolved.lookup path = resolved.lookup ref.2 := by
  rw [SubstitutedExactly, mapPlaces_eq_iff]
  constructor
  · rintro ⟨hFound, hSame⟩ ref hRef s path hStands hPath
    have hLookup := lookup_of_mem_refs hKeys hRef
    have hOwn := hSame ref.1 s hStands
    have hSome := hFound ref.1 s path hStands (by rw [hLookup]; rfl) hPath
    obtain ⟨given, hGiven⟩ := Option.isSome_iff_exists.1 (hResolved ref hRef)
    obtain ⟨own, hOwnFound⟩ := Option.isSome_iff_exists.1 hSome
    simp only [refsMap, ownSecrets, hPath, hLookup, Option.isSome_some, if_true, Option.bind_some,
      hGiven, hOwnFound, Option.getD_some] at hOwn
    rw [hGiven, hOwnFound, hOwn]
  · intro hAgree
    refine ⟨fun key s path hStands hKey hPath => ?_, fun key s hStands => ?_⟩
    · obtain ⟨refPath, hLookup⟩ := Option.isSome_iff_exists.1 hKey
      have hRef := mem_refs_of_lookup hLookup
      rw [hAgree _ hRef s path hStands hPath]
      exact hResolved _ hRef
    · simp only [refsMap, ownSecrets]
      cases hPath : vaultPathOf s with
      | none => simp
      | some path =>
          cases hLookup : refs.lookup key with
          | none => simp
          | some refPath =>
              have hRef := mem_refs_of_lookup hLookup
              simp only [Option.isSome_some, if_true, Option.bind_some,
                hAgree _ hRef s path hStands hPath]

theorem unchanged_iff (hKeys : (refs.map Prod.fst).Nodup)
    (hResolved : ∀ ref ∈ refs, (resolved.lookup ref.2).isSome = true) :
    mapPlaces (refsMap resolved refs) payload = payload ↔
      ∀ ref ∈ refs, ∀ s, StandsAt payload ref.1 s → (vaultPathOf s).isSome = true →
        resolved.lookup ref.2 = some s := by
  conv_lhs => rhs; rw [← mapPlaces_id payload]
  rw [mapPlaces_eq_iff]
  constructor
  · intro hSame ref hRef s hStands hVault
    have hString := hSame ref.1 s hStands
    obtain ⟨plaintext, hFound⟩ := Option.isSome_iff_exists.1 (hResolved ref hRef)
    simp only [refsMap, hVault, if_true, lookup_of_mem_refs hKeys hRef, Option.bind_some, hFound,
      Option.getD_some] at hString
    rw [hFound, hString]
  · intro hNothing key s hStands
    simp only [refsMap]
    split
    · rename_i hVault
      cases hLookup : refs.lookup key with
      | none => rfl
      | some path =>
          rw [Option.bind_some, hNothing _ (mem_refs_of_lookup hLookup) s hStands hVault,
            Option.getD_some]
    · rfl

theorem allOrNothing_iff (hKeys : (refs.map Prod.fst).Nodup) :
    AllOrNothing resolved refs payload ↔ SubstitutesSafely resolved refs payload := by
  have hFrontKeys : ((resolvedFront resolved refs).map Prod.fst).Nodup :=
    hKeys.sublist ((List.takeWhile_prefix _).sublist.map _)
  have hFrontResolved : ∀ ref ∈ resolvedFront resolved refs,
      (resolved.lookup ref.2).isSome = true := by
    intro ref hRef
    exact List.mem_takeWhile_imp (p := fun ref : VaultRef => (resolved.lookup ref.2).isSome) hRef
  rw [AllOrNothing, SubstitutesSafely, replaceVaultValues_eq hKeys]
  cases hFind : refs.find? fun ref => (resolved.lookup ref.2).isNone with
  | none =>
      have hResolved := all_resolved_iff.1 hFind
      have hFront : resolvedFront resolved refs = refs := List.takeWhile_eq_self_iff.2 hResolved
      have hNotNone : ¬ ∃ ref ∈ refs, resolved.lookup ref.2 = none := by
        rintro ⟨ref, hRef, hNone⟩
        have hSome := hResolved ref hRef
        rw [hNone] at hSome
        cases hSome
      simp only [hFront]
      rw [substituted_exactly_iff hKeys hResolved]
      exact ⟨fun hExact => ⟨fun _ => hExact, fun hNone => absurd hNone hNotNone⟩,
        fun hSafe => hSafe.1 hResolved⟩
  | some ref =>
      have hRef := List.mem_of_find?_eq_some hFind
      have hNone : resolved.lookup ref.2 = none := by
        simpa using List.find?_some hFind
      have hNotAll : ¬ ∀ ref ∈ refs, (resolved.lookup ref.2).isSome = true := by
        intro hAll
        have hSome := hAll ref hRef
        rw [hNone] at hSome
        cases hSome
      simp only
      rw [unchanged_iff hFrontKeys hFrontResolved]
      exact ⟨fun hNothing => ⟨fun hAll => absurd hAll hNotAll, fun _ => hNothing⟩,
        fun hSafe => hSafe.2 ⟨ref, hRef, hNone⟩⟩

theorem extractVaultRefs_keys (config : JsonObject) :
    ((extractVaultRefs (.object config.fields)).map Prod.fst).Nodup := by
  have hKeys := config.distinctKeys
  rw [List.Nodup, List.pairwise_map] at hKeys ⊢
  have hKey : ∀ field ref, vaultRefOf field = some ref → ref.1 = field.1 := by
    intro field ref h
    unfold vaultRefOf at h
    split at h
    · obtain ⟨path, -, rfl⟩ := Option.map_eq_some_iff.1 h
      rfl
    · cases h
  refine hKeys.filterMap _ fun field other hNe ref hRef ref' hRef' => ?_
  rw [hKey field ref hRef, hKey other ref' hRef']
  exact hNe

/-- The substitution is all or nothing, and gives each string its own secret, exactly when the
strings under a key agree with the config and no reference is replaced ahead of an unresolved
one. -/
theorem substitution_exact_iff (payload : Json) (config : JsonObject) (resolved : Secrets) :
    AllOrNothing resolved (extractVaultRefs (.object config.fields)) payload ↔
      SubstitutesSafely resolved (extractVaultRefs (.object config.fields)) payload :=
  allOrNothing_iff (extractVaultRefs_keys config)

def twoRefs : JsonObject := ⟨[("K", .string "vault://a"), ("L", .string "vault://b")], by decide⟩

/-- An error leaves the references before the missing one replaced; and under one key, the secret
of the config's path replaces a reference to another path. -/
theorem substitution_partial_and_inexact :
    (replaceVaultValues (AList.singleton "a" "first") (extractVaultRefs (.object twoRefs.fields))
        (.object twoRefs.fields) =
      (.error (.secretNotResolved "L" "b"),
        .object [("K", .string "first"), ("L", .string "vault://b")])) ∧
    (replaceVaultValues ((AList.singleton "a" "first").insert "b" "second")
        (extractVaultRefs (.object twoRefs.fields))
        (.object [("input", .object [("K", .string "vault://b")])]) =
      (.ok (), .object [("input", .object [("K", .string "first")])])) ∧
    ¬ AllOrNothing (AList.singleton "a" "first") (extractVaultRefs (.object twoRefs.fields))
      (.object twoRefs.fields) ∧
    ¬ AllOrNothing ((AList.singleton "a" "first").insert "b" "second")
      (extractVaultRefs (.object twoRefs.fields))
      (.object [("input", .object [("K", .string "vault://b")])]) := by
  have hPartial : replaceVaultValues (AList.singleton "a" "first")
      (extractVaultRefs (.object twoRefs.fields)) (.object twoRefs.fields) =
      (.error (.secretNotResolved "L" "b"),
        .object [("K", .string "first"), ("L", .string "vault://b")]) := by rfl
  have hInexact : replaceVaultValues ((AList.singleton "a" "first").insert "b" "second")
      (extractVaultRefs (.object twoRefs.fields))
      (.object [("input", .object [("K", .string "vault://b")])]) =
      (.ok (), .object [("input", .object [("K", .string "first")])]) := by rfl
  refine ⟨hPartial, hInexact, fun hWhole => ?_, fun hWhole => ?_⟩
  · rw [AllOrNothing, hPartial] at hWhole
    exact absurd hWhole (by decide)
  · rw [AllOrNothing, hInexact] at hWhole
    exact absurd hWhole.2 (by decide)

end Exactness

end TalosWorkflow
