import TalosWorkflow.Engine

/-!
# Gathered inputs

What of a module's output reaches the inputs of the nodes behind it.
-/

namespace TalosWorkflow

/-- The object under `input` is taken for the payload of its wrapper. -/
def isWrapper (fields inner : List (String × Json)) : Bool :=
  inner.all (fun field => (fields.lookup field.1).isSome) && !inner.isEmpty

/-- The keys of the envelope that the engine puts around a payload. -/
def envelopeKeys : List String := ["input", "config"]

/-- Every outer field beside the envelope has the same value in the inner object. -/
def KeepsOuter (fields inner : List (String × Json)) : Prop :=
  ∀ key value, key ∉ envelopeKeys → fields.lookup key = some value → inner.lookup key = some value

def UnwrapsWithoutLoss (fields : List (String × Json)) : Prop :=
  ∀ inner, fields.lookup "input" = some (.object inner) →
    unwrapOutput (.object fields) = .object inner → KeepsOuter fields inner

/-- The module adds nothing to the object that it echoes and changes nothing in it, or its `input`
is empty or has a key of its own. -/
def EchoesUnchanged (fields : List (String × Json)) : Prop :=
  ∀ inner, fields.lookup "input" = some (.object inner) →
    inner = [] ∨ (∃ field ∈ inner, fields.lookup field.1 = none) ∨
      ∀ key, key ∉ envelopeKeys → fields.lookup key = inner.lookup key

section Wrappers

variable {fields inner : List (String × Json)}

/-- The object under `input` is returned exactly when it passes for the payload of a wrapper. -/
theorem unwrapOutput_inner_iff (h : fields.lookup "input" = some (.object inner)) :
    unwrapOutput (.object fields) = .object inner ↔ isWrapper fields inner = true := by
  simp only [unwrapOutput, h]
  rw [← isWrapper]
  constructor
  · intro hInner
    by_contra hNot
    rw [if_neg hNot] at hInner
    exact Json.object_ne_field (Json.mem_of_lookup h) hInner
  · intro hWrapper
    rw [if_pos hWrapper]

theorem isWrapper_iff :
    isWrapper fields inner = true ↔
      inner ≠ [] ∧ ∀ field ∈ inner, (fields.lookup field.1).isSome = true := by
  rw [isWrapper, Bool.and_eq_true, List.all_eq_true, Bool.not_eq_true', List.isEmpty_eq_false_iff,
    and_comm]

/-- In a wrapper that keeps the outer fields, the two objects agree beside the envelope. -/
theorem keepsOuter_iff_agree (h : isWrapper fields inner = true) :
    KeepsOuter fields inner ↔ ∀ key, key ∉ envelopeKeys → fields.lookup key = inner.lookup key := by
  constructor
  · intro hKeeps key hKey
    cases hOuter : fields.lookup key with
    | some value => exact (hKeeps key value hKey hOuter).symm
    | none =>
        cases hInner : inner.lookup key with
        | none => rfl
        | some value =>
            have hField := (isWrapper_iff.1 h).2 _ (Json.mem_of_lookup hInner)
            rw [hOuter] at hField
            cases hField
  · intro hAgree key value hKey hOuter
    rw [← hAgree key hKey, hOuter]

theorem echoes_iff (h : fields.lookup "input" = some (.object inner)) :
    EchoesUnchanged fields ↔ (isWrapper fields inner = true → KeepsOuter fields inner) := by
  have hOnly : EchoesUnchanged fields ↔
      inner = [] ∨ (∃ field ∈ inner, fields.lookup field.1 = none) ∨
        ∀ key, key ∉ envelopeKeys → fields.lookup key = inner.lookup key := by
    constructor
    · intro hEchoes
      exact hEchoes inner h
    · intro hCases other hOther
      obtain rfl : other = inner := by
        rw [h] at hOther
        exact (Json.object.inj (Option.some.inj hOther)).symm
      exact hCases
  rw [hOnly]
  constructor
  · rintro (hEmpty | ⟨field, hIn, hNone⟩ | hAgree) hWrapper
    · exact absurd hEmpty (isWrapper_iff.1 hWrapper).1
    · have hSome := (isWrapper_iff.1 hWrapper).2 field hIn
      rw [hNone] at hSome
      cases hSome
    · exact (keepsOuter_iff_agree hWrapper).2 hAgree
  · intro hKeeps
    by_cases hWrapper : isWrapper fields inner = true
    · exact .inr (.inr ((keepsOuter_iff_agree hWrapper).1 (hKeeps hWrapper)))
    · rw [isWrapper_iff, not_and_or, not_not] at hWrapper
      refine hWrapper.imp id fun hMissing => .inl ?_
      push Not at hMissing
      obtain ⟨field, hIn, hNone⟩ := hMissing
      exact ⟨field, hIn, Option.not_isSome_iff_eq_none.1 hNone⟩

theorem unwrapsWithoutLoss_iff : UnwrapsWithoutLoss fields ↔ EchoesUnchanged fields := by
  constructor
  · intro hUnwraps inner h
    exact (echoes_iff h).2 (fun hWrapper =>
      hUnwraps inner h ((unwrapOutput_inner_iff h).2 hWrapper)) inner h
  · intro hEchoes inner h hInner
    exact (echoes_iff h).1 hEchoes ((unwrapOutput_inner_iff h).1 hInner)

end Wrappers

namespace ParallelWorkflowEngine

variable {H : Host} (E : ParallelWorkflowEngine H)

/-- What the gathered input of a node holds of one parent. -/
def receivedFrom (idx : NodeIndex) (results : Table Json) (parentId : Uuid) : Option Json :=
  match E.parentOutputs idx results with
  | [_] => some (E.gatherInputs idx results)
  | _ => (E.gatherInputs idx results).get (E.labelOrId parentId)

/-- No other completed parent of the node goes by the label of this one. -/
def SoleLabel (idx : NodeIndex) (results : Table Json) (parentId : Uuid) : Prop :=
  ∀ parent ∈ E.parentOutputs idx results, E.labelOrId parent.1 = E.labelOrId parentId →
    parent.1 = parentId

def GathersWithoutLoss (idx : NodeIndex) (results : Table Json) : Prop :=
  ∀ parentId fields inner, (parentId, .object fields) ∈ E.parentOutputs idx results →
    E.SoleLabel idx results parentId → fields.lookup "input" = some (.object inner) →
      E.receivedFrom idx results parentId = some (.object inner) → KeepsOuter fields inner

variable {E} {idx : NodeIndex} {results : Table Json} {parentId : Uuid} {output : Json}

/-- Of the outputs collected under their labels, one label's is kept when all under it agree. -/
theorem lookup_gathered {outputs : List (Uuid × Json)} {label : String} {value : Json}
    {fields : List (String × Json)}
    (hAgree : ∀ parent ∈ outputs, E.labelOrId parent.1 = label → parent.2 = value)
    (h : (∃ parent ∈ outputs, E.labelOrId parent.1 = label) ∨ fields.lookup label = some value) :
    (outputs.foldl (fun fields parent => Json.insertField (E.labelOrId parent.1) parent.2 fields)
      fields).lookup label = some value := by
  induction outputs generalizing fields with
  | nil =>
      obtain ⟨parent, hIn, _⟩ | h := h
      · cases hIn
      · exact h
  | cons first rest ih =>
      refine ih (fun parent hIn => hAgree parent (List.mem_cons_of_mem first hIn)) ?_
      by_cases hFirst : E.labelOrId first.1 = label
      · right
        simp only [hFirst, Json.lookup_insertField_self, hAgree first List.mem_cons_self hFirst]
      · obtain ⟨parent, hIn, hLabel⟩ | h := h
        · obtain rfl | hIn := List.mem_cons.1 hIn
          · exact absurd hLabel hFirst
          · exact .inl ⟨parent, hIn, hLabel⟩
        · right
          simp only [Json.lookup_insertField_ne (Ne.symm hFirst), h]

theorem parentOutputs_result {parent : Uuid × Json} (h : parent ∈ E.parentOutputs idx results) :
    results.lookup parent.1 = some parent.2 := by
  obtain ⟨p, _, hOutput⟩ := List.mem_filterMap.1 h
  obtain ⟨output, hLookup, rfl⟩ := Option.map_eq_some_iff.1 hOutput
  exact hLookup

/-- A node receives the unwrapped output of each parent whose label is its own. -/
theorem receivedFrom_eq (hParent : (parentId, output) ∈ E.parentOutputs idx results)
    (hLabel : E.SoleLabel idx results parentId) :
    E.receivedFrom idx results parentId = some (unwrapOutput output) := by
  have hAgree : ∀ parent ∈ E.parentOutputs idx results,
      E.labelOrId parent.1 = E.labelOrId parentId → parent.2 = output := by
    intro parent hIn hSame
    have hResult := parentOutputs_result hIn
    rw [hLabel parent hIn hSame, parentOutputs_result hParent] at hResult
    exact (Option.some.inj hResult).symm
  rw [receivedFrom, gatherInputs]
  generalize E.parentOutputs idx results = parents at hParent hAgree
  match parents with
  | [] => cases hParent
  | [parent] =>
      obtain rfl := List.mem_singleton.1 hParent
      rfl
  | first :: second :: rest =>
      let outputs := (first :: second :: rest).map fun parent => (parent.1, unwrapOutput parent.2)
      have hOutputs : ∀ parent ∈ outputs,
          E.labelOrId parent.1 = E.labelOrId parentId → parent.2 = unwrapOutput output := by
        intro parent hIn hSame
        obtain ⟨given, hGiven, rfl⟩ := List.mem_map.1 hIn
        rw [hAgree given hGiven hSame]
      have hFound : ∃ parent ∈ outputs, E.labelOrId parent.1 = E.labelOrId parentId :=
        ⟨(parentId, unwrapOutput output), List.mem_map.2 ⟨_, hParent, rfl⟩, rfl⟩
      exact lookup_gathered hOutputs (.inl hFound)

theorem gathersWithoutLoss_iff :
    E.GathersWithoutLoss idx results ↔
      ∀ parentId fields, (parentId, .object fields) ∈ E.parentOutputs idx results →
        E.SoleLabel idx results parentId → EchoesUnchanged fields := by
  constructor
  · intro hGathers parentId fields hParent hLabel
    refine unwrapsWithoutLoss_iff.1 fun inner h hInner => ?_
    exact hGathers parentId fields inner hParent hLabel h
      (by rw [receivedFrom_eq hParent hLabel, hInner])
  · intro hEchoes parentId fields inner hParent hLabel h hReceived
    rw [receivedFrom_eq hParent hLabel] at hReceived
    exact unwrapsWithoutLoss_iff.2 (hEchoes parentId fields hParent hLabel) inner h
      (Option.some.inj hReceived)

end ParallelWorkflowEngine

/-- Unwrapping loses no field of an object, and gathering none of a parent's, exactly when what the
module echoes is not updated beside the envelope. -/
theorem unwrapping_loses_nothing_iff (fields : List (String × Json)) (H : Host)
    (E : ParallelWorkflowEngine H) (idx : NodeIndex) (results : Table Json) :
    (UnwrapsWithoutLoss fields ↔ EchoesUnchanged fields) ∧
      (E.GathersWithoutLoss idx results ↔
        ∀ parentId fields, (parentId, .object fields) ∈ E.parentOutputs idx results →
          E.SoleLabel idx results parentId → EchoesUnchanged fields) :=
  ⟨unwrapsWithoutLoss_iff, ParallelWorkflowEngine.gathersWithoutLoss_iff⟩

/-- A module that returns its input with one field updated and one added loses both. -/
theorem updated_echo_lost :
    unwrapOutput (.object [("a", .number (.posInt 2)), ("b", .number (.posInt 3)),
      ("input", .object [("a", .number (.posInt 1))])]) = .object [("a", .number (.posInt 1))] ∧
    ¬ UnwrapsWithoutLoss [("a", .number (.posInt 2)), ("b", .number (.posInt 3)),
      ("input", .object [("a", .number (.posInt 1))])] := by
  have hInner : unwrapOutput (.object [("a", .number (.posInt 2)), ("b", .number (.posInt 3)),
      ("input", .object [("a", .number (.posInt 1))])]) =
      .object [("a", .number (.posInt 1))] := by decide
  refine ⟨hInner, fun hUnwraps => ?_⟩
  have hKept := hUnwraps _ rfl hInner "a" (.number (.posInt 2)) (by decide) rfl
  simp at hKept

end TalosWorkflow
