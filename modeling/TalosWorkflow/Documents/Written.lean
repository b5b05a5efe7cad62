import TalosWorkflow.Documents.Builder

/-!
# What a builder program writes

A node has the fields it was added with and all settings of its id, in the
order of the calls.
-/

namespace TalosWorkflow

open Json

section Settings

def insertAll (settings fields : List (String × Json)) : List (String × Json) :=
  settings.foldl (fun fields setting => insertField setting.1 setting.2 fields) fields

def settingOf (key : String) (setting : String × Json) : Option Json :=
  if setting.1 = key then some setting.2 else none

theorem insertAll_append (first second fields : List (String × Json)) :
    insertAll (first ++ second) fields = insertAll second (insertAll first fields) :=
  List.foldl_append

theorem lookup_insertAll (settings fields : List (String × Json)) (key : String) :
    (insertAll settings fields).lookup key =
      ((settings.filterMap (settingOf key)).getLast?).or (fields.lookup key) := by
  induction settings using List.reverseRecOn with
  | nil => rfl
  | append_singleton settings setting ih =>
      rw [insertAll_append, List.filterMap_append]
      change (insertField setting.1 setting.2 (insertAll settings fields)).lookup key = _
      by_cases hKey : setting.1 = key
      · have hRead : settingOf key setting = some setting.2 := if_pos hKey
        rw [List.filterMap_cons_some hRead, List.filterMap_nil, List.getLast?_concat,
          Option.some_or, ← hKey, lookup_insertField_self]
      · have hRead : settingOf key setting = none := if_neg hKey
        rw [List.filterMap_cons_none hRead, List.filterMap_nil, List.append_nil,
          lookup_insertField_ne (Ne.symm hKey)]
        exact ih

namespace BuilderCall

/-- The fields that a call sets on the node of an id. -/
def settingsFor (id : String) : BuilderCall → List (String × Json)
  | .withSkipCondition id' condition =>
      if id' = id then [("skip_condition", .string condition)] else []
  | .withContinueOnError id' => if id' = id then [("continue_on_error", .bool true)] else []
  | .withRetry id' maxRetries backoffMs condition delayExpression =>
      if id' = id then
        [("retry_count", .ofU64 maxRetries.toUInt64), ("retry_backoff_ms", .ofU64 backoffMs)] ++
          (condition.map fun c => ("retry_condition", .string c)).toList ++
          (delayExpression.map fun d => ("retry_delay_expression", .string d)).toList
      else []
  | _ => []

def settingFor (id key : String) (call : BuilderCall) : Option Json :=
  if key = "skip_condition" then (call.skipFor id).map .string
  else if key = "continue_on_error" then (call.continueFor id).map fun _ => .bool true
  else if key = "retry_count" then
    (call.retryFor id).map fun policy => .ofU64 policy.maxRetries.toUInt64
  else if key = "retry_backoff_ms" then (call.retryFor id).map fun policy => .ofU64 policy.backoffMs
  else if key = "retry_condition" then
    (call.retryFor id).bind fun policy => policy.retryCondition.map .string
  else if key = "retry_delay_expression" then
    (call.retryFor id).bind fun policy => policy.retryDelayExpression.map .string
  else none

def settingKeys : List String :=
  ["skip_condition", "continue_on_error", "retry_count", "retry_backoff_ms", "retry_condition",
    "retry_delay_expression"]

theorem settingsFor_key (id key : String) (call : BuilderCall) :
    (call.settingsFor id).filterMap (settingOf key) = (call.settingFor id key).toList := by
  cases call with
  | withSkipCondition id' condition | withContinueOnError id' =>
      simp only [settingsFor, settingFor, skipFor, continueFor, retryFor, Option.map_none,
        Option.bind_none]
      by_cases hId : id' = id
      · simp only [if_pos hId, Option.map_some, List.filterMap_cons, List.filterMap_nil, settingOf]
        split <;> grind
      · simp only [if_neg hId]
        grind
  | withRetry id' maxRetries backoffMs condition delayExpression =>
      simp only [settingsFor, settingFor, skipFor, continueFor, retryFor, Option.map_none]
      by_cases hId : id' = id
      · simp only [if_pos hId]
        cases condition <;> cases delayExpression <;>
          simp [settingOf, List.filterMap_cons] <;> grind
      · simp only [if_neg hId]
        grind
  | _ =>
      simp only [settingsFor, settingFor, skipFor, continueFor, retryFor]
      grind

end BuilderCall

def settings (id : String) (calls : List BuilderCall) : List (String × Json) :=
  calls.flatMap (BuilderCall.settingsFor id)

theorem settings_key (id key : String) (calls : List BuilderCall) :
    ((settings id calls).filterMap (settingOf key)).getLast? =
      lastGiven (BuilderCall.settingFor id key) calls := by
  have hFlat : (settings id calls).filterMap (settingOf key) =
      calls.filterMap (BuilderCall.settingFor id key) := by
    induction calls with
    | nil => rfl
    | cons call rest ih =>
        rw [settings, List.flatMap_cons, List.filterMap_append, BuilderCall.settingsFor_key,
          List.filterMap_cons]
        change _ ++ (settings id rest).filterMap (settingOf key) = _
        rw [ih]
        cases call.settingFor id key with
        | none => rfl
        | some value => rfl
  rw [hFlat, lastGiven]

end Settings

section Writing

variable (F : GraphFormat)

def Addition.fields : Addition → List (String × Json)
  | .module id moduleId config =>
      insertOptional "data" config [("id", .string id), ("type", .string moduleId.text)]
  | .system id kind =>
      [("data", (F.serializeSystemNodeKind kind).2), ("id", .string id),
        ("kind", .string (F.serializeSystemNodeKind kind).1),
        ("type", .string ("system:" ++ (F.serializeSystemNodeKind kind).1))]

def Addition.written (calls : List BuilderCall) (added : Addition) : Json :=
  .object (insertAll (settings added.id calls) (added.fields F))

/-- The fields of an edge stand in key order. -/
def writtenEdge (given : String × String × EdgeLogic) : Json :=
  .object (insertOptional "condition" (given.2.2.condition.map .string)
    [("source", .string given.1), ("sourceHandle", .string given.2.2.sourceHandle),
      ("target", .string given.2.1), ("targetHandle", .string given.2.2.targetHandle)])

variable {F}

theorem Addition.strField_id (calls : List BuilderCall) (added : Addition) :
    (added.written F calls).strField "id" = some added.id := by
  have hUnset : lastGiven (BuilderCall.settingFor added.id "id") calls = none := by
    have hNone : BuilderCall.settingFor added.id "id" = fun _ => none := by
      funext call
      rfl
    rw [lastGiven, hNone, List.filterMap_none]
    rfl
  have hAdded : (added.fields F).lookup "id" = some (.string added.id) := by
    cases added with
    | module id moduleId config =>
        cases config <;> rfl
    | system id kind => rfl
  change ((insertAll (settings added.id calls) (added.fields F)).lookup "id").bind asStr = _
  rw [lookup_insertAll, settings_key, hUnset, Option.none_or, hAdded]
  rfl

theorem Addition.written_append (calls : List BuilderCall) (call : BuilderCall)
    (added : Addition) :
    added.written F (calls ++ [call]) =
      .object (insertAll (call.settingsFor added.id)
        (insertAll (settings added.id calls) (added.fields F))) := by
  rw [written, settings, List.flatMap_append, List.flatMap_singleton, insertAll_append]
  rfl

theorem Addition.written_of_unset {calls : List BuilderCall} {call : BuilderCall}
    {added : Addition} (h : call.settingsFor added.id = []) :
    added.written F (calls ++ [call]) = added.written F calls := by
  rw [written_append, h]
  rfl

theorem map_written {calls : List BuilderCall} {call : BuilderCall} {added : List Addition}
    (h : ∀ id, call.settingsFor id = []) :
    added.map (Addition.written F (calls ++ [call])) = added.map (Addition.written F calls) := by
  apply List.map_congr_left
  intro a _
  exact Addition.written_of_unset (h a.id)

theorem modifyNode_written {calls : List BuilderCall} {id : String}
    {change : List (String × Json) → List (String × Json)} (added : List Addition)
    (hNodup : (added.map Addition.id).Nodup) :
    WorkflowGraphBuilder.modifyNode id change (added.map (Addition.written F calls)) =
      if id ∈ added.map Addition.id then
        some (added.map fun a =>
          if a.id = id then
            .object (change (insertAll (settings a.id calls) (a.fields F)))
          else a.written F calls)
      else none := by
  induction added with
  | nil => rfl
  | cons first rest ih =>
      obtain ⟨hFirst, hRest⟩ := List.nodup_cons.1 hNodup
      rw [List.map_cons, WorkflowGraphBuilder.modifyNode, first.strField_id, ih hRest]
      by_cases hId : first.id = id
      · have hOthers : rest.map (fun a =>
            if a.id = id then
              .object (change (insertAll (settings a.id calls) (a.fields F)))
            else a.written F calls) = rest.map (Addition.written F calls) := by
          apply List.map_congr_left
          rintro a ha
          apply if_neg
          rintro rfl
          rw [hId] at hFirst
          exact hFirst (List.mem_map_of_mem ha)
        rw [if_pos (congrArg some hId), if_pos (List.mem_map.2 ⟨first, List.mem_cons_self, hId⟩),
          List.map_cons, hOthers, if_pos hId]
        rfl
      · rw [if_neg (fun h => hId (Option.some.inj h)), List.map_cons, List.map_cons, if_neg hId]
        by_cases hMem : id ∈ rest.map Addition.id
        · rw [if_pos hMem, if_pos (List.mem_cons_of_mem _ hMem)]
          rfl
        · rw [if_neg hMem, if_neg]
          · rfl
          · rw [List.mem_cons, not_or]
            exact ⟨Ne.symm hId, hMem⟩

/-- The state of a builder whose calls have all been accepted. -/
structure Wrote (F : GraphFormat) (calls : List BuilderCall) (builder : WorkflowGraphBuilder) :
    Prop where
  nodes : builder.nodes = (additions calls).map (Addition.written F calls)
  edges : builder.edges = (edgesGiven calls).map writtenEdge
  settled : ∀ call ∈ calls, ∀ id, call.settingsFor id ≠ [] →
    id ∈ (additions calls).map Addition.id

theorem additions_append (calls : List BuilderCall) (call : BuilderCall) :
    additions (calls ++ [call]) = additions calls ++ call.addition.toList := by
  rw [additions, List.filterMap_append]
  cases call <;> rfl

theorem edgesGiven_append (calls : List BuilderCall) (call : BuilderCall) :
    edgesGiven (calls ++ [call]) = edgesGiven calls ++ call.edgeGiven.toList := by
  rw [edgesGiven, List.filterMap_append]
  cases call <;> rfl

section Calls

variable {calls : List BuilderCall} {call : BuilderCall} {builder : WorkflowGraphBuilder}

theorem Wrote.add (added : Addition) (h : Wrote F calls builder)
    (hNodup : ((additions (calls ++ [call])).map Addition.id).Nodup)
    (hAdd : call.addition = some added) (hEdge : call.edgeGiven = none)
    (hUnset : ∀ id, call.settingsFor id = [])
    (hApply : call.apply F builder =
      { builder with nodes := builder.nodes ++ [.object (added.fields F)] }) :
    Wrote F (calls ++ [call]) (call.apply F builder) := by
  have hAdditions : additions (calls ++ [call]) = additions calls ++ [added] := by
    rw [additions_append, hAdd]
    rfl
  rw [hAdditions, List.map_append] at hNodup
  have hNew : added.id ∉ (additions calls).map Addition.id := by
    intro hMem
    exact (List.nodup_append.1 hNodup).2.2 _ hMem _ (List.mem_singleton_self _) rfl
  have hPlain : settings added.id calls = [] := by
    apply List.flatMap_eq_nil_iff.2
    intro c hc
    by_contra hSet
    exact hNew (h.settled c hc added.id hSet)
  rw [hApply]
  constructor
  · rw [hAdditions, List.map_append, List.map_singleton, Addition.written_of_unset (hUnset _),
      Addition.written, hPlain, map_written hUnset, ← h.nodes]
    rfl
  · rw [edgesGiven_append, hEdge]
    exact h.edges.trans (by rw [Option.toList_none, List.append_nil])
  · intro c hc id hSet
    rw [hAdditions, List.map_append]
    obtain hc | hc := List.mem_append.1 hc
    · exact List.mem_append_left _ (h.settled c hc id hSet)
    · rw [List.mem_singleton.1 hc] at hSet
      exact absurd (hUnset id) hSet

theorem Wrote.set (id method : String) (h : Wrote F calls builder)
    (hNodup : ((additions calls).map Addition.id).Nodup)
    (hAdd : call.addition = none) (hEdge : call.edgeGiven = none)
    (hOther : ∀ id', id ≠ id' → call.settingsFor id' = [])
    (hApply : call.apply F builder = builder.modify id method (insertAll (call.settingsFor id)))
    (hErrors : (call.apply F builder).errors = []) :
    Wrote F (calls ++ [call]) (call.apply F builder) := by
  have hAdditions : additions (calls ++ [call]) = additions calls := by
    rw [additions_append, hAdd]
    exact List.append_nil _
  have hEdges : edgesGiven (calls ++ [call]) = edgesGiven calls := by
    rw [edgesGiven_append, hEdge]
    exact List.append_nil _
  rw [hApply, WorkflowGraphBuilder.modify, h.nodes, modifyNode_written _ hNodup] at hErrors ⊢
  by_cases hMem : id ∈ (additions calls).map Addition.id
  · rw [if_pos hMem]
    constructor
    · rw [hAdditions]
      apply List.map_congr_left
      intro a _
      split
      · rename_i hId
        rw [Addition.written_append, hId]
      · rename_i hId
        exact (Addition.written_of_unset (hOther _ (Ne.symm hId))).symm
    · rw [hEdges]
      exact h.edges
    · intro c hc id' hSet
      rw [hAdditions]
      obtain hc | hc := List.mem_append.1 hc
      · exact h.settled c hc id' hSet
      · rw [List.mem_singleton.1 hc] at hSet
        by_cases hSame : id = id'
        · rw [← hSame]
          exact hMem
        · exact absurd (hOther id' hSame) hSet
  · rw [if_neg hMem] at hErrors
    exact absurd (List.append_eq_nil_iff.1 hErrors).2 (List.cons_ne_nil _ _)

theorem Wrote.join (given : String × String × EdgeLogic) (h : Wrote F calls builder)
    (hAdd : call.addition = none) (hEdge : call.edgeGiven = some given)
    (hUnset : ∀ id, call.settingsFor id = [])
    (hApply : call.apply F builder =
      { builder with edges := builder.edges ++ [writtenEdge given] }) :
    Wrote F (calls ++ [call]) (call.apply F builder) := by
  have hAdditions : additions (calls ++ [call]) = additions calls := by
    rw [additions_append, hAdd]
    exact List.append_nil _
  rw [hApply]
  constructor
  · rw [hAdditions, map_written hUnset]
    exact h.nodes
  · rw [edgesGiven_append, hEdge, List.map_append, ← h.edges]
    rfl
  · intro c hc id hSet
    rw [hAdditions]
    obtain hc | hc := List.mem_append.1 hc
    · exact h.settled c hc id hSet
    · rw [List.mem_singleton.1 hc] at hSet
      exact absurd (hUnset id) hSet

theorem Wrote.step (h : Wrote F calls builder)
    (hNodup : ((additions (calls ++ [call])).map Addition.id).Nodup)
    (hErrors : (call.apply F builder).errors = []) :
    Wrote F (calls ++ [call]) (call.apply F builder) := by
  have hPrefix : ((additions calls).map Addition.id).Nodup := by
    rw [additions_append, List.map_append] at hNodup
    exact (List.nodup_append.1 hNodup).1
  cases call with
  | addModule id moduleId config =>
      exact h.add (.module id moduleId config) hNodup rfl rfl (fun _ => rfl) rfl
  | addSystemNode id kind =>
      exact h.add (.system id kind) hNodup rfl rfl (fun _ => rfl) rfl
  | withSkipCondition id condition =>
      apply h.set id "with_skip_condition" hPrefix rfl rfl _ _ hErrors
      · intro id' hId
        exact if_neg hId
      · simp only [BuilderCall.settingsFor, if_pos]
        rfl
  | withContinueOnError id =>
      apply h.set id "with_continue_on_error" hPrefix rfl rfl _ _ hErrors
      · intro id' hId
        exact if_neg hId
      · simp only [BuilderCall.settingsFor, if_pos]
        rfl
  | withRetry id maxRetries backoffMs condition delayExpression =>
      apply h.set id "with_retry" hPrefix rfl rfl _ _ hErrors
      · intro id' hId
        exact if_neg hId
      · simp only [BuilderCall.settingsFor, if_pos]
        cases condition <;> cases delayExpression <;> rfl
  | edge source target =>
      exact h.join (source, target, {}) rfl rfl (fun _ => rfl) rfl
  | edgeCondition source target condition =>
      apply h.join (source, target, { condition := condition }) rfl rfl (fun _ => rfl)
      change WorkflowGraphBuilder.edgeCondition builder source target condition = _
      rw [WorkflowGraphBuilder.edgeCondition, WorkflowGraphBuilder.edge,
        WorkflowGraphBuilder.edgeWithHandles]
      dsimp only
      rw [List.getLast?_concat, List.dropLast_concat]
      rfl
  | edgeWithHandles source target sourceHandle targetHandle =>
      exact h.join
        (source, target, { sourceHandle := sourceHandle, targetHandle := targetHandle })
        rfl rfl (fun _ => rfl) rfl

theorem errors_of_apply (h : (call.apply F builder).errors = []) : builder.errors = [] := by
  have hModify : ∀ id method change,
      (builder.modify id method change).errors = [] → builder.errors = [] := by
    intro id method change hErrors
    rw [WorkflowGraphBuilder.modify] at hErrors
    split at hErrors
    · exact hErrors
    · exact (List.append_eq_nil_iff.1 hErrors).1
  cases call with
  | withSkipCondition | withContinueOnError | withRetry => exact hModify _ _ _ h
  | edgeCondition =>
      simp only [BuilderCall.apply, WorkflowGraphBuilder.edgeCondition] at h
      split at h <;> exact h
  | _ => exact h

theorem runBuilder_wrote (calls : List BuilderCall)
    (hNodup : ((additions calls).map Addition.id).Nodup)
    (hErrors : (runBuilder F calls).errors = []) : Wrote F calls (runBuilder F calls) := by
  induction calls using List.reverseRecOn with
  | nil => exact ⟨rfl, rfl, fun call hCall => by cases hCall⟩
  | append_singleton calls call ih =>
      have hLast : runBuilder F (calls ++ [call]) = call.apply F (runBuilder F calls) := by
        rw [runBuilder, List.foldl_append]
        rfl
      rw [hLast] at hErrors ⊢
      apply Wrote.step _ hNodup hErrors
      apply ih _ (errors_of_apply hErrors)
      rw [additions_append, List.map_append] at hNodup
      exact (List.nodup_append.1 hNodup).1

end Calls

end Writing

end TalosWorkflow
