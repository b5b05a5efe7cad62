import TalosWorkflow.Documents.Entries
import TalosWorkflow.Documents.Written

/-!
# Builder programs

A program that the builder accepts is loaded with all that it asks for, unless
it gives a system node a retry policy, takes back part of an earlier policy, or
names a node that it does not add as an end of an edge.
-/

namespace TalosWorkflow

open Json

section Given

variable {α β : Type} {calls : List BuilderCall}

theorem lastGiven_map (read : BuilderCall → Option α) (f : α → β) :
    lastGiven (fun call => (read call).map f) calls = (lastGiven read calls).map f := by
  rw [lastGiven, lastGiven, ← List.getLast?_map, List.map_filterMap]

theorem lastGiven_none : lastGiven (fun _ => (none : Option α)) calls = none := by
  rw [lastGiven, List.filterMap_none]
  rfl

theorem lastGiven_bind (read : BuilderCall → Option α) (f : α → Option β) :
    lastGiven (fun call => (read call).bind f) calls =
      ((calls.filterMap read).filterMap f).getLast? := by
  rw [lastGiven, List.filterMap_filterMap]

/-- What the last call gives is the last that any call gives, unless only earlier calls give
something. -/
theorem lastGiven_bind_eq_iff {read : BuilderCall → Option α} {f : α → Option β} {a : α}
    (h : lastGiven read calls = some a) :
    lastGiven (fun call => (read call).bind f) calls = f a ↔
      (f a = none → ∀ b ∈ calls.filterMap read, f b = none) := by
  rw [lastGiven_bind]
  obtain ⟨front, hFront⟩ := List.getLast?_eq_some_iff.1 h
  rw [hFront]
  cases hLast : f a with
  | some b =>
      rw [List.filterMap_append, List.filterMap_cons_some hLast, List.filterMap_nil,
        List.getLast?_concat]
      simp
  | none =>
      rw [List.getLast?_eq_none_iff, List.filterMap_eq_nil_iff]
      exact ⟨fun h _ => h, fun h => h rfl⟩

end Given

section Configurations

namespace NodeEntry

variable (entry : NodeEntry)

theorem lookup_dataFields (key : String) :
    (entry.dataFields.getD []).lookup key = entry.data.bind (·.get key) := by
  rw [dataFields]
  cases entry.data with
  | none => rfl
  | some data =>
      cases data with
      | object fields => cases fields <;> rfl
      | _ => rfl

theorem lookup_skipFields (key : String) :
    (entry.skipFields.getD []).lookup key =
      if key = "__skip_condition" ∧ entry.skipCondition.isSome then
        entry.skipCondition.map .string
      else entry.data.bind (·.get key) := by
  rw [skipFields]
  cases hSkip : entry.skipCondition with
  | none =>
      rw [if_neg (fun h => Bool.noConfusion h.2)]
      exact entry.lookup_dataFields key
  | some condition =>
      by_cases hKey : key = "__skip_condition"
      · rw [if_pos ⟨hKey, rfl⟩, hKey]
        exact lookup_insertField_self _ _ _
      · rw [if_neg (fun h => hKey h.1)]
        exact (lookup_insertField_ne hKey _ _).trans (entry.lookup_dataFields key)

theorem get_config (key : String) :
    entry.config.bind (·.get key) =
      if key = "__continue_on_error" ∧ entry.continueOnError = true then some (.bool true)
      else if key = "__skip_condition" ∧ entry.skipCondition.isSome then
        entry.skipCondition.map .string
      else entry.data.bind (·.get key) := by
  have hFields : entry.config.bind (·.get key) = (entry.continueFields.getD []).lookup key := by
    rw [config]
    cases entry.continueFields <;> rfl
  rw [hFields, continueFields]
  by_cases hSet : entry.continueOnError = true
  · rw [if_pos hSet]
    by_cases hKey : key = "__continue_on_error"
    · rw [if_pos ⟨hKey, hSet⟩, hKey]
      exact lookup_insertField_self _ _ _
    · rw [if_neg (fun h => hKey h.1)]
      exact (lookup_insertField_ne hKey _ _).trans (entry.lookup_skipFields key)
  · rw [if_neg hSet, if_neg (fun h => hSet h.2)]
    exact entry.lookup_skipFields key

end NodeEntry

end Configurations

section Reading

variable (F : GraphFormat)

/-- Keys that the loader reads as settings, or writes them under. -/
def reservedKeys : List String :=
  BuilderCall.settingKeys ++ ["__skip_condition", "__continue_on_error"]

def Unreserved (data : Json) : Prop :=
  data.asObject.isSome ∧ ∀ key ∈ reservedKeys, data.get key = none

namespace Addition

def data : Addition → Option Json
  | .module _ _ config => config
  | .system _ kind => some (F.serializeSystemNodeKind kind).2

/-- A module configuration has no reserved keys, and a system kind is one that the parser
returns. -/
def Plain : Addition → Prop
  | .module _ _ config => ∀ data ∈ config, Unreserved data
  | .system _ kind =>
      (∃ k node, F.parseSystemNodeKind k node = some kind) ∧ ∀ q ∈ kind.doubles, F.ReadsBack q

/-- An earlier condition or delay stays, and a system node has no policy. -/
def retryPolicy (calls : List BuilderCall) : Addition → Option RetryPolicy
  | .module id _ _ =>
      (lastGiven (BuilderCall.retryFor id) calls).map fun policy =>
        { policy with
          retryCondition :=
            lastGiven (fun call => (call.retryFor id).bind (·.retryCondition)) calls
          retryDelayExpression :=
            lastGiven (fun call => (call.retryFor id).bind (·.retryDelayExpression)) calls }
  | .system _ _ => none

def timeoutSecs : Addition → Option UInt64
  | .module _ _ config => (config.bind (·.get "timeout_secs")).bind asU64
  | .system _ _ => none

def entry (actorId : Option Uuid) (calls : List BuilderCall) (added : Addition) : NodeEntry where
  rfId := added.id
  id := F.nodeIdFor added.id
  info :=
    { moduleId := added.moduleId
      retryPolicy := (added.retryPolicy calls).map (capRetries actorId)
      kind := added.kind }
  data := added.data F
  skipCondition := lastGiven (BuilderCall.skipFor added.id) calls
  continueOnError := (lastGiven (BuilderCall.continueFor added.id) calls).isSome
  timeoutSecs := added.timeoutSecs

end Addition

variable {F} {calls : List BuilderCall} {added : Addition}

theorem Addition.get_written (key : String) :
    (added.written F calls).get key =
      (lastGiven (BuilderCall.settingFor added.id key) calls).or
        ((added.fields F).lookup key) := by
  change (insertAll (settings added.id calls) (added.fields F)).lookup key = _
  rw [lookup_insertAll, settings_key]

theorem Addition.get_unset {key : String} (h : key ∉ BuilderCall.settingKeys) :
    (added.written F calls).get key = (added.fields F).lookup key := by
  have hNone : BuilderCall.settingFor added.id key = fun _ => none := by
    funext call
    simp only [BuilderCall.settingKeys, List.mem_cons, List.not_mem_nil, or_false, not_or] at h
    simp only [BuilderCall.settingFor, h, if_false]
  rw [get_written, hNone, lastGiven_none, Option.none_or]

theorem Addition.get_set {key : String} (h : key ∈ BuilderCall.settingKeys) :
    (added.written F calls).get key =
      lastGiven (BuilderCall.settingFor added.id key) calls := by
  have hAbsent : (added.fields F).lookup key = none := by
    simp only [BuilderCall.settingKeys, List.mem_cons, List.not_mem_nil, or_false] at h
    cases added with
    | module id moduleId config =>
        cases config <;> obtain rfl | rfl | rfl | rfl | rfl | rfl := h <;> rfl
    | system id kind => obtain rfl | rfl | rfl | rfl | rfl | rfl := h <;> rfl
  rw [get_written, hAbsent, Option.or_none]

theorem Addition.get_data : (added.written F calls).get "data" = added.data F := by
  rw [get_unset (by decide)]
  cases added with
  | module id moduleId config => cases config <;> rfl
  | system id kind => rfl

theorem Addition.skip_written :
    (added.written F calls).strField "skip_condition" =
      lastGiven (BuilderCall.skipFor added.id) calls := by
  rw [strField, get_set (by decide)]
  change (lastGiven (fun call => (call.skipFor added.id).map Json.string) calls).bind asStr = _
  rw [lastGiven_map]
  cases lastGiven (BuilderCall.skipFor added.id) calls <;> rfl

theorem Addition.continue_written :
    (added.written F calls).boolField "continue_on_error" =
      (lastGiven (BuilderCall.continueFor added.id) calls).map fun _ => true := by
  rw [boolField, get_set (by decide)]
  change (lastGiven (fun call => (call.continueFor added.id).map fun _ => Json.bool true)
    calls).bind asBool = _
  rw [lastGiven_map]
  cases lastGiven (BuilderCall.continueFor added.id) calls <;> rfl

/-- The data of a written node does not interfere with its settings. -/
theorem Addition.retryField_written {key : String} (hKey : key ∈ BuilderCall.settingKeys)
    (hData : ∀ data ∈ added.data F, Unreserved data) :
    retryField (added.written F calls) key =
      lastGiven (BuilderCall.settingFor added.id key) calls := by
  have hNone : (added.data F).bind (·.get key) = none := by
    cases hAdded : added.data F with
    | none => rfl
    | some data => exact (hData data hAdded).2 key (List.mem_append_left _ hKey)
  rw [retryField, get_set hKey, get_data, hNone, Option.or_none]

theorem Addition.retryPolicy_written
    (hData : ∀ data ∈ added.data F, Unreserved data) :
    readNodeRetryPolicy (added.written F calls) =
      (lastGiven (BuilderCall.retryFor added.id) calls).map fun policy =>
        { policy with
          retryCondition :=
            lastGiven (fun call => (call.retryFor added.id).bind (·.retryCondition)) calls
          retryDelayExpression :=
            lastGiven (fun call => (call.retryFor added.id).bind (·.retryDelayExpression))
              calls } := by
  have hCount : (retryField (added.written F calls) "retry_count").bind asU64 =
      (lastGiven (BuilderCall.retryFor added.id) calls).map fun policy =>
        policy.maxRetries.toUInt64 := by
    rw [retryField_written (by decide) hData]
    change (lastGiven (fun call => (call.retryFor added.id).map fun policy =>
      ofU64 policy.maxRetries.toUInt64) calls).bind asU64 = _
    rw [lastGiven_map]
    cases lastGiven (BuilderCall.retryFor added.id) calls <;> rfl
  have hBackoff : (retryField (added.written F calls) "retry_backoff_ms").bind asU64 =
      (lastGiven (BuilderCall.retryFor added.id) calls).map fun policy => policy.backoffMs := by
    rw [retryField_written (by decide) hData]
    change (lastGiven (fun call => (call.retryFor added.id).map fun policy =>
      ofU64 policy.backoffMs) calls).bind asU64 = _
    rw [lastGiven_map]
    cases lastGiven (BuilderCall.retryFor added.id) calls <;> rfl
  have hText : ∀ read : RetryPolicy → Option String,
      (lastGiven (fun call => (call.retryFor added.id).bind fun policy =>
        (read policy).map Json.string) calls).bind asStr =
      lastGiven (fun call => (call.retryFor added.id).bind read) calls := by
    intro read
    have hMap : (fun call : BuilderCall => (call.retryFor added.id).bind fun policy =>
        (read policy).map Json.string) =
        fun call => ((call.retryFor added.id).bind read).map Json.string := by
      funext call
      cases call.retryFor added.id <;> rfl
    rw [hMap, lastGiven_map]
    cases lastGiven (fun call => (call.retryFor added.id).bind read) calls <;> rfl
  have hCondition : (retryField (added.written F calls) "retry_condition").bind asStr =
      lastGiven (fun call => (call.retryFor added.id).bind (·.retryCondition)) calls := by
    rw [retryField_written (by decide) hData]
    exact hText _
  have hDelay : (retryField (added.written F calls) "retry_delay_expression").bind asStr =
      lastGiven (fun call => (call.retryFor added.id).bind (·.retryDelayExpression)) calls := by
    rw [retryField_written (by decide) hData]
    exact hText _
  rw [readNodeRetryPolicy, hCount, hBackoff, hCondition, hDelay]
  cases hGiven : lastGiven (BuilderCall.retryFor added.id) calls with
  | none =>
      have hEmpty : calls.filterMap (BuilderCall.retryFor added.id) = [] :=
        List.getLast?_eq_none_iff.1 hGiven
      rw [lastGiven_bind, lastGiven_bind, hEmpty]
      rfl
  | some policy =>
      simp only [Option.map_some, UInt32.toUInt32_toUInt64, Option.isSome_some, Bool.true_or,
        if_true, Option.getD_some]

theorem unreserved_object {fields : List (String × Json)}
    (h : ∀ key ∈ fields.map Prod.fst, key ∉ reservedKeys) : Unreserved (.object fields) := by
  refine ⟨rfl, ?_⟩
  intro key hKey
  change fields.lookup key = none
  rw [List.lookup_eq_none_iff]
  intro field hField
  apply bne_iff_ne.2
  rintro rfl
  exact h field.1 (List.mem_map_of_mem hField) hKey

theorem unreserved_serialize (kind : SystemNodeKind) :
    Unreserved (F.serializeSystemNodeKind kind).2 := by
  cases kind with
  | wait message | errorHandler message | synthesize message | fanIn _ message =>
      apply unreserved_object
      cases message <;> simp [GraphFormat.optionalText, reservedKeys, BuilderCall.settingKeys]
  | _ =>
      apply unreserved_object
      simp [reservedKeys, BuilderCall.settingKeys]

theorem Addition.Plain.unreserved (h : added.Plain F) : ∀ data ∈ added.data F, Unreserved data := by
  cases added with
  | module id moduleId config => exact h
  | system id kind =>
      rintro data hData
      cases hData
      exact unreserved_serialize kind

theorem isPrefixOf_append (front back : List Char) : front.isPrefixOf (front ++ back) = true := by
  rw [List.isPrefixOf_iff_prefix]
  exact List.prefix_append front back

theorem Addition.settings_written (h : added.Plain F) :
    ((added.data F).bind (·.strField "skip_condition") = none) ∧
      ∀ data ∈ added.data F, data.boolField "continue_on_error" = none := by
  constructor
  · cases hData : added.data F with
    | none => rfl
    | some data =>
        have hNone := (h.unreserved data hData).2 "skip_condition" (by decide)
        rw [Option.bind_some, strField, hNone, Option.bind_none]
  · intro data hData
    rw [boolField, (h.unreserved data hData).2 "continue_on_error" (by decide), Option.bind_none]

theorem Addition.flag_written (h : added.Plain F) {data : Json} (hData : data ∈ added.data F) :
    ((data.boolField "continue_on_error").getD false ||
        ((added.written F calls).boolField "continue_on_error").getD false) =
      (lastGiven (BuilderCall.continueFor added.id) calls).isSome := by
  rw [(settings_written h).2 data hData, continue_written]
  cases lastGiven (BuilderCall.continueFor added.id) calls <;> rfl

theorem Addition.rfId_written : GraphFormat.rfId (added.written F calls) = added.id := by
  rw [GraphFormat.rfId, added.strField_id]
  rfl

theorem Addition.readNode_module {id : String} {moduleId : Uuid} {config : Option Json}
    (actorId : Option Uuid) (h : (Addition.module id moduleId config).Plain F) :
    F.readNode actorId ((Addition.module id moduleId config).written F calls) =
      some ((Addition.module id moduleId config).entry F actorId calls) := by
  generalize hAdded : Addition.module id moduleId config = added at *
  have hField : ∀ key ∉ BuilderCall.settingKeys, (added.written F calls).get key =
      (insertOptional "data" config
        [("id", .string id), ("type", .string moduleId.text)]).lookup key := by
    intro key hKey
    rw [get_unset hKey, ← hAdded]
    rfl
  have hType : (added.written F calls).strField "type" = some moduleId.text := by
    rw [strField, hField _ (by decide)]
    cases config <;> rfl
  have hKind : (added.written F calls).strField "kind" = none := by
    rw [strField, hField _ (by decide)]
    cases config <;> rfl
  have hConfig {α : Type} (read : Json → String → Option α) (key : String) :
      GraphFormat.configField read (added.written F calls) key = none := by
    rw [GraphFormat.configField, hField _ (by decide)]
    cases config <;> rfl
  have hTimeout : (added.written F calls).get "timeout_secs" = none := by
    rw [hField _ (by decide)]
    cases config <;> rfl
  have hModule : F.moduleIdStr (added.written F calls) = some moduleId.text := by
    rw [GraphFormat.moduleIdStr, hType]
    simp [Option.filter_some, F.parseUuid_text]
  have hFlag : (F.moduleEntry actorId (added.written F calls) moduleId).continueOnError =
      (lastGiven (BuilderCall.continueFor added.id) calls).isSome := by
    rw [GraphFormat.moduleEntry]
    dsimp only
    rw [hConfig, get_data]
    cases hData : added.data F with
    | none =>
        dsimp only
        rw [continue_written]
        cases lastGiven (BuilderCall.continueFor added.id) calls <;> rfl
    | some data => exact flag_written h hData
  rw [GraphFormat.readNode, hModule]
  dsimp only
  rw [F.parseUuid_text, Option.map_some, Option.some_inj]
  rw [GraphFormat.moduleEntry] at hFlag ⊢
  dsimp only at hFlag
  rw [hFlag, rfId_written, hKind, get_data, (settings_written h).1, skip_written,
    hConfig, hTimeout, readNodeRetryPolicyWithActorCap, retryPolicy_written h.unreserved,
    Option.none_or, Option.bind_none, Option.or_none, Option.or_none]
  subst hAdded
  rfl

theorem Addition.readNode_system {id : String} {kind : SystemNodeKind} (actorId : Option Uuid)
    (hType : ∀ kind, F.parseUuid ("system:" ++ kind) = none)
    (h : (Addition.system id kind).Plain F) :
    F.readNode actorId ((Addition.system id kind).written F calls) =
      some ((Addition.system id kind).entry F actorId calls) := by
  generalize hAdded : Addition.system id kind = added at *
  have hField : ∀ key ∉ BuilderCall.settingKeys,
      (added.written F calls).get key = (added.fields F).lookup key := fun key hKey =>
    get_unset hKey
  have hSystem : (added.written F calls).strField "type" =
      some ("system:" ++ (F.serializeSystemNodeKind kind).1) := by
    rw [strField, hField _ (by decide), ← hAdded]
    rfl
  have hKind : (added.written F calls).strField "kind" =
      some (F.serializeSystemNodeKind kind).1 := by
    rw [strField, hField _ (by decide), ← hAdded]
    rfl
  have hData : (added.written F calls).get "data" = some (F.serializeSystemNodeKind kind).2 := by
    rw [hField _ (by decide), ← hAdded]
    rfl
  have hModuleId : (F.serializeSystemNodeKind kind).2.strField "moduleId" = none := by
    cases kind with
    | wait message | errorHandler message | synthesize message | fanIn _ message =>
        cases message <;> rfl
    | _ => rfl
  have hRead : F.parseSystemNodeKind (F.serializeSystemNodeKind kind).1 (added.written F calls) =
      some kind := by
    rw [← hAdded] at h
    obtain ⟨⟨k, node, hParsed⟩, hDoubles⟩ := h
    obtain ⟨hLlm, hBounded⟩ := GraphFormat.parseSystemNodeKind_bounded hParsed
    exact GraphFormat.parseSystemNodeKind_serialize hLlm hBounded hDoubles hData
  have hPrefix : (stripPrefix "system:"
      ("system:" ++ (F.serializeSystemNodeKind kind).1)).isSome = true := by
    rw [stripPrefix, String.toList_append, if_pos (isPrefixOf_append _ _)]
    rfl
  have hNoModule : F.moduleIdStr (added.written F calls) = none := by
    rw [GraphFormat.moduleIdStr, hSystem, hData]
    simp [Option.filter_some, hType, hModuleId]
  have hIs : GraphFormat.isSystemType (added.written F calls) = true := by
    rw [GraphFormat.isSystemType, hSystem]
    exact hPrefix
  have hFlag : (F.systemEntry (added.written F calls)).continueOnError =
      (lastGiven (BuilderCall.continueFor added.id) calls).isSome := by
    rw [GraphFormat.systemEntry]
    dsimp only
    rw [hData]
    apply flag_written h
    rw [← hAdded]
    rfl
  have hSkip : (F.systemEntry (added.written F calls)).skipCondition =
      lastGiven (BuilderCall.skipFor added.id) calls := by
    have hNone := (settings_written h).1
    have hSame : added.data F = some (F.serializeSystemNodeKind kind).2 := get_data.symm.trans hData
    rw [hSame, Option.bind_some] at hNone
    rw [GraphFormat.systemEntry, hData]
    dsimp only
    rw [Option.bind_some, hNone, skip_written, Option.none_or]
  rw [GraphFormat.readNode, hNoModule]
  dsimp only
  rw [if_pos hIs, Option.some_inj]
  rw [GraphFormat.systemEntry] at hFlag hSkip ⊢
  dsimp only at hFlag hSkip
  rw [hFlag, hSkip, rfId_written, hKind, Option.some_or, Option.bind_some, hRead, get_data]
  subst hAdded
  rfl

theorem Addition.readNode_written (actorId : Option Uuid)
    (hType : ∀ kind, F.parseUuid ("system:" ++ kind) = none) (h : added.Plain F) :
    F.readNode actorId (added.written F calls) = some (added.entry F actorId calls) := by
  cases added with
  | module id moduleId config => exact readNode_module actorId h
  | system id kind => exact readNode_system actorId hType h

end Reading

section Loading

variable {H : Host} {F : GraphFormat} {calls : List BuilderCall} {E₀ E : ParallelWorkflowEngine H}

/-- The engine has all that the calls ask for and nothing else. -/
structure LoadsAsWritten (F : GraphFormat) (actorId : Option Uuid) (calls : List BuilderCall)
    (E : ParallelWorkflowEngine H) : Prop where
  nodes : E.graph.nodes = (additions calls).map fun a => F.nodeIdFor a.id
  info : ∀ a ∈ additions calls, E.nodeMeta.lookup (F.nodeIdFor a.id) =
    some
      { moduleId := a.moduleId
        retryPolicy := (lastGiven (BuilderCall.retryFor a.id) calls).map (capRetries actorId)
        kind := a.kind }
  config : ∀ a ∈ additions calls, ∀ key, key ≠ "__skip_condition" → key ≠ "__continue_on_error" →
    (E.nodeConfigs.lookup (F.nodeIdFor a.id)).bind (·.get key) = (a.data F).bind (·.get key)
  skipCondition : ∀ a ∈ additions calls,
    E.skipCondition (F.nodeIdFor a.id) = lastGiven (BuilderCall.skipFor a.id) calls
  continueOnError : ∀ a ∈ additions calls,
    E.continueOnError (F.nodeIdFor a.id) = (lastGiven (BuilderCall.continueFor a.id) calls).isSome
  edges : E.edgeList =
    (edgesGiven calls).map fun e => (F.nodeIdFor e.1, F.nodeIdFor e.2.1, e.2.2)

/-- No system node is given a policy, the last policy of a module node takes nothing back, and
edges join added nodes. -/
structure Preserved (calls : List BuilderCall) : Prop where
  systemRetry : ∀ id kind, .system id kind ∈ additions calls →
    lastGiven (BuilderCall.retryFor id) calls = none
  moduleRetry : ∀ id moduleId config policy, .module id moduleId config ∈ additions calls →
    lastGiven (BuilderCall.retryFor id) calls = some policy →
    (policy.retryCondition = none → ∀ earlier ∈ calls.filterMap (BuilderCall.retryFor id),
      earlier.retryCondition = none) ∧
    (policy.retryDelayExpression = none → ∀ earlier ∈ calls.filterMap (BuilderCall.retryFor id),
      earlier.retryDelayExpression = none)
  ends : ∀ e ∈ edgesGiven calls,
    e.1 ∈ (additions calls).map Addition.id ∧ e.2.1 ∈ (additions calls).map Addition.id

theorem filterMap_eq_map_iff {α β : Type} {f : α → Option β} {g : α → β} {l : List α} :
    l.filterMap f = l.map g ↔ ∀ a ∈ l, f a = some (g a) := by
  induction l with
  | nil => exact ⟨fun _ a ha => (by cases ha), fun _ => rfl⟩
  | cons a rest ih =>
      rw [List.map_cons, List.forall_mem_cons]
      cases hRead : f a with
      | none =>
          rw [List.filterMap_cons_none hRead]
          refine ⟨fun h => ?_, fun h => (by cases h.1)⟩
          have hLength := congrArg List.length h
          have hShort := List.length_filterMap_le f rest
          rw [List.length_cons, List.length_map] at hLength
          omega
      | some b => rw [List.filterMap_cons_some hRead, List.cons.injEq, ih, Option.some_inj]

theorem capRetries_with_eq_iff (actorId : Option Uuid) (policy : RetryPolicy)
    (condition delay : Option String) :
    capRetries actorId
        { policy with retryCondition := condition, retryDelayExpression := delay } =
      capRetries actorId policy ↔
        condition = policy.retryCondition ∧ delay = policy.retryDelayExpression := by
  cases policy
  rw [capRetries, capRetries]
  split <;> simp

/-- The policy that a node is loaded with is the one that was asked for last. -/
theorem Addition.retryPolicy_eq_iff (actorId : Option Uuid) {id : String} {moduleId : Uuid}
    {config : Option Json} :
    ((Addition.module id moduleId config).retryPolicy calls).map (capRetries actorId) =
        (lastGiven (BuilderCall.retryFor id) calls).map (capRetries actorId) ↔
      ∀ policy, lastGiven (BuilderCall.retryFor id) calls = some policy →
        (policy.retryCondition = none → ∀ earlier ∈ calls.filterMap (BuilderCall.retryFor id),
          earlier.retryCondition = none) ∧
        (policy.retryDelayExpression = none →
          ∀ earlier ∈ calls.filterMap (BuilderCall.retryFor id),
            earlier.retryDelayExpression = none) := by
  rw [retryPolicy]
  cases hGiven : lastGiven (BuilderCall.retryFor id) calls with
  | none => exact ⟨fun _ policy h => (by cases h), fun _ => rfl⟩
  | some policy =>
      rw [Option.map_some, Option.map_some, Option.map_some, Option.some_inj,
        capRetries_with_eq_iff, lastGiven_bind_eq_iff hGiven, lastGiven_bind_eq_iff hGiven]
      constructor
      · rintro h _ ⟨⟩
        exact h
      · intro h
        exact h policy rfl

theorem edgeGiven_plain {given : String × String × EdgeLogic} (h : given ∈ edgesGiven calls) :
    readEdge (writtenEdge given) = given.2.2 ∧
      (writtenEdge given).strField "source" = some given.1 ∧
      (writtenEdge given).strField "target" = some given.2.1 := by
  obtain ⟨call, -, hCall⟩ := List.mem_filterMap.1 h
  cases call with
  | edge source target =>
      cases hCall
      exact ⟨rfl, rfl, rfl⟩
  | edgeCondition source target condition =>
      cases hCall
      exact ⟨rfl, rfl, rfl⟩
  | edgeWithHandles source target sourceHandle targetHandle =>
      cases hCall
      exact ⟨rfl, rfl, rfl⟩
  | _ => cases hCall

theorem documents_build {builder : WorkflowGraphBuilder} {graph : Json}
    (h : builder.build = .ok graph) : builder.errors = [] ∧
      GraphFormat.documentNodes graph = builder.nodes ∧
      GraphFormat.documentEdges graph = builder.edges := by
  rw [WorkflowGraphBuilder.build] at h
  split at h
  · rename_i hErrors
    cases h
    refine ⟨hErrors, ?_, ?_⟩
    · rw [GraphFormat.documentNodes, WorkflowGraphBuilder.assembleRoot]
      cases builder.executionTimeoutSecs <;> rfl
    · rw [GraphFormat.documentEdges, WorkflowGraphBuilder.assembleRoot]
      cases builder.executionTimeoutSecs <;> rfl
  · cases h

variable {rfToNode : RfIds} {actorId : Option Uuid}

theorem Holds.lookup_rfId
    (h : Holds E rfToNode ((additions calls).map (Addition.entry F actorId calls))) (s : String) :
    rfToNode.lookup s =
      if s ∈ (additions calls).map Addition.id then some (F.nodeIdFor s) else none := by
  split
  · rename_i hMem
    obtain ⟨a, ha, rfl⟩ := List.mem_map.1 hMem
    exact h.rfId (a.entry F actorId calls) (List.mem_map_of_mem ha)
  · rename_i hMem
    cases hLookup : rfToNode.lookup s with
    | none => rfl
    | some id =>
        obtain ⟨entry, hEntry, rfl⟩ := h.known s id hLookup
        obtain ⟨a, ha, rfl⟩ := List.mem_map.1 hEntry
        exact absurd (List.mem_map_of_mem ha) hMem

theorem Holds.resolve_iff
    (h : Holds E rfToNode ((additions calls).map (Addition.entry F actorId calls)))
    {given : String × String × EdgeLogic} (hGiven : given ∈ edgesGiven calls) :
    resolveEdge rfToNode (writtenEdge given) =
        some (F.nodeIdFor given.1, F.nodeIdFor given.2.1, given.2.2) ↔
      given.1 ∈ (additions calls).map Addition.id ∧
        given.2.1 ∈ (additions calls).map Addition.id := by
  obtain ⟨hRead, hSource, hTarget⟩ := edgeGiven_plain hGiven
  rw [resolveEdge, hSource, hTarget, hRead, Option.getD_some, Option.getD_some, h.lookup_rfId,
    h.lookup_rfId]
  by_cases hFirst : given.1 ∈ (additions calls).map Addition.id
  · by_cases hSecond : given.2.1 ∈ (additions calls).map Addition.id
    · rw [if_pos hFirst, if_pos hSecond]
      exact ⟨fun _ => ⟨hFirst, hSecond⟩, fun _ => rfl⟩
    · rw [if_pos hFirst, if_neg hSecond]
      exact ⟨fun hSome => (by cases hSome), fun hBoth => absurd hBoth.2 hSecond⟩
  · rw [if_neg hFirst]
    exact ⟨fun hSome => (by cases hSome), fun hBoth => absurd hBoth.1 hFirst⟩

theorem Holds.get_config
    (h : Holds E rfToNode ((additions calls).map (Addition.entry F actorId calls)))
    {a : Addition} (ha : a ∈ additions calls) (key : String) :
    (E.nodeConfigs.lookup (F.nodeIdFor a.id)).bind (·.get key) =
      if key = "__continue_on_error" ∧
          (lastGiven (BuilderCall.continueFor a.id) calls).isSome = true then
        some (.bool true)
      else if key = "__skip_condition" ∧ (lastGiven (BuilderCall.skipFor a.id) calls).isSome then
        (lastGiven (BuilderCall.skipFor a.id) calls).map .string
      else (a.data F).bind (·.get key) := by
  have hConfig : E.nodeConfigs.lookup (F.nodeIdFor a.id) = (a.entry F actorId calls).config :=
    h.config (a.entry F actorId calls) (List.mem_map_of_mem ha)
  rw [hConfig]
  exact (a.entry F actorId calls).get_config key

theorem Holds.skipCondition_added
    (h : Holds E rfToNode ((additions calls).map (Addition.entry F actorId calls)))
    {a : Addition} (ha : a ∈ additions calls) (hPlain : a.Plain F) :
    E.skipCondition (F.nodeIdFor a.id) = lastGiven (BuilderCall.skipFor a.id) calls := by
  have hNone : (a.data F).bind (·.get "__skip_condition") = none := by
    cases hData : a.data F with
    | none => rfl
    | some data => exact (hPlain.unreserved data hData).2 _ (by decide)
  rw [ParallelWorkflowEngine.skipCondition, h.get_config ha, if_neg (by simp), hNone]
  cases lastGiven (BuilderCall.skipFor a.id) calls <;> rfl

theorem Holds.continueOnError_added
    (h : Holds E rfToNode ((additions calls).map (Addition.entry F actorId calls)))
    {a : Addition} (ha : a ∈ additions calls) (hPlain : a.Plain F) :
    E.continueOnError (F.nodeIdFor a.id) =
      (lastGiven (BuilderCall.continueFor a.id) calls).isSome := by
  have hNone : (a.data F).bind (·.get "__continue_on_error") = none := by
    cases hData : a.data F with
    | none => rfl
    | some data => exact (hPlain.unreserved data hData).2 _ (by decide)
  rw [ParallelWorkflowEngine.continueOnError, ParallelWorkflowEngine.nodeFlag, h.get_config ha,
    if_neg (by simp : ¬ ("__continue_on_error" = "__skip_condition" ∧ _)), hNone]
  cases lastGiven (BuilderCall.continueFor a.id) calls <;> rfl

/-- A program is loaded as written exactly if the loader preserves all that it asks for. -/
theorem loads_as_written_iff (F : GraphFormat) (E₀ E : ParallelWorkflowEngine H)
    (calls : List BuilderCall) (graph : Json)
    (hType : ∀ kind, F.parseUuid ("system:" ++ kind) = none)
    (hPlain : ∀ a ∈ additions calls, a.Plain F)
    (hNodup : ((additions calls).map fun a => F.nodeIdFor a.id).Nodup)
    (hRoom : (additions calls).length ≤ E₀.maxWorkflowNodes.toNat)
    (hBuild : (runBuilder F calls).build = .ok graph)
    (hLoad : F.parseGraphDocument (E₀.withDocument .empty) graph = .ok E) :
    LoadsAsWritten F E₀.actorId calls E ↔ Preserved calls := by
  obtain ⟨hErrors, hNodes, hEdges⟩ := documents_build hBuild
  have hIds : ((additions calls).map Addition.id).Nodup := by
    apply List.Nodup.of_map F.nodeIdFor
    rw [List.map_map]
    exact hNodup
  have hWrote := runBuilder_wrote calls hIds hErrors
  rw [hWrote.nodes] at hNodes
  rw [hWrote.edges] at hEdges
  have hEntries : (GraphFormat.documentNodes graph).filterMap (F.readNode E₀.actorId) =
      (additions calls).map (Addition.entry F E₀.actorId calls) := by
    rw [hNodes, List.filterMap_map]
    apply filterMap_eq_map_iff.2
    intro a ha
    exact Addition.readNode_written E₀.actorId hType (hPlain a ha)
  obtain ⟨rfToNode, hHolds, hList⟩ := holds_document hLoad
    (by rw [hEntries, List.map_map]; exact hNodup) (by rw [hNodes, List.length_map]; exact hRoom)
  rw [hEntries] at hHolds
  rw [hEdges, List.filterMap_map] at hList
  have hInfo : ∀ a ∈ additions calls, E.nodeMeta.lookup (F.nodeIdFor a.id) =
      some
        { moduleId := a.moduleId
          retryPolicy := (a.retryPolicy calls).map (capRetries E₀.actorId)
          kind := a.kind } := fun a ha =>
    hHolds.info (a.entry F E₀.actorId calls) (List.mem_map_of_mem ha)
  constructor
  · intro hLoads
    have hRetry : ∀ a ∈ additions calls, (a.retryPolicy calls).map (capRetries E₀.actorId) =
        (lastGiven (BuilderCall.retryFor a.id) calls).map (capRetries E₀.actorId) := by
      intro a ha
      have hSame := (hInfo a ha).symm.trans (hLoads.info a ha)
      exact congrArg NodeMeta.retryPolicy (Option.some.inj hSame)
    constructor
    · intro id kind ha
      exact Option.map_eq_none_iff.1 (hRetry _ ha).symm
    · intro id moduleId config policy ha hPolicy
      exact (Addition.retryPolicy_eq_iff E₀.actorId).1 (hRetry _ ha) policy hPolicy
    · intro e he
      rw [hLoads.edges] at hList
      exact (hHolds.resolve_iff he).1 (filterMap_eq_map_iff.1 hList.symm e he)
  · intro hPreserved
    constructor
    · rw [hHolds.nodes, List.map_map]
      rfl
    · intro a ha
      rw [hInfo a ha]
      congr 2
      cases a with
      | module id moduleId config =>
          apply (Addition.retryPolicy_eq_iff E₀.actorId).2
          intro policy hPolicy
          exact hPreserved.moduleRetry id moduleId config policy ha hPolicy
      | system id kind =>
          change none = (lastGiven (BuilderCall.retryFor id) calls).map _
          rw [hPreserved.systemRetry id kind ha]
          rfl
    · intro a ha key hSkip hContinue
      rw [hHolds.get_config ha, if_neg (fun h => hContinue h.1), if_neg (fun h => hSkip h.1)]
    · intro a ha
      exact hHolds.skipCondition_added ha (hPlain a ha)
    · intro a ha
      exact hHolds.continueOnError_added ha (hPlain a ha)
    · rw [hList]
      apply filterMap_eq_map_iff.2
      intro e he
      exact (hHolds.resolve_iff he).2 (hPreserved.ends e he)

end Loading

section Samples

theorem parseHyphenated_system (kind : String) : Uuid.parseHyphenated ("system:" ++ kind) = none := by
  rw [Uuid.parseHyphenated]
  cases ofHexDigits (("system:" ++ kind).toList.filter (· ≠ '-')) with
  | none => rfl
  | some n =>
      rw [Option.bind_some]
      apply if_neg
      intro hText
      have hChar : 's' ∈ (Uuid.text (BitVec.ofNat 128 n)).toList.filter (· ≠ '-') := by
        rw [hText, String.toList_append]
        simp
      rw [Uuid.text, String.toList_ofList, Uuid.filter_chars] at hChar
      exact notMem_hexDigits (by decide) hChar

def loadedProgram (calls : List BuilderCall) : ParallelWorkflowEngine (bareHost true) :=
  match plainFormat.parseGraphDocument (ParallelWorkflowEngine.new.withDocument .empty)
      (runBuilder plainFormat calls).assembleRoot with
  | .ok E => E
  | .error _ => .new

/-- A module with a retry policy and a waiting node, joined by an edge. -/
def sampleProgram : List BuilderCall :=
  [.addModule "fetch" 7 none, .addSystemNode "hold" (.wait none),
    .withRetry "fetch" 5 100 "error" none, .withSkipCondition "hold" "done",
    .edge "fetch" "hold"]

theorem loads_as_written_sample :
    LoadsAsWritten plainFormat none sampleProgram (loadedProgram sampleProgram) := by
  have hBuild : (runBuilder plainFormat sampleProgram).build =
      .ok (runBuilder plainFormat sampleProgram).assembleRoot := rfl
  have hLoad : plainFormat.parseGraphDocument (ParallelWorkflowEngine.new.withDocument .empty)
      (runBuilder plainFormat sampleProgram).assembleRoot =
        .ok (loadedProgram sampleProgram) := rfl
  have hAdditions : additions sampleProgram =
      [.module "fetch" 7 none, .system "hold" (.wait none)] := rfl
  have hParsed : plainFormat.parseSystemNodeKind "wait" .null = some (.wait none) := by decide
  refine (loads_as_written_iff plainFormat .new (loadedProgram sampleProgram)
    sampleProgram _ parseHyphenated_system ?_ ?_ ?_ hBuild hLoad).2 ⟨?_, ?_, ?_⟩
  · rw [hAdditions]
    intro a ha
    obtain rfl | ha := List.mem_cons.1 ha
    · intro data hData
      cases hData
    · obtain rfl := List.mem_singleton.1 ha
      exact ⟨⟨"wait", .null, hParsed⟩, fun q hq => by cases hq⟩
  · decide
  · decide
  · rw [hAdditions]
    rintro id kind hMem
    obtain hMem | hMem := List.mem_cons.1 hMem
    · cases hMem
    · cases List.mem_singleton.1 hMem
      rfl
  · rw [hAdditions]
    rintro id moduleId config policy hMem hPolicy
    obtain hMem | hMem := List.mem_cons.1 hMem
    · cases hMem
      have hOnly : sampleProgram.filterMap (BuilderCall.retryFor "fetch") =
          [⟨5, 100, some "error", none⟩] := rfl
      rw [lastGiven, hOnly] at hPolicy
      cases hPolicy
      rw [hOnly]
      constructor
      · intro hNone
        cases hNone
      · intro _ earlier hEarlier
        rw [List.mem_singleton.1 hEarlier]
    · cases List.mem_singleton.1 hMem
  · decide

def retriedWait : List BuilderCall :=
  [.addSystemNode "hold" (.wait none), .withRetry "hold" 2 100 none none]

/-- The policy of the waiting node is dropped. -/
theorem system_retry_dropped :
    ¬ ∀ (F : GraphFormat) (E₀ E : ParallelWorkflowEngine (bareHost true))
      (calls : List BuilderCall) (graph : Json),
      (∀ kind, F.parseUuid ("system:" ++ kind) = none) →
      (∀ a ∈ additions calls, a.Plain F) →
      ((additions calls).map fun a => F.nodeIdFor a.id).Nodup →
      (additions calls).length ≤ E₀.maxWorkflowNodes.toNat →
      (runBuilder F calls).build = .ok graph →
      F.parseGraphDocument (E₀.withDocument .empty) graph = .ok E →
      LoadsAsWritten F E₀.actorId calls E := by
  intro hAll
  have hBuild : (runBuilder plainFormat retriedWait).build =
      .ok (runBuilder plainFormat retriedWait).assembleRoot := rfl
  have hLoad : plainFormat.parseGraphDocument (ParallelWorkflowEngine.new.withDocument .empty)
      (runBuilder plainFormat retriedWait).assembleRoot = .ok (loadedProgram retriedWait) := rfl
  have hParsed : plainFormat.parseSystemNodeKind "wait" .null = some (.wait none) := by decide
  have hPlain : ∀ a ∈ additions retriedWait, a.Plain plainFormat := by
    intro a ha
    obtain rfl := List.mem_singleton.1 ha
    exact ⟨⟨"wait", .null, hParsed⟩, fun q hq => by cases hq⟩
  have hLoads := hAll plainFormat .new (loadedProgram retriedWait) retriedWait _
    parseHyphenated_system hPlain (by decide) (by decide) hBuild hLoad
  have hInfo := hLoads.info (.system "hold" (.wait none)) (List.mem_singleton_self _)
  have hDropped : (loadedProgram retriedWait).nodeMeta.lookup (plainFormat.nodeIdFor "hold") =
      some ⟨none, none, some (.wait none)⟩ := by decide
  rw [Addition.id, hDropped] at hInfo
  cases hInfo

end Samples

end TalosWorkflow
