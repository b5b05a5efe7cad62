import TalosWorkflow.Documents.Entries

/-!
# The flags of a node

A node can ask to be skipped, or for its errors to be passed over, in its data, at its top level
or in its `config`. The branches of the loader do not all read the same places.
-/

namespace TalosWorkflow

open Json GraphFormat

variable {H : Host}

section Places

def dataField {α : Type} (read : Json → String → Option α) (node : Json) (key : String) :
    Option α :=
  (node.get "data").bind fun data => read data key

def firstSkip (node : Json) : Option String :=
  (dataField strField node "skip_condition").or <|
    (strField node "skip_condition").or (configField strField node "skip_condition")

def SetsContinueOnError (node : Json) : Prop :=
  dataField boolField node "continue_on_error" = some true ∨
    boolField node "continue_on_error" = some true ∨
    configField boolField node "continue_on_error" = some true

/-- The flags that a run reads are those of the node. -/
structure ParallelWorkflowEngine.FlagsStored (E : ParallelWorkflowEngine H) (id : Uuid)
    (node : Json) : Prop where
  skip : E.skipCondition id = firstSkip node
  continues : E.continueOnError id = true ↔ SetsContinueOnError node

/-- A skip condition stands where the branch of the node looks for it. The `config` is read for
modules only, and the top level of a system node only if it has data. -/
def SkipReached (isModule : Bool) (node : Json) : Prop :=
  (dataField strField node "skip_condition").isSome ∨
    (strField node "skip_condition").isSome ∧ (isModule = true ∨ (node.get "data").isSome) ∨
    (configField strField node "skip_condition").isSome ∧ isModule = true

/-- The branch of the node comes upon `true`. Of a node with data the `config` is not read, nor of
a module whose top level has the field. -/
def ContinueReached (isModule : Bool) (node : Json) : Prop :=
  if (node.get "data").isSome then
    dataField boolField node "continue_on_error" = some true ∨
      boolField node "continue_on_error" = some true
  else
    isModule = true ∧ (boolField node "continue_on_error" = some true ∨
      boolField node "continue_on_error" = none ∧
        configField boolField node "continue_on_error" = some true)

end Places

section Settings

/-- A reserved key can be put into these settings. -/
def Writable (config : Option Json) : Prop :=
  ∃ fields : Option (List (String × Json)), config = fields.map .object

def storedSkip (config : Option Json) : Option String :=
  (config.bind (·.get "__skip_condition")).bind asStr

def storedContinue (config : Option Json) : Bool :=
  ((config.bind (·.get "__continue_on_error")).bind asBool).getD false

/-- The settings before the flags are stored: the data, or what an earlier node of the id left. -/
def baseConfig (data carried : Option Json) : Option Json :=
  match data with
  | some (.object (field :: rest)) => some (.object (field :: rest))
  | _ => carried

/-- A flag that the branch of the node comes upon can be put into the settings, and where it comes
upon none the settings have the flag already. -/
structure FlagsReached (isModule : Bool) (node : Json) (carried : Option Json) : Prop where
  skip : SkipReached isModule node → Writable (baseConfig (node.get "data") carried)
  noSkip : ¬ SkipReached isModule node →
    storedSkip (baseConfig (node.get "data") carried) = firstSkip node
  continues : ContinueReached isModule node → Writable (baseConfig (node.get "data") carried)
  noContinue : ¬ ContinueReached isModule node →
    (storedContinue (baseConfig (node.get "data") carried) = true ↔ SetsContinueOnError node)

variable {config : Option Json} {value : Json}

theorem get_of_not_writable (h : ¬ Writable config) (key : String) :
    config.bind (·.get key) = none := by
  cases config with
  | none => rfl
  | some value =>
      cases value with
      | object fields => exact absurd ⟨some fields, rfl⟩ h
      | _ => rfl

theorem storedSkip_eq_some {condition : String} :
    storedSkip config = some condition ↔
      config.bind (·.get "__skip_condition") = some (.string condition) := by
  rw [storedSkip]
  cases config.bind (·.get "__skip_condition") with
  | none => exact ⟨nofun, nofun⟩
  | some value => cases value <;> simp [asStr]

theorem storedContinue_eq_true :
    storedContinue config = true ↔
      config.bind (·.get "__continue_on_error") = some (.bool true) := by
  rw [storedContinue]
  cases config.bind (·.get "__continue_on_error") with
  | none => exact ⟨nofun, nofun⟩
  | some value => cases value <;> simp [asBool]

end Settings

namespace NodeEntry

section Reserving

variable {configs : Table Json} {id : Uuid}

theorem lookup_reserve_of_not (h : ¬ Writable (configs.lookup id)) (key : String) (value : Json) :
    (reserve configs id key value).lookup id = configs.lookup id := by
  rw [reserve, AList.lookup_insert]
  cases hConfig : configs.lookup id with
  | none => exact absurd ⟨none, hConfig⟩ h
  | some value =>
      cases value with
      | object fields => exact absurd ⟨some fields, hConfig⟩ h
      | _ => rfl

theorem writable_reserve (key : String) (value : Json) :
    Writable ((reserve configs id key value).lookup id) ↔ Writable (configs.lookup id) := by
  by_cases h : Writable (configs.lookup id)
  · refine ⟨fun _ => h, fun _ => ?_⟩
    obtain ⟨fields, hFields⟩ := h
    exact ⟨some _, lookup_reserve hFields key value⟩
  · rw [lookup_reserve_of_not h]

theorem get_reserve_iff {key : String} {value : Json} :
    ((reserve configs id key value).lookup id).bind (·.get key) = some value ↔
      Writable (configs.lookup id) := by
  constructor
  · intro hGet
    by_contra h
    rw [lookup_reserve_of_not h, get_of_not_writable h] at hGet
    cases hGet
  · rintro ⟨fields, hFields⟩
    rw [lookup_reserve hFields]
    exact lookup_insertField_self key value _

theorem get_reserve_ne {key other : String} (h : other ≠ key) (value : Json) :
    ((reserve configs id key value).lookup id).bind (·.get other) =
      (configs.lookup id).bind (·.get other) := by
  by_cases hWritable : Writable (configs.lookup id)
  · obtain ⟨fields, hFields⟩ := hWritable
    rw [lookup_reserve hFields, hFields]
    refine (lookup_insertField_ne h value _).trans ?_
    cases fields with
    | none => rfl
    | some fields => rfl
  · rw [lookup_reserve_of_not hWritable]

end Reserving

section Configuring

variable {entry : NodeEntry} {configs : Table Json}

theorem lookup_storeData_eq (entry : NodeEntry) (configs : Table Json) :
    (entry.storeData configs).lookup entry.id =
      baseConfig entry.data (configs.lookup entry.id) := by
  unfold storeData baseConfig
  cases entry.data with
  | none => rfl
  | some data =>
      cases data with
      | object fields =>
          cases fields with
          | nil => rfl
          | cons field rest => exact AList.lookup_insert configs
      | _ => rfl

theorem get_storeSkipCondition_ne {key : String} (h : key ≠ "__skip_condition") :
    ((entry.storeSkipCondition configs).lookup entry.id).bind (·.get key) =
      (configs.lookup entry.id).bind (·.get key) := by
  unfold storeSkipCondition
  split
  · exact get_reserve_ne h _
  · rfl

theorem get_storeContinueOnError_ne {key : String} (h : key ≠ "__continue_on_error") :
    ((entry.storeContinueOnError configs).lookup entry.id).bind (·.get key) =
      (configs.lookup entry.id).bind (·.get key) := by
  unfold storeContinueOnError
  split
  · exact get_reserve_ne h _
  · rfl

theorem writable_storeSkipCondition :
    Writable ((entry.storeSkipCondition configs).lookup entry.id) ↔
      Writable (configs.lookup entry.id) := by
  unfold storeSkipCondition
  split
  · exact writable_reserve _ _
  · rfl

/-- An entry whose skip condition is the expected one, if it has any, stores it unless the settings
take no key. -/
theorem skip_configure_iff {reached : Prop} {expected : Option String}
    (hReached : reached → entry.skipCondition = expected ∧ expected.isSome)
    (hNot : ¬ reached → entry.skipCondition = none) :
    storedSkip ((entry.configure configs).lookup entry.id) = expected ↔
      (reached → Writable (baseConfig entry.data (configs.lookup entry.id))) ∧
        (¬ reached →
          storedSkip (baseConfig entry.data (configs.lookup entry.id)) = expected) := by
  rw [storedSkip, configure, get_storeContinueOnError_ne (by decide), ← storedSkip]
  by_cases h : reached
  · obtain ⟨hSkip, hSome⟩ := hReached h
    obtain ⟨condition, rfl⟩ := Option.isSome_iff_exists.1 hSome
    rw [storeSkipCondition, hSkip, storedSkip_eq_some, get_reserve_iff, lookup_storeData_eq]
    exact ⟨fun hWritable => ⟨fun _ => hWritable, fun hNot => absurd h hNot⟩, fun hAll => hAll.1 h⟩
  · rw [storeSkipCondition, hNot h, lookup_storeData_eq]
    exact ⟨fun hStored => ⟨fun hReached => absurd hReached h, fun _ => hStored⟩,
      fun hAll => hAll.2 h⟩

theorem continue_configure_iff {reached expected : Prop}
    (hReached : entry.continueOnError = true ↔ reached) (hExpected : reached → expected) :
    (storedContinue ((entry.configure configs).lookup entry.id) = true ↔ expected) ↔
      (reached → Writable (baseConfig entry.data (configs.lookup entry.id))) ∧
        (¬ reached →
          (storedContinue (baseConfig entry.data (configs.lookup entry.id)) = true ↔
            expected)) := by
  by_cases h : reached
  · rw [storedContinue_eq_true, configure, storeContinueOnError, if_pos (hReached.2 h),
      get_reserve_iff, writable_storeSkipCondition, lookup_storeData_eq]
    have hHolds := hExpected h
    exact ⟨fun hIff => ⟨fun _ => hIff.2 hHolds, fun hNot => absurd h hNot⟩,
      fun hAll => ⟨fun _ => hHolds, fun _ => hAll.1 h⟩⟩
  · rw [storedContinue_eq_true, configure, storeContinueOnError,
      if_neg fun hContinue => h (hReached.1 hContinue), get_storeSkipCondition_ne (by decide),
      lookup_storeData_eq, ← storedContinue_eq_true]
    exact ⟨fun hIff => ⟨fun hReached => absurd hReached h, fun _ => hIff⟩, fun hAll => hAll.2 h⟩

end Configuring

end NodeEntry

namespace GraphFormat

variable {F : GraphFormat} {actorId : Option Uuid} {node : Json} {entry : NodeEntry}

/-- A node is read as a module or as a system node. -/
theorem readNode_cases (h : F.readNode actorId node = some entry) :
    (F.moduleIdStr node).isSome = true ∧
        (∃ moduleId, entry = F.moduleEntry actorId node moduleId) ∨
      (F.moduleIdStr node).isSome = false ∧ entry = F.systemEntry node := by
  rw [readNode] at h
  split at h
  · rename_i s hModule
    obtain ⟨moduleId, -, rfl⟩ := Option.map_eq_some_iff.1 h
    exact .inl ⟨by rw [hModule]; rfl, moduleId, rfl⟩
  · rename_i hModule
    split at h
    · cases h
      exact .inr ⟨by rw [hModule]; rfl, rfl⟩
    · cases h

theorem id_of_readNode (h : F.readNode actorId node = some entry) :
    entry.id = F.nodeIdFor (rfId node) := by
  obtain ⟨-, moduleId, rfl⟩ | ⟨-, rfl⟩ := readNode_cases h
  · rfl
  · rfl

theorem data_of_readNode (h : F.readNode actorId node = some entry) :
    entry.data = node.get "data" := by
  obtain ⟨-, moduleId, rfl⟩ | ⟨-, rfl⟩ := readNode_cases h
  · rfl
  · rfl

theorem skipCondition_systemEntry (F : GraphFormat) (node : Json) :
    (F.systemEntry node).skipCondition =
      (dataField strField node "skip_condition").or
        (if (node.get "data").isSome then strField node "skip_condition" else none) := by
  unfold systemEntry dataField
  cases node.get "data" with
  | none => rfl
  | some data => rfl

theorem skip_of_reached (h : F.readNode actorId node = some entry)
    (hReached : SkipReached (F.moduleIdStr node).isSome node) :
    entry.skipCondition = firstSkip node ∧ (firstSkip node).isSome := by
  have hSome : (firstSkip node).isSome := by
    rw [firstSkip, Option.isSome_or, Option.isSome_or, Bool.or_eq_true, Bool.or_eq_true]
    exact hReached.imp_right (Or.imp And.left And.left)
  refine ⟨?_, hSome⟩
  obtain ⟨-, moduleId, rfl⟩ | ⟨hSystem, rfl⟩ := readNode_cases h
  · rfl
  · rw [skipCondition_systemEntry, firstSkip]
    rw [hSystem] at hReached
    obtain hField | ⟨hTop, hModule | hData⟩ | ⟨-, hModule⟩ := hReached
    · obtain ⟨condition, hCondition⟩ := Option.isSome_iff_exists.1 hField
      rw [hCondition]
      rfl
    · cases hModule
    · obtain ⟨condition, hCondition⟩ := Option.isSome_iff_exists.1 hTop
      rw [if_pos hData, hCondition]
      rfl
    · cases hModule

theorem skip_of_not_reached (h : F.readNode actorId node = some entry)
    (hReached : ¬ SkipReached (F.moduleIdStr node).isSome node) :
    entry.skipCondition = none := by
  obtain ⟨hField, hRest⟩ := not_or.1 hReached
  obtain ⟨hTop, hConfig⟩ := not_or.1 hRest
  rw [Option.not_isSome_iff_eq_none] at hField
  obtain ⟨hModule, moduleId, rfl⟩ | ⟨-, rfl⟩ := readNode_cases h
  · rw [hModule, and_iff_left (.inl rfl), Option.not_isSome_iff_eq_none] at hTop
    rw [hModule, and_iff_left rfl, Option.not_isSome_iff_eq_none] at hConfig
    change firstSkip node = none
    rw [firstSkip, hField, hTop, hConfig]
    rfl
  · rw [skipCondition_systemEntry, hField, Option.none_or]
    split
    · rename_i hData
      rwa [and_iff_left (.inr hData), Option.not_isSome_iff_eq_none] at hTop
    · rfl

theorem getD_false_or (a b : Option Bool) :
    (a.getD false || b.getD false) = true ↔ a = some true ∨ b = some true := by
  rw [Bool.or_eq_true, Option.getD_eq_iff, Option.getD_eq_iff]
  simp

theorem continueOnError_iff (h : F.readNode actorId node = some entry) :
    entry.continueOnError = true ↔ ContinueReached (F.moduleIdStr node).isSome node := by
  unfold ContinueReached dataField
  obtain ⟨hModule, moduleId, rfl⟩ | ⟨hSystem, rfl⟩ := readNode_cases h
  · unfold moduleEntry
    rw [hModule]
    cases node.get "data" with
    | some data => exact getD_false_or _ _
    | none =>
        rcases node.boolField "continue_on_error" with _ | top
        · simp [Option.getD_eq_iff]
        · simp
  · unfold systemEntry
    rw [hSystem]
    cases node.get "data" with
    | some data => exact getD_false_or _ _
    | none => simp

end GraphFormat

theorem ContinueReached.sets {isModule : Bool} {node : Json} (h : ContinueReached isModule node) :
    SetsContinueOnError node := by
  rw [ContinueReached] at h
  split at h
  · exact h.imp_right .inl
  · obtain ⟨-, hTop | ⟨-, hConfig⟩⟩ := h
    · exact .inr (.inl hTop)
    · exact .inr (.inr hConfig)

section Loading

open ParallelWorkflowEngine

variable {F : GraphFormat} {E : ParallelWorkflowEngine H}

/-- The engine after the loader has gone over these nodes. -/
def GraphFormat.loadNodes (F : GraphFormat) (E : ParallelWorkflowEngine H) (nodes : List Json) :
    ParallelWorkflowEngine H :=
  (nodes.foldl F.loadNode (E, ∅)).1

theorem NodeEntry.nodeConfigs_install (entry : NodeEntry) (E : ParallelWorkflowEngine H) :
    (entry.install E).nodeConfigs = entry.configure E.nodeConfigs :=
  entry.install_frame (fun _ _ _ _ _ => rfl) E

/-- A node that is left out, or has another id, changes no settings of this one. -/
theorem GraphFormat.lookup_loadNode_ne {id : Uuid} (loaded : ParallelWorkflowEngine H × RfIds)
    {node : Json}
    (h : (F.readNode loaded.1.actorId node).isSome → F.nodeIdFor (rfId node) ≠ id) :
    (F.loadNode loaded node).1.nodeConfigs.lookup id = loaded.1.nodeConfigs.lookup id := by
  unfold loadNode
  split
  · rename_i entry hRead
    rw [NodeEntry.nodeConfigs_install]
    apply NodeEntry.lookup_configure_ne
    rw [id_of_readNode hRead]
    exact (h (Option.isSome_of_eq_some hRead)).symm
  · rfl

theorem GraphFormat.lookup_loadNodes_ne {id : Uuid} (nodes : List Json)
    (loaded : ParallelWorkflowEngine H × RfIds)
    (h : ∀ node ∈ nodes, (F.readNode loaded.1.actorId node).isSome →
      F.nodeIdFor (rfId node) ≠ id) :
    (nodes.foldl F.loadNode loaded).1.nodeConfigs.lookup id =
      loaded.1.nodeConfigs.lookup id := by
  induction nodes generalizing loaded with
  | nil => rfl
  | cons node rest ih =>
      rw [List.foldl_cons, ih, lookup_loadNode_ne loaded (h node List.mem_cons_self)]
      rw [untouched_actorId.loadNode]
      exact fun later hLater => h later (List.mem_cons_of_mem node hLater)

theorem flagsStored_iff {id : Uuid} {node : Json} :
    E.FlagsStored id node ↔
      storedSkip (E.nodeConfigs.lookup id) = firstSkip node ∧
        (storedContinue (E.nodeConfigs.lookup id) = true ↔ SetsContinueOnError node) :=
  ⟨fun h => ⟨h.skip, h.continues⟩, fun h => ⟨h.1, h.2⟩⟩

theorem GraphFormat.flagsStored_loadNodes_iff {before : List Json} {node : Json}
    (hRead : (F.readNode E.actorId node).isSome) :
    (F.loadNodes E (before ++ [node])).FlagsStored (F.nodeIdFor (rfId node)) node ↔
      FlagsReached (F.moduleIdStr node).isSome node
        ((F.loadNodes E before).nodeConfigs.lookup (F.nodeIdFor (rfId node))) := by
  rw [← untouched_actorId.loadNodes F before (E, ∅)] at hRead
  obtain ⟨entry, hEntry⟩ := Option.isSome_iff_exists.1 hRead
  have hStep : (F.loadNodes E (before ++ [node])).nodeConfigs =
      entry.configure (F.loadNodes E before).nodeConfigs := by
    rw [loadNodes, List.foldl_append, List.foldl_cons, List.foldl_nil, loadNode]
    change F.readNode (before.foldl F.loadNode (E, ∅)).1.actorId node = some entry at hEntry
    rw [hEntry]
    exact entry.nodeConfigs_install _
  rw [flagsStored_iff, hStep, ← id_of_readNode hEntry,
    NodeEntry.skip_configure_iff (skip_of_reached hEntry) (skip_of_not_reached hEntry),
    NodeEntry.continue_configure_iff (continueOnError_iff hEntry) ContinueReached.sets,
    data_of_readNode hEntry]
  constructor
  · rintro ⟨⟨hSkip, hNoSkip⟩, hContinues, hNoContinue⟩
    exact ⟨hSkip, hNoSkip, hContinues, hNoContinue⟩
  · intro h
    exact ⟨⟨h.skip, h.noSkip⟩, h.continues, h.noContinue⟩

/-- What the loader stores for a node are its flags exactly if its branch reaches them. Only a later
node of the same id can store over them. -/
theorem flags_stored_iff (F : GraphFormat) (E E' : ParallelWorkflowEngine H) (graph : Json)
    (hLoad : F.parseGraphDocument E graph = .ok E') (before after : List Json) (node : Json)
    (hNodes : documentNodes graph = before ++ node :: after)
    (hRead : (F.readNode E.actorId node).isSome) :
    ((F.loadNodes E (before ++ [node])).FlagsStored (F.nodeIdFor (rfId node)) node ↔
        FlagsReached (F.moduleIdStr node).isSome node
          ((F.loadNodes E before).nodeConfigs.lookup (F.nodeIdFor (rfId node)))) ∧
      ((∀ later ∈ after, (F.readNode E.actorId later).isSome →
          F.nodeIdFor (rfId later) ≠ F.nodeIdFor (rfId node)) →
        (E'.FlagsStored (F.nodeIdFor (rfId node)) node ↔
          FlagsReached (F.moduleIdStr node).isSome node
            ((F.loadNodes E before).nodeConfigs.lookup (F.nodeIdFor (rfId node))))) := by
  refine ⟨flagsStored_loadNodes_iff hRead, fun hLast => ?_⟩
  have hConfigs : E'.nodeConfigs =
      ((documentNodes graph).foldl F.loadNode (E, ∅)).1.nodeConfigs :=
    parseGraphDocument_frame (fun _ _ => rfl) hLoad
  have hSame : E'.nodeConfigs.lookup (F.nodeIdFor (rfId node)) =
      (F.loadNodes E (before ++ [node])).nodeConfigs.lookup (F.nodeIdFor (rfId node)) := by
    rw [hConfigs, hNodes, List.append_cons, loadNodes, List.foldl_append]
    apply lookup_loadNodes_ne
    rw [untouched_actorId.loadNodes]
    exact hLast
  rw [flagsStored_iff, hSame, ← flagsStored_iff]
  exact flagsStored_loadNodes_iff hRead

def flaggedNode (fields : List (String × Json)) : Json :=
  .object (("id", uuidJson 1) :: fields)

def flaggedGraph (fields : List (String × Json)) : Json :=
  .object [("nodes", .array [flaggedNode fields])]

def flaggedData : List (String × Json) :=
  [("type", uuidJson 2), ("data", .object [("skip_condition", .string "true")])]

theorem flags_stored_flaggedData :
    ∃ E' : ParallelWorkflowEngine (bareHost true),
      plainFormat.parseGraphDocument .new (flaggedGraph flaggedData) = .ok E' ∧
        E'.FlagsStored 1 (flaggedNode flaggedData) := by
  have hWritable : Writable (baseConfig ((flaggedNode flaggedData).get "data") none) :=
    ⟨some _, rfl⟩
  have hContinue : ¬ SetsContinueOnError (flaggedNode flaggedData) := by
    rintro (h | h | h) <;> cases h
  refine ⟨_, rfl, ((flags_stored_iff plainFormat .new _ (flaggedGraph flaggedData) rfl [] []
    (flaggedNode flaggedData) rfl (by decide)).2 nofun).2 ⟨?_, ?_, ?_, ?_⟩⟩
  · exact fun _ => hWritable
  · exact fun hNot => absurd (.inl (by decide)) hNot
  · exact fun _ => hWritable
  · intro _
    constructor
    · intro h
      cases h
    · intro h
      exact absurd h hContinue

/-- A module with data, and the flag in its `config`. -/
def flaggedConfig : List (String × Json) :=
  [("type", uuidJson 2), ("data", .object []),
    ("config", .object [("continue_on_error", .bool true)])]

/-- A module without data, and the flag in its `config` where the top level says `false`. -/
def flaggedBelow : List (String × Json) :=
  [("type", uuidJson 2), ("continue_on_error", .bool false),
    ("config", .object [("continue_on_error", .bool true)])]

/-- A system node without data, and a skip condition at its top level. -/
def flaggedSystem : List (String × Json) :=
  [("type", .string "system:wait"), ("skip_condition", .string "true")]

/-- The document of this node loads, but not with the flags of the node. -/
def LosesFlags (fields : List (String × Json)) : Prop :=
  ∃ E' : ParallelWorkflowEngine (bareHost true),
    plainFormat.parseGraphDocument .new (flaggedGraph fields) = .ok E' ∧
      ¬ E'.FlagsStored 1 (flaggedNode fields)

theorem flags_lost :
    LosesFlags flaggedConfig ∧ LosesFlags flaggedBelow ∧ LosesFlags flaggedSystem := by
  refine ⟨⟨_, rfl, ?_⟩, ⟨_, rfl, ?_⟩, ⟨_, rfl, ?_⟩⟩
  · intro h
    exact absurd (h.continues.2 (.inr (.inr rfl))) (by decide)
  · intro h
    exact absurd (h.continues.2 (.inr (.inr rfl))) (by decide)
  · intro h
    exact absurd h.skip (by decide)

end Loading

end TalosWorkflow
