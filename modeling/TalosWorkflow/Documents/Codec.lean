import TalosWorkflow.Documents.Kinds

/-!
# The codec of system kinds

What the decoder returns is in a normal form, and the encoder is its inverse
there.
-/

namespace TalosWorkflow

theorem UInt64.toNat_min (a b : UInt64) : (min a b).toNat = min a.toNat b.toNat := by
  change (if a ≤ b then a else b).toNat = _
  split
  · rename_i h
    rw [min_eq_left (UInt64.le_iff_toNat_le.1 h)]
  · rename_i h
    rw [UInt64.le_iff_toNat_le] at h
    rw [min_eq_right (by omega)]

theorem UInt64.toNat_max (a b : UInt64) : (max a b).toNat = max a.toNat b.toNat := by
  change (if a ≤ b then b else a).toNat = _
  split
  · rename_i h
    rw [max_eq_right (UInt64.le_iff_toNat_le.1 h)]
  · rename_i h
    rw [UInt64.le_iff_toNat_le] at h
    rw [max_eq_left (by omega)]

theorem toNat_min_toUInt32 (x : UInt64) {cap : UInt64} (hCap : cap.toNat < 2 ^ 32) :
    (min x cap).toUInt32.toNat = min x.toNat cap.toNat := by
  rw [UInt64.toNat_toUInt32, UInt64.toNat_min, Nat.mod_eq_of_lt (by omega)]

theorem toNat_max_min_toUInt32 (x : UInt64) {cap floor : UInt64} (hCap : cap.toNat < 2 ^ 32)
    (hFloor : floor.toNat ≤ cap.toNat) :
    (max (min x cap) floor).toUInt32.toNat = max (min x.toNat cap.toNat) floor.toNat := by
  rw [UInt64.toNat_toUInt32, UInt64.toNat_max, UInt64.toNat_min, Nat.mod_eq_of_lt (by omega)]

theorem min_toUInt64_toUInt32 {n : UInt32} (cap : UInt64) (hCap : cap.toNat < 2 ^ 32)
    (h : n.toNat ≤ cap.toNat) : (min n.toUInt64 cap).toUInt32 = n := by
  apply UInt32.toNat_inj.1
  rw [toNat_min_toUInt32 _ hCap, UInt32.toNat_toUInt64, min_eq_left h]

theorem max_min_toUInt64_toUInt32 {n : UInt32} (cap floor : UInt64) (hCap : cap.toNat < 2 ^ 32)
    (hLow : floor.toNat ≤ n.toNat) (hHigh : n.toNat ≤ cap.toNat) :
    (max (min n.toUInt64 cap) floor).toUInt32 = n := by
  apply UInt32.toNat_inj.1
  rw [toNat_max_min_toUInt32 _ hCap (hLow.trans hHigh), UInt32.toNat_toUInt64, min_eq_left hHigh,
    max_eq_left hLow]

namespace Json

theorem get_object_cons (key k : String) (value : Json) (fields : List (String × Json)) :
    (Json.object ((k, value) :: fields)).get key =
      if key = k then some value else (Json.object fields).get key := by
  rw [get, get, asObject, asObject, Option.bind_some, Option.bind_some]
  split
  · rename_i h
    rw [h, List.lookup_cons_self]
  · rename_i h
    rw [List.lookup_cons, beq_false_of_ne h]

theorem get_object_nil (key : String) : (Json.object []).get key = none := rfl

theorem asStr_string (s : String) : (Json.string s).asStr = some s := rfl

theorem asBool_bool (b : Bool) : (Json.bool b).asBool = some b := rfl

theorem asU64_ofU64 (n : UInt64) : (ofU64 n).asU64 = some n := rfl

theorem asStr_ofOption (s : Option String) : (ofOption .string s).asStr = s := by
  cases s with
  | none => rfl
  | some s => rfl

theorem filterMap_asStr_map (items : List String) :
    (items.map Json.string).filterMap asStr = items := by
  rw [List.filterMap_map]
  exact List.filterMap_some

end Json

namespace GraphFormat

variable (F : GraphFormat)

theorem clampUnit_bounds (q : Rat) : 0 ≤ clampUnit q ∧ clampUnit q ≤ 1 := by
  constructor
  · exact le_max_left _ _
  · exact max_le (by norm_num) (min_le_right _ _)

theorem clampUnit_of_bounds {q : Rat} (hLow : 0 ≤ q) (hHigh : q ≤ 1) : clampUnit q = q := by
  rw [clampUnit, min_eq_left hHigh, max_eq_right hLow]

theorem joinModeFromValue_toValue (mode : JoinMode) :
    joinModeFromValue (joinModeToValue mode) = some mode := by
  cases mode with
  | all => rfl
  | any => rfl
  | majority => rfl
  | n quota =>
      have hQuota : quota.toNat < 4294967296 := quota.toNat_lt
      simp [joinModeToValue, joinModeFromValue, Json.asU64_ofU64, hQuota]

theorem bind_parseUuid_uuidJson (id : Uuid) :
    (uuidJson id).asStr.bind F.parseUuid = some id := F.parseUuid_text id

theorem bind_parseUuid_ofOption (id : Option Uuid) :
    (Json.ofOption uuidJson id).asStr.bind F.parseUuid = id := by
  cases id with
  | none => rfl
  | some id => exact F.parseUuid_text id

/-- A double that is written as a number which reads back as it. -/
def ReadsBack (q : Rat) : Prop := ∃ n, F.doubles.toJson q = .number n ∧ F.doubles.asF64 n = q

theorem map_asF64_toJson {q : Rat} (h : F.ReadsBack q) :
    (F.doubles.toJson q).asNumber.map F.doubles.asF64 = some q := by
  obtain ⟨n, hJson, hValue⟩ := h
  rw [hJson, Json.asNumber, Option.map_some, hValue]

theorem map_asF64_ofOption {q : Option Rat} (h : ∀ r ∈ q, F.ReadsBack r) :
    (Json.ofOption F.doubles.toJson q).asNumber.map F.doubles.asF64 = q := by
  cases q with
  | none => rfl
  | some q => exact F.map_asF64_toJson (h q rfl)

theorem routesFrom_written {routes : List (String × Uuid)} (h : OrderedMap.Ordered routes) :
    F.routesFrom (OrderedMap.collect (routes.map (Prod.map id uuidJson))) = routes := by
  rw [OrderedMap.collect_of_ordered (OrderedMap.ordered_map_iff.2 h), routesFrom,
    List.filterMap_map]
  have hRead : ((fun field : String × Json =>
      (field.2.asStr.bind F.parseUuid).map fun id => (field.1, id)) ∘ Prod.map id uuidJson) =
      some := by
    funext route
    obtain ⟨name, id⟩ := route
    change ((uuidJson id).asStr.bind F.parseUuid).map _ = _
    rw [bind_parseUuid_uuidJson]
    rfl
  rw [hRead, List.filterMap_some, OrderedMap.collect_of_ordered h]

end GraphFormat

namespace SystemNodeKind

/-- The variants behind the `llm-primitives` feature. -/
def isLlm : SystemNodeKind → Bool
  | .agentLoop .. | .judge .. | .inlineJudge .. | .ensemble .. | .confidenceGate .. |
    .reActLoop .. | .reflectiveRetry .. | .llmDispatch .. => true
  | _ => false

def doubles : SystemNodeKind → List Rat
  | .judge _ _ passThreshold _ _ | .inlineJudge _ passThreshold _ => passThreshold.toList
  | .confidenceGate threshold _ _ => [threshold]
  | _ => []

/-- The bounds that decoding enforces. -/
def Bounded : SystemNodeKind → Prop
  | .loop maxIterations _ | .whileLoop _ maxIterations => maxIterations.toNat ≤ 100
  | .capabilityDispatch requiredCapabilities _ _ => requiredCapabilities ≠ []
  | .agentLoop _ maxIterations _ _ | .reActLoop _ maxIterations _ _ => maxIterations.toNat ≤ 50
  | .inlineJudge verdictExpr _ _ => verdictExpr ≠ ""
  | .ensemble _ count _ _ _ => 2 ≤ count.toNat ∧ count.toNat ≤ 10
  | .confidenceGate threshold _ _ => 0 ≤ threshold ∧ threshold ≤ 1
  | .reflectiveRetry _ _ maxRetries _ => 1 ≤ maxRetries.toNat ∧ maxRetries.toNat ≤ 5
  | .llmDispatch _ routes _ _ => OrderedMap.Ordered routes
  | _ => True

end SystemNodeKind

namespace GraphFormat

variable {F : GraphFormat}

section Decoding

variable {k : String} {node : Json} {kind : SystemNodeKind}

theorem parseLlmSystemNodeKind_bounded (h : F.parseLlmSystemNodeKind k node = some kind) :
    kind.isLlm = true ∧ kind.Bounded := by
  rw [parseLlmSystemNodeKind] at h
  obtain ⟨-, h⟩ | ⟨-, h⟩ := ite_eq_iff.1 h
  · simp only [Option.bind_eq_bind, Option.bind_eq_some_iff, Option.some.injEq] at h
    obtain ⟨data, -, id, -, rfl⟩ := h
    refine ⟨rfl, ?_⟩
    rw [SystemNodeKind.Bounded, toNat_min_toUInt32 _ (by decide)]
    exact min_le_right _ _
  obtain ⟨-, h⟩ | ⟨-, h⟩ := ite_eq_iff.1 h
  · cases h
    exact ⟨rfl, trivial⟩
  obtain ⟨-, h⟩ | ⟨-, h⟩ := ite_eq_iff.1 h
  · obtain ⟨-, h⟩ | ⟨hExpr, h⟩ := ite_eq_iff.1 h
    · cases h
    · cases h
      exact ⟨rfl, hExpr⟩
  obtain ⟨-, h⟩ | ⟨-, h⟩ := ite_eq_iff.1 h
  · cases h
    refine ⟨rfl, ?_⟩
    rw [SystemNodeKind.Bounded, toNat_max_min_toUInt32 _ (by decide) (by decide)]
    exact ⟨le_max_right _ _, max_le (min_le_right _ _) (by decide)⟩
  obtain ⟨-, h⟩ | ⟨-, h⟩ := ite_eq_iff.1 h
  · cases h
    exact ⟨rfl, clampUnit_bounds _⟩
  obtain ⟨-, h⟩ | ⟨-, h⟩ := ite_eq_iff.1 h
  · cases h
    refine ⟨rfl, ?_⟩
    rw [SystemNodeKind.Bounded, toNat_max_min_toUInt32 _ (by decide) (by decide)]
    exact ⟨le_max_right _ _, max_le (min_le_right _ _) (by decide)⟩
  obtain ⟨-, h⟩ | ⟨-, h⟩ := ite_eq_iff.1 h
  · cases h
    refine ⟨rfl, ?_⟩
    rw [SystemNodeKind.Bounded]
    cases ((node.get "data").getD .null).get "routes" |>.bind Json.asObject with
    | none => exact List.Pairwise.nil
    | some fields => exact OrderedMap.ordered_collect _
  obtain ⟨-, h⟩ | ⟨-, h⟩ := ite_eq_iff.1 h
  · simp only [Option.bind_eq_bind, Option.bind_eq_some_iff, Option.some.injEq] at h
    obtain ⟨data, -, id, -, rfl⟩ := h
    refine ⟨rfl, ?_⟩
    rw [SystemNodeKind.Bounded, toNat_min_toUInt32 _ (by decide)]
    exact min_le_right _ _
  · cases h

/-- Decoding yields bounded kinds only, and kinds of the feature only where it is on. -/
theorem parseSystemNodeKind_bounded (h : F.parseSystemNodeKind k node = some kind) :
    (kind.isLlm = true → F.llmPrimitives = true) ∧ kind.Bounded := by
  rw [parseSystemNodeKind] at h
  obtain ⟨-, h⟩ | ⟨-, h⟩ := ite_eq_iff.1 h
  · cases h
    exact ⟨Bool.noConfusion, trivial⟩
  obtain ⟨-, h⟩ | ⟨-, h⟩ := ite_eq_iff.1 h
  · simp only [Option.bind_eq_bind, Option.bind_eq_some_iff, Option.some.injEq] at h
    obtain ⟨data, -, id, -, rfl⟩ := h
    exact ⟨Bool.noConfusion, trivial⟩
  obtain ⟨-, h⟩ | ⟨-, h⟩ := ite_eq_iff.1 h
  · simp only [Option.bind_eq_bind, Option.bind_eq_some_iff, Option.some.injEq] at h
    obtain ⟨data, -, condition, -, rfl⟩ := h
    refine ⟨Bool.noConfusion, ?_⟩
    rw [SystemNodeKind.Bounded, toNat_min_toUInt32 _ (by decide)]
    exact min_le_right _ _
  obtain ⟨-, h⟩ | ⟨-, h⟩ := ite_eq_iff.1 h
  · simp only [Option.bind_eq_bind, Option.bind_eq_some_iff, Option.some.injEq] at h
    obtain ⟨data, -, condition, -, rfl⟩ := h
    refine ⟨Bool.noConfusion, ?_⟩
    rw [SystemNodeKind.Bounded, toNat_min_toUInt32 _ (by decide)]
    exact min_le_right _ _
  obtain ⟨-, h⟩ | ⟨-, h⟩ := ite_eq_iff.1 h
  · cases h
    exact ⟨Bool.noConfusion, trivial⟩
  obtain ⟨-, h⟩ | ⟨-, h⟩ := ite_eq_iff.1 h
  · cases h
    exact ⟨Bool.noConfusion, trivial⟩
  obtain ⟨-, h⟩ | ⟨-, h⟩ := ite_eq_iff.1 h
  · cases h
    exact ⟨Bool.noConfusion, trivial⟩
  obtain ⟨-, h⟩ | ⟨-, h⟩ := ite_eq_iff.1 h
  · cases h
    exact ⟨Bool.noConfusion, trivial⟩
  obtain ⟨-, h⟩ | ⟨-, h⟩ := ite_eq_iff.1 h
  · cases h
    exact ⟨Bool.noConfusion, trivial⟩
  obtain ⟨-, h⟩ | ⟨-, h⟩ := ite_eq_iff.1 h
  · simp only [Option.bind_eq_bind, Option.bind_eq_some_iff, Option.some.injEq] at h
    obtain ⟨data, -, condition, -, rfl⟩ := h
    exact ⟨Bool.noConfusion, trivial⟩
  obtain ⟨-, h⟩ | ⟨-, h⟩ := ite_eq_iff.1 h
  · simp only [Option.bind_eq_bind, Option.bind_eq_some_iff, Option.some.injEq] at h
    obtain ⟨data, -, expression, -, rfl⟩ := h
    exact ⟨Bool.noConfusion, trivial⟩
  obtain ⟨-, h⟩ | ⟨-, h⟩ := ite_eq_iff.1 h
  · simp only [Option.bind_eq_bind, Option.bind_eq_some_iff] at h
    obtain ⟨data, -, items, -, h⟩ := h
    obtain ⟨-, h⟩ | ⟨hCaps, h⟩ := ite_eq_iff.1 h
    · cases h
    · cases h
      exact ⟨Bool.noConfusion, hCaps⟩
  obtain ⟨hFeature, h⟩ | ⟨-, h⟩ := ite_eq_iff.1 h
  · obtain ⟨-, hBounded⟩ := parseLlmSystemNodeKind_bounded h
    exact ⟨fun _ => hFeature, hBounded⟩
  · cases h

end Decoding

section RoundTrip

variable {kind : SystemNodeKind} {node : Json}

theorem parseLlmSystemNodeKind_serialize (hLlm : kind.isLlm = true) (hBounded : kind.Bounded)
    (hDoubles : ∀ q ∈ kind.doubles, F.ReadsBack q)
    (hData : node.get "data" = some (F.serializeSystemNodeKind kind).2) :
    F.parseLlmSystemNodeKind (F.serializeSystemNodeKind kind).1 node = some kind := by
  cases kind with
  | agentLoop bodyWorkflowId maxIterations injectHistory timeoutSecs
  | reActLoop bodyWorkflowId maxIterations injectHistory timeoutSecs =>
      have hCap := min_toUInt64_toUInt32 50 (by decide) hBounded
      simp [parseLlmSystemNodeKind, hData, serializeSystemNodeKind, uuidField, Json.strField,
        Json.u64Field, Json.boolField, Json.get_object_cons, bind_parseUuid_uuidJson,
        Json.asU64_ofU64, Json.asBool_bool, hCap]
  | judge judgeWorkflowId rubric passThreshold onFailure timeoutSecs =>
      have hThreshold := F.map_asF64_ofOption (q := passThreshold) fun q hq =>
        hDoubles q (Option.mem_toList.2 hq)
      simp [parseLlmSystemNodeKind, hData, serializeSystemNodeKind, uuidField, Json.strField,
        Json.u64Field, f64Field, Json.get_object_cons, bind_parseUuid_uuidJson,
        Json.asU64_ofU64, Json.asStr_string, hThreshold]
  | inlineJudge verdictExpr passThreshold onFailure =>
      have hExpr : verdictExpr ≠ "" := hBounded
      have hThreshold := F.map_asF64_ofOption (q := passThreshold) fun q hq =>
        hDoubles q (Option.mem_toList.2 hq)
      simp [parseLlmSystemNodeKind, hData, serializeSystemNodeKind, Json.strField, f64Field,
        Json.get_object_cons, Json.asStr_string, hExpr, hThreshold]
  | ensemble childWorkflowId count consensus judgeWorkflowId timeoutSecs =>
      have hCount := max_min_toUInt64_toUInt32 10 2 (by decide) hBounded.1 hBounded.2
      simp [parseLlmSystemNodeKind, hData, serializeSystemNodeKind, uuidField, Json.strField,
        Json.u64Field, Json.get_object_cons, bind_parseUuid_uuidJson, bind_parseUuid_ofOption,
        Json.asU64_ofU64, Json.asStr_string, hCount]
  | confidenceGate threshold confidencePath onLowConfidence =>
      have hThreshold := F.map_asF64_toJson (hDoubles threshold (List.mem_singleton_self _))
      simp [parseLlmSystemNodeKind, hData, serializeSystemNodeKind, Json.strField, f64Field,
        Json.get_object_cons, Json.asStr_string, hThreshold,
        clampUnit_of_bounds hBounded.1 hBounded.2]
  | reflectiveRetry childWorkflowId reflectionWorkflowId maxRetries timeoutSecs =>
      have hCount := max_min_toUInt64_toUInt32 5 1 (by decide) hBounded.1 hBounded.2
      simp [parseLlmSystemNodeKind, hData, serializeSystemNodeKind, uuidField, Json.strField,
        Json.u64Field, Json.get_object_cons, bind_parseUuid_uuidJson, Json.asU64_ofU64, hCount]
  | llmDispatch classifierWorkflowId routes fallbackWorkflowId timeoutSecs =>
      simp [parseLlmSystemNodeKind, hData, serializeSystemNodeKind, uuidField, Json.strField,
        Json.u64Field, Json.get_object_cons, bind_parseUuid_uuidJson, bind_parseUuid_ofOption,
        Json.asU64_ofU64, Json.asObject, F.routesFrom_written hBounded]
  | _ => cases hLlm

/-- Every bounded kind is read back from what the builder writes for it. -/
theorem parseSystemNodeKind_serialize (hLlm : kind.isLlm = true → F.llmPrimitives = true)
    (hBounded : kind.Bounded) (hDoubles : ∀ q ∈ kind.doubles, F.ReadsBack q)
    (hData : node.get "data" = some (F.serializeSystemNodeKind kind).2) :
    F.parseSystemNodeKind (F.serializeSystemNodeKind kind).1 node = some kind := by
  cases kind with
  | wait message | errorHandler message =>
      cases message <;>
      simp [parseSystemNodeKind, hData, serializeSystemNodeKind, optionalText, Json.strField,
        Json.get_object_cons, Json.get_object_nil, Json.asStr_string]
  | subWorkflow workflowId timeoutSecs =>
      simp [parseSystemNodeKind, hData, serializeSystemNodeKind, uuidField, Json.strField,
        Json.u64Field, Json.get_object_cons, bind_parseUuid_uuidJson, Json.asU64_ofU64]
  | loop maxIterations condition | whileLoop condition maxIterations =>
      have hCap := min_toUInt64_toUInt32 100 (by decide) hBounded
      simp [parseSystemNodeKind, hData, serializeSystemNodeKind, Json.strField, Json.u64Field,
        Json.get_object_cons, Json.asU64_ofU64, Json.asStr_string, hCap]
  | repeatLoop count =>
      have hSize : count.toNat < 2 ^ 32 := count.toNat_lt
      have hCap := min_toUInt64_toUInt32 (n := count) 4294967295 (by decide)
        (by change count.toNat ≤ 4294967295; omega)
      simp [parseSystemNodeKind, hData, serializeSystemNodeKind, Json.u64Field,
        Json.get_object_cons, Json.asU64_ofU64, hCap]
  | fanIn joinMode aggregationExpr =>
      cases aggregationExpr <;>
      simp [parseSystemNodeKind, hData, serializeSystemNodeKind, optionalText, Json.strField,
        Json.get_object_cons, Json.get_object_nil, Json.asStr_string, joinModeFromValue_toValue]
  | collect => simp [parseSystemNodeKind, serializeSystemNodeKind]
  | synthesize synthesisExpr =>
      cases synthesisExpr <;>
      simp [parseSystemNodeKind, hData, serializeSystemNodeKind, optionalText, Json.strField,
        Json.get_object_cons, Json.get_object_nil, Json.asStr_string]
  | verify condition checkLabel onFailure =>
      simp [parseSystemNodeKind, hData, serializeSystemNodeKind, Json.strField,
        Json.get_object_cons, Json.asStr_string, Json.asStr_ofOption]
  | dynamicDispatch dispatchExpression timeoutSecs =>
      simp [parseSystemNodeKind, hData, serializeSystemNodeKind, Json.strField, Json.u64Field,
        Json.get_object_cons, Json.asStr_string, Json.asU64_ofU64]
  | capabilityDispatch requiredCapabilities fallbackWorkflowId timeoutSecs =>
      have hCaps : requiredCapabilities ≠ [] := hBounded
      simp [parseSystemNodeKind, hData, serializeSystemNodeKind, uuidField, Json.strField,
        Json.u64Field, Json.get_object_cons, Json.asArray, -List.filterMap_map,
        -List.filterMap_eq_nil_iff, Json.filterMap_asStr_map, hCaps, bind_parseUuid_ofOption,
        Json.asU64_ofU64]
  | _ =>
      have hRead := parseLlmSystemNodeKind_serialize rfl hBounded hDoubles hData
      simpa [parseSystemNodeKind, serializeSystemNodeKind, hLlm rfl] using hRead

/-- Whatever the decoder has read from some node it reads again from what the builder writes. -/
theorem system_kind_round_trip {k : String} {node' : Json}
    (h : F.parseSystemNodeKind k node' = some kind)
    (hDoubles : ∀ q ∈ kind.doubles, F.ReadsBack q)
    (hData : node.get "data" = some (F.serializeSystemNodeKind kind).2) :
    F.parseSystemNodeKind (F.serializeSystemNodeKind kind).1 node = some kind := by
  obtain ⟨hLlm, hBounded⟩ := parseSystemNodeKind_bounded h
  exact parseSystemNodeKind_serialize hLlm hBounded hDoubles hData

end RoundTrip

end GraphFormat

section Samples

namespace Uuid

/-- The parser of the form that `text` has. -/
def parseHyphenated (s : String) : Option Uuid :=
  (ofHexDigits (s.toList.filter (· ≠ '-'))).bind fun n =>
    if text (BitVec.ofNat 128 n) = s then some (BitVec.ofNat 128 n) else none

theorem parseHyphenated_text (id : Uuid) : parseHyphenated id.text = some id := by
  have hSize : id.toNat < 16 ^ 32 := id.isLt
  rw [parseHyphenated, text, String.toList_ofList, filter_chars, ofHexDigits_hexDigits hSize,
    Option.bind_some, BitVec.ofNat_toNat, BitVec.setWidth_eq]
  exact if_pos rfl

end Uuid

def oneLexeme : FloatLexeme := ⟨"1.0", by decide⟩

def zeroLexeme : FloatLexeme := ⟨"0.0", by decide⟩

/-- Reads the hyphenated form of UUIDs, whole numbers and the doubles 0 and 1. -/
def plainFormat : GraphFormat where
  parseUuid := Uuid.parseHyphenated
  parseUuid_text := Uuid.parseHyphenated_text
  digest := fun s => BitVec.ofNat 128 s.length
  doubles :=
    { asF64 := fun
        | .posInt n => n.toNat
        | .negInt k => -(k.val + 1 : Int)
        | .float lexeme => if lexeme.text = "1.0" then 1 else 0
      toJson := fun q => .number (.float (if q = 1 then oneLexeme else zeroLexeme))
      twoDecimals := fun q => if q = 1 then "1.00" else "0.00" }
  llmPrimitives := true

/-- A threshold above one is clamped, written as a double and read back. -/
theorem confidence_gate_round_trip :
    plainFormat.parseSystemNodeKind "confidence_gate"
        (.object [("data", .object [("threshold", .ofU64 7)])]) =
      some (.confidenceGate 1 "__confidence__" "pause") ∧
    plainFormat.parseSystemNodeKind "confidence_gate"
        (.object [("data", .object [("confidence_path", .string "__confidence__"),
          ("on_low_confidence", .string "pause"),
          ("threshold", .number (.float oneLexeme))])]) =
      some (.confidenceGate 1 "__confidence__" "pause") := by
  have hRead : plainFormat.parseSystemNodeKind "confidence_gate"
      (.object [("data", .object [("threshold", .ofU64 7)])]) =
        some (.confidenceGate 1 "__confidence__" "pause") := by decide
  refine ⟨hRead, GraphFormat.system_kind_round_trip hRead ?_ rfl⟩
  intro q hq
  obtain rfl := List.mem_singleton.1 hq
  exact ⟨_, rfl, rfl⟩

end Samples

end TalosWorkflow
