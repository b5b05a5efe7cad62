import TalosWorkflow.SchedulerLoop
import TalosWorkflow.Signing.Texts

/-!
# Truncated strings

Strings are cut at a byte offset, which panics inside a character. The output
of a module is kept with its long strings cut.
-/

namespace TalosWorkflow

section Prefixes

theorem length_utf8_ofList (text : List Char) :
    (utf8 (String.ofList text)).length = (text.map Char.utf8Size).sum := by
  rw [utf8_ofList, List.length_flatMap]
  simp only [String.length_utf8EncodeChar]

theorem utf8ByteSize_eq_sum (s : String) :
    s.utf8ByteSize = (s.toList.map Char.utf8Size).sum := by
  rw [← length_utf8_ofList, String.ofList_toList]
  rfl

theorem bytePrefix_append (kept rest : List Char) :
    bytePrefix (kept.map Char.utf8Size).sum (kept ++ rest) = some kept := by
  induction kept with
  | nil => cases rest <;> rfl
  | cons c kept ih =>
      have hSize := Char.utf8Size_pos c
      have hSum : ((c :: kept).map Char.utf8Size).sum =
          c.utf8Size + (kept.map Char.utf8Size).sum := by
        rw [List.map_cons, List.sum_cons]
      obtain ⟨bound, hBound⟩ : ∃ bound, ((c :: kept).map Char.utf8Size).sum = bound + 1 :=
        ⟨c.utf8Size + (kept.map Char.utf8Size).sum - 1, by omega⟩
      rw [hBound] at hSum ⊢
      rw [List.cons_append, bytePrefix, if_pos (by omega), hSum, Nat.add_sub_cancel_left, ih]
      rfl

theorem bytePrefix_eq_some {bound : Nat} {text kept : List Char}
    (h : bytePrefix bound text = some kept) :
    ∃ rest, text = kept ++ rest ∧ (kept.map Char.utf8Size).sum ≤ bound ∧
      (rest ≠ [] → (kept.map Char.utf8Size).sum = bound) := by
  induction text generalizing bound kept with
  | nil =>
      rw [bytePrefix, Option.some.injEq] at h
      subst h
      exact ⟨[], rfl, Nat.zero_le _, fun hRest => absurd rfl hRest⟩
  | cons c text ih =>
      cases bound with
      | zero =>
          rw [bytePrefix, Option.some.injEq] at h
          subst h
          exact ⟨c :: text, rfl, Nat.le_refl _, fun _ => rfl⟩
      | succ bound =>
          rw [bytePrefix] at h
          split at h
          · rename_i hFits
            obtain ⟨tail, hTail, rfl⟩ := Option.map_eq_some_iff.1 h
            obtain ⟨rest, rfl, hBound, hFull⟩ := ih hTail
            refine ⟨rest, rfl, ?_, ?_⟩
            · simp only [List.map_cons, List.sum_cons]
              omega
            · intro hRest
              simp only [List.map_cons, List.sum_cons, hFull hRest]
              omega
          · cases h

/-- A character of the text ends with the byte. -/
def BoundaryAt (bytes : Nat) (text : List Char) : Prop :=
  ∃ front rest, text = front ++ rest ∧ (front.map Char.utf8Size).sum = bytes

theorem boundaryAt_of_bytePrefix {bytes : Nat} {text kept : List Char}
    (hLong : bytes < (text.map Char.utf8Size).sum) (h : bytePrefix bytes text = some kept) :
    BoundaryAt bytes text := by
  obtain ⟨rest, rfl, hBound, hFull⟩ := bytePrefix_eq_some h
  refine ⟨kept, rest, rfl, hFull ?_⟩
  rintro rfl
  rw [List.append_nil] at hLong
  omega

theorem utf8Size_of_all {chars : List Char} (h : (chars.all fun c => c.utf8Size == 1) = true) :
    ∀ c ∈ chars, c.utf8Size = 1 :=
  fun c hc => eq_of_beq (List.all_eq_true.1 h c hc)

theorem utf8Size_of_isDigit {c : Char} (h : c.isDigit = true) : c.utf8Size = 1 := by
  rw [Char.isDigit, Bool.and_eq_true, decide_eq_true_eq, decide_eq_true_eq] at h
  have hBound := UInt32.le_iff_toNat_le.1 h.2
  rw [Char.utf8Size, if_pos]
  exact UInt32.le_iff_toNat_le.2 (hBound.trans (by decide))

/-- Every byte is the last one of a character where all characters have one. -/
theorem boundaryAt_of_narrow {text : List Char} (hNarrow : ∀ c ∈ text, c.utf8Size = 1)
    {bytes : Nat} (h : bytes ≤ text.length) : BoundaryAt bytes text := by
  refine ⟨text.take bytes, text.drop bytes, (List.take_append_drop bytes text).symm, ?_⟩
  rw [List.map_congr_left (g := fun _ => 1) fun c hc => hNarrow c (List.mem_of_mem_take hc),
    List.map_const', List.sum_replicate_nat, List.length_take, Nat.min_eq_left h, Nat.mul_one]

/-- A cap at an odd number of bytes falls into one of the characters of two bytes. -/
theorem bytePrefix_repeated (k : Nat) {n : Nat} (h : k < n) (rest : List Char) :
    bytePrefix (2 * k + 1) (List.replicate n 'é' ++ rest) = none := by
  have hWide : 'é'.utf8Size = 2 := by decide
  induction k generalizing n with
  | zero =>
      obtain ⟨m, rfl⟩ : ∃ m, n = m + 1 := ⟨n - 1, by omega⟩
      rw [List.replicate_succ, List.cons_append, bytePrefix, if_neg (by omega)]
  | succ k ih =>
      obtain ⟨m, rfl⟩ : ∃ m, n = m + 1 := ⟨n - 1, by omega⟩
      have hRest : 2 * (k + 1) + 1 - 'é'.utf8Size = 2 * k + 1 := by omega
      rw [List.replicate_succ, List.cons_append, bytePrefix, if_pos (by omega), hRest,
        ih (by omega), Option.map_none]

theorem bytePrefix_narrow_repeated {c : Char} (hNarrow : c.utf8Size = 1) (k : Nat) {n : Nat}
    (h : k < n) (rest : List Char) :
    bytePrefix (2 * k + 1 + 1) (c :: (List.replicate n 'é' ++ rest)) = none := by
  rw [bytePrefix, if_pos (by omega), hNarrow, Nat.add_sub_cancel, bytePrefix_repeated k h,
    Option.map_none]

end Prefixes

section Sanitizer

/-- A long string gives way to one of its prefixes with the mark of the cut behind it. -/
inductive Truncated : Json → Json → Prop
  | cut (s : String) (front rest : List Char) (hLong : maxStringFieldBytes < s.utf8ByteSize)
      (hText : s.toList = front ++ rest)
      (hFits : (front.map Char.utf8Size).sum ≤ maxStringFieldBytes) :
      Truncated (.string s) (.string (String.ofList front ++ "...[truncated at 10240B]"))
  | unchanged (value : Json)
      (hShort : ∀ s, value = .string s → s.utf8ByteSize ≤ maxStringFieldBytes) :
      Truncated value value

/-- The fields of an object are truncated one by one, and another value stays. -/
inductive Sanitized : Json → Json → Prop
  | object {fields kept : List (String × Json)}
      (hFields : List.Forall₂ (fun field given => field.1 = given.1 ∧ Truncated field.2 given.2)
        fields kept) :
      Sanitized (.object fields) (.object kept)
  | unchanged (value : Json) (hOther : ∀ fields, value ≠ .object fields) : Sanitized value value

/-- A long string has a character that ends at the limit. -/
def Cuttable (value : Json) : Prop :=
  ∀ s, value = .string s → maxStringFieldBytes < s.utf8ByteSize →
    BoundaryAt maxStringFieldBytes s.toList

/-- Every long string at the top of the output can be cut. -/
def FieldsCuttable (output : Json) : Prop :=
  ∀ fields, output = .object fields → ∀ field ∈ fields, Cuttable field.2

variable {value kept : Json}

theorem sanitizeField_of_cuttable (h : Cuttable value) :
    ∃ kept, sanitizeField value = .ok kept ∧ Truncated value kept := by
  have hOther (hNot : ∀ s, value ≠ .string s) : sanitizeField value = .ok value := by
    cases value with
    | string s => exact absurd rfl (hNot s)
    | _ => rfl
  by_cases hString : ∃ s, value = .string s
  · obtain ⟨s, rfl⟩ := hString
    by_cases hLong : maxStringFieldBytes < s.utf8ByteSize
    · obtain ⟨front, rest, hText, hSize⟩ := h s rfl hLong
      have hKept := bytePrefix_append front rest
      rw [hSize, ← hText] at hKept
      refine ⟨_, ?_, .cut s front rest hLong hText hSize.le⟩
      rw [sanitizeField, if_pos hLong, hKept]
    · refine ⟨.string s, ?_, .unchanged _ ?_⟩
      · rw [sanitizeField, if_neg hLong]
      · rintro _ ⟨⟩
        exact Nat.le_of_not_lt hLong
  · refine ⟨value, hOther (fun s hs => hString ⟨s, hs⟩), .unchanged value ?_⟩
    exact fun s hs => absurd ⟨s, hs⟩ hString

theorem cuttable_of_sanitizeField (h : sanitizeField value = .ok kept) : Cuttable value := by
  rintro s rfl hLong
  rw [sanitizeField, if_pos hLong] at h
  split at h
  · rename_i front hFront
    exact boundaryAt_of_bytePrefix (by rwa [← utf8ByteSize_eq_sum]) hFront
  · cases h

theorem sanitizeFields_of_cuttable {fields : List (String × Json)}
    (h : ∀ field ∈ fields, Cuttable field.2) :
    ∃ kept, sanitizeFields fields = .ok kept ∧
      List.Forall₂ (fun field given => field.1 = given.1 ∧ Truncated field.2 given.2)
        fields kept := by
  induction fields with
  | nil => exact ⟨[], rfl, .nil⟩
  | cons field rest ih =>
      obtain ⟨key, value⟩ := field
      obtain ⟨given, hGiven, hTruncated⟩ := sanitizeField_of_cuttable (h _ List.mem_cons_self)
      obtain ⟨kept, hKept, hRest⟩ := ih fun other hIn => h other (List.mem_cons_of_mem _ hIn)
      refine ⟨(key, given) :: kept, ?_, .cons ⟨rfl, hTruncated⟩ hRest⟩
      rw [sanitizeFields, hGiven, hKept]
      rfl

theorem cuttable_of_sanitizeFields {fields kept : List (String × Json)}
    (h : sanitizeFields fields = .ok kept) : ∀ field ∈ fields, Cuttable field.2 := by
  induction fields generalizing kept with
  | nil => exact fun field hIn => absurd hIn List.not_mem_nil
  | cons field rest ih =>
      obtain ⟨key, value⟩ := field
      cases hValue : sanitizeField value with
      | error halt =>
          rw [sanitizeFields, hValue] at h
          cases h
      | ok given =>
          cases hRest : sanitizeFields rest with
          | error halt =>
              rw [sanitizeFields, hValue, hRest] at h
              cases h
          | ok others =>
              intro field hIn
              obtain rfl | hIn := List.mem_cons.1 hIn
              · exact cuttable_of_sanitizeField hValue
              · exact ih hRest field hIn

theorem sanitizeNodeOutput_of_cuttable (h : FieldsCuttable value) :
    ∃ kept, sanitizeNodeOutput value = .ok kept ∧ Sanitized value kept := by
  cases value with
  | object fields =>
      obtain ⟨kept, hKept, hFields⟩ := sanitizeFields_of_cuttable (h fields rfl)
      refine ⟨.object kept, ?_, .object hFields⟩
      rw [sanitizeNodeOutput, hKept]
      rfl
  | _ => exact ⟨_, rfl, .unchanged _ fun fields hObject => by cases hObject⟩

theorem cuttable_of_sanitizeNodeOutput (h : sanitizeNodeOutput value = .ok kept) :
    FieldsCuttable value := by
  rintro fields rfl
  cases hFields : sanitizeFields fields with
  | error halt =>
      rw [sanitizeNodeOutput, hFields] at h
      cases h
  | ok given => exact cuttable_of_sanitizeFields hFields

end Sanitizer

namespace Reactor

variable {H : Host} (R : Reactor H)

/-- The envelope that replaces an output over the limit has no character of several bytes. -/
theorem sizeGuard_cuttable {output : Json} (h : R.maxNodeOutputBytes.toNat < output.byteLength) :
    FieldsCuttable (R.sizeGuard output) := by
  have hRepr : ∀ n : Nat, ∀ c ∈ n.repr.toList, c.utf8Size = 1 :=
    fun n c hc => utf8Size_of_isDigit (isDigit_of_mem_repr hc)
  have hOpen : ∀ c ∈ "Node output too large (".toList, c.utf8Size = 1 :=
    utf8Size_of_all (by decide)
  have hOver : ∀ c ∈ " bytes > ".toList, c.utf8Size = 1 := utf8Size_of_all (by decide)
  have hClose : ∀ c ∈ (" byte limit). Reduce the amount of data returned by this node.").toList,
      c.utf8Size = 1 := utf8Size_of_all (by decide)
  intro fields hFields field hIn s hString hLong
  rw [sizeGuard, if_pos h, Json.object.injEq] at hFields
  subst hFields
  obtain rfl | hIn := List.mem_cons.1 hIn
  · cases hString
  · obtain rfl := List.mem_singleton.1 hIn
    obtain rfl := Json.string.inj hString
    have hNarrow : ∀ c ∈ ("Node output too large (" ++ output.byteLength.repr ++ " bytes > " ++
        R.maxNodeOutputBytes.toNat.repr ++
        " byte limit). Reduce the amount of data returned by this node.").toList,
        c.utf8Size = 1 := by
      simp only [String.toList_append, List.mem_append]
      rintro c ((((hc | hc) | hc) | hc) | hc)
      · exact hOpen c hc
      · exact hRepr _ c hc
      · exact hOver c hc
      · exact hRepr _ c hc
      · exact hClose c hc
    refine boundaryAt_of_narrow hNarrow ?_
    rw [utf8ByteSize_eq_sum, List.map_congr_left (g := fun _ => 1) hNarrow, List.map_const',
      List.sum_replicate_nat, Nat.mul_one] at hLong
    exact hLong.le

theorem handleNodeSuccess_iff {s : State} {finished : NodeIndex} {output : Json} :
    (∃ s', R.handleNodeSuccess s finished output = .ok s') ↔
      R.maxNodeOutputBytes.toNat < output.byteLength ∨ FieldsCuttable output := by
  have hStored : (∃ s', R.handleNodeSuccess s finished output = .ok s') ↔
      FieldsCuttable (R.sizeGuard output) := by
    constructor
    · rintro ⟨s', hs'⟩
      cases hKept : sanitizeNodeOutput (R.sizeGuard output) with
      | error halt =>
          rw [handleNodeSuccess, hKept] at hs'
          cases hs'
      | ok kept => exact cuttable_of_sanitizeNodeOutput hKept
    · intro hCuttable
      obtain ⟨kept, hKept, -⟩ := sanitizeNodeOutput_of_cuttable hCuttable
      refine ⟨(R.clearChain (s.insert (R.nodeId finished) kept) finished).release (.succeeds kept)
        finished (R.graph.successors finished), ?_⟩
      rw [handleNodeSuccess, hKept]
      rfl
  rw [hStored]
  by_cases hOver : R.maxNodeOutputBytes.toNat < output.byteLength
  · exact ⟨fun _ => .inl hOver, fun _ => R.sizeGuard_cuttable hOver⟩
  · rw [sizeGuard, if_neg hOver]
    exact ⟨.inr, fun hEither => hEither.resolve_left hOver⟩

end Reactor

/-- An output is sanitized without a panic exactly when its long strings can be cut, and a module's
output is then stored; one over the size limit is replaced before. -/
theorem sanitizer_exact_iff (output : Json) :
    ((∃ kept, sanitizeNodeOutput output = .ok kept ∧ Sanitized output kept) ↔
        FieldsCuttable output) ∧
      ∀ (H : Host) (R : Reactor H) (s : State) (finished : NodeIndex),
        (∃ s', R.handleNodeSuccess s finished output = .ok s') ↔
          R.maxNodeOutputBytes.toNat < output.byteLength ∨ FieldsCuttable output := by
  refine ⟨⟨?_, sanitizeNodeOutput_of_cuttable⟩, fun H R s finished => R.handleNodeSuccess_iff⟩
  rintro ⟨kept, hKept, -⟩
  exact cuttable_of_sanitizeNodeOutput hKept

section Samples

def wideText : List Char := 'a' :: List.replicate 5120 'é'

def wideOutput : Json := .object [("text", .string (String.ofList wideText))]

theorem byteLength_wideText : (String.ofList wideText).utf8ByteSize = 10241 := by
  have hNarrow : 'a'.utf8Size = 1 := by decide
  have hWide : 'é'.utf8Size = 2 := by decide
  rw [utf8ByteSize_eq_sum, String.toList_ofList, wideText, List.map_cons, List.map_replicate,
    List.sum_cons, List.sum_replicate_nat, hNarrow, hWide]

theorem byteLength_wideOutput : wideOutput.byteLength = 10252 := by
  have hPlain : wideText.flatMap Json.escapeChar = wideText := by
    rw [wideText, List.flatMap_cons, List.flatMap_replicate,
      show Json.escapeChar 'é' = ['é'] by decide, List.flatten_replicate_singleton]
    rfl
  have hRender : wideOutput.render = "\x7b\"text\":\"".toList ++ (wideText ++ ['"', '}']) := by
    rw [wideOutput, Json.render, Json.renderFields, Json.render, Json.renderString,
      Json.renderString, @String.toList_ofList wideText, hPlain]
    simp only [List.cons_append, List.append_assoc]
    rfl
  have hText := byteLength_wideText
  rw [utf8ByteSize_eq_sum, String.toList_ofList] at hText
  rw [Json.byteLength, Json.text, utf8ByteSize_eq_sum, String.toList_ofList, hRender,
    List.map_append, List.map_append, List.sum_append, List.sum_append, hText]
  decide

theorem sanitizeNodeOutput_wideOutput : sanitizeNodeOutput wideOutput = .error .charBoundary := by
  have hCut := bytePrefix_narrow_repeated (c := 'a') (by decide) 5119 (Nat.lt_succ_self 5119) []
  rw [List.append_nil, ← wideText] at hCut
  have hField : sanitizeField (.string (String.ofList wideText)) = .error .charBoundary := by
    rw [sanitizeField, byteLength_wideText, String.toList_ofList,
      show maxStringFieldBytes = 2 * 5119 + 1 + 1 from rfl, if_pos (by omega), hCut]
  rw [wideOutput, sanitizeNodeOutput, sanitizeFields, hField]
  rfl

/-- An output far below the size limit of a new engine panics at the string limit. -/
theorem wide_string_panics :
    (¬ ∃ kept, sanitizeNodeOutput wideOutput = .ok kept ∧ Sanitized wideOutput kept) ∧
      ∀ (H : Host) (E : ParallelWorkflowEngine H),
        E.maxNodeOutputBytes = (ParallelWorkflowEngine.new (H := H)).maxNodeOutputBytes →
          ¬ ∃ s', (E.reactor 9 ∅).handleNodeSuccess ((E.reactor 9 ∅).initialState ∅) 0 wideOutput =
            .ok s' := by
  have hNone : ¬ FieldsCuttable wideOutput := by
    intro hCuttable
    obtain ⟨kept, hKept, -⟩ := sanitizeNodeOutput_of_cuttable hCuttable
    rw [sanitizeNodeOutput_wideOutput] at hKept
    cases hKept
  refine ⟨?_, ?_⟩
  · rintro ⟨kept, hKept, -⟩
    exact hNone (cuttable_of_sanitizeNodeOutput hKept)
  · intro H E hLimit hStored
    have hSmall : ¬ (5 * 1024 * 1024 : UInt64).toNat < 10252 := by decide
    refine hNone (((Reactor.handleNodeSuccess_iff _).1 hStored).resolve_left ?_)
    rw [byteLength_wideOutput]
    exact hLimit ▸ hSmall

end Samples

end TalosWorkflow
