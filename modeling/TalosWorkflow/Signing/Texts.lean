import TalosWorkflow.Library.Fields
import TalosWorkflow.Signing.Rendering

/-!
# The fields of the signed texts

Each field is free of colons, begins with its own length, or is a nonce with
its one colon. So the fields can be read back from the joined text.
-/

namespace TalosWorkflow

def plainField : Set (List Char) := {w | w.count ':' = 0}

def stampedField : Set (List Char) := {w | w.count ':' = 1}

def prefixedField : Set (List Char) := counted ':' (fun n => n.repr.toList) Char.utf8Size

section Classes

theorem delimited_plainField : Delimited ':' plainField := delimited_count ':' 0

theorem delimited_stampedField : Delimited ':' stampedField := delimited_count ':' 1

theorem colon_notMem_repr (n : Nat) : ':' ∉ n.repr.toList := by
  intro h
  cases isDigit_of_mem_repr h

theorem delimited_prefixedField : Delimited ':' prefixedField :=
  delimited_counted colon_notMem_repr (fun _ _ => repr_toList_injective) Char.utf8Size_pos

theorem plainField_of_notMem {w : List Char} (h : ':' ∉ w) : w ∈ plainField :=
  List.count_eq_zero.2 h

theorem plainField_repr (n : Nat) : n.repr.toList ∈ plainField :=
  plainField_of_notMem (colon_notMem_repr n)

end Classes

section Identifiers

theorem Uuid.chars_injective : Function.Injective Uuid.chars := by
  intro a b h
  have hDigits : hexDigits 32 a.toNat = hexDigits 32 b.toNat := by
    rw [← Uuid.filter_chars, h, Uuid.filter_chars]
  exact BitVec.eq_of_toNat_eq (hexDigits_injective a.isLt b.isLt hDigits)

theorem notMem_chars {c : Char} (hHex : isHexChar c = false) (hDash : c ≠ '-') (id : Uuid) :
    c ∉ id.chars := by
  intro h
  have hDigit : c ∈ hexDigits 32 id.toNat := by
    rw [← Uuid.filter_chars, List.mem_filter]
    exact ⟨h, decide_eq_true hDash⟩
  exact notMem_hexDigits hHex hDigit

theorem plainField_chars (id : Uuid) : id.chars ∈ plainField :=
  plainField_of_notMem (notMem_chars (by decide) (by decide) id)

end Identifiers

section Texts

theorem utf8_injective : Function.Injective utf8 := by
  intro s t h
  apply String.toByteArray_inj.1
  apply ByteArray.ext
  exact Array.toList_inj.1 h

theorem utf8_ofList (text : List Char) :
    utf8 (String.ofList text) = text.flatMap String.utf8EncodeChar := by
  rw [utf8, String.toUTF8_eq_toByteArray, String.toByteArray_ofList, List.utf8Encode]
  exact List.toList_data_toByteArray

theorem prefixedField_lengthPrefixed (text : List Char) : lengthPrefixed text ∈ prefixedField :=
  ⟨text, rfl⟩

theorem lengthPrefixed_append_inj {a b r s : List Char}
    (h : lengthPrefixed a ++ r = lengthPrefixed b ++ s) : a = b ∧ r = s := by
  simp only [lengthPrefixed, List.append_assoc, List.cons_append] at h
  have hLength := delimited_plainField _ (plainField_repr _) _ (plainField_repr _) _ _ h
  rw [hLength, List.append_cancel_left_eq] at h
  have hText := (List.cons.inj h).2
  obtain rfl := eq_of_append_eq_append_of_weight Char.utf8Size_pos hText
    (repr_toList_injective hLength)
  exact ⟨rfl, List.append_cancel_left hText⟩

theorem lengthPrefixed_injective : Function.Injective lengthPrefixed := by
  intro a b h
  exact (lengthPrefixed_append_inj (r := []) (s := []) (by rw [h])).1

theorem plainField_boolChars (b : Bool) : boolChars b ∈ plainField := by
  cases b <;> exact plainField_of_notMem (by decide)

theorem boolChars_injective : Function.Injective boolChars := by
  intro a b h
  revert a b
  decide

theorem boolChars_append_inj {a b : Bool} {r s : List Char}
    (h : boolChars a ++ r = boolChars b ++ s) : a = b := by
  have hHead : (boolChars a ++ r).head? = (boolChars b ++ s).head? := by rw [h]
  cases a <;> cases b <;> first | rfl | cases hHead

theorem plainField_tier (tier : LlmTier) : tier.asSigningStr.toList ∈ plainField := by
  cases tier <;> exact plainField_of_notMem (by decide)

theorem tier_injective {a b : LlmTier} (h : a.asSigningStr.toList = b.asSigningStr.toList) :
    a = b := by
  cases a <;> cases b <;> first | rfl | exact absurd h (by decide)

theorem chars_ne_dash (id : Uuid) : id.chars ≠ "-".toList := by
  intro h
  have hLength : (id.chars.filter (· ≠ '-')).length = 32 := by
    rw [Uuid.filter_chars, length_hexDigits]
  rw [h] at hLength
  cases hLength

theorem getD_chars_injective : Function.Injective fun id : Option Uuid =>
    (id.map Uuid.chars).getD "-".toList := by
  intro a b h
  cases a with
  | some a =>
      cases b with
      | some b => rw [Uuid.chars_injective h]
      | none => exact absurd h (chars_ne_dash a)
  | none =>
      cases b with
      | some b => exact absurd h.symm (chars_ne_dash b)
      | none => rfl

variable (digest : Sha256)

theorem plainField_hexDigest (bytes : List UInt8) : hexDigest digest bytes ∈ plainField :=
  plainField_of_notMem (notMem_hexDigits (by decide))

theorem digest_eq_of_hexDigest {a b : List UInt8} (h : hexDigest digest a = hexDigest digest b) :
    digest a = digest b := by
  apply BitVec.eq_of_toNat_eq
  exact hexDigits_injective (by simpa using (digest a).isLt) (by simpa using (digest b).isLt) h

theorem stampedField_of_nonce {nonce : String} (h : (nonceTimestamp nonce).isSome) :
    nonce.toList ∈ stampedField := by
  rw [nonceTimestamp] at h
  split at h
  · rename_i seconds c random hSpan
    rw [List.span_eq_takeWhile_dropWhile, Prod.mk.injEq] at hSpan
    have hColon : c = ':' := by
      have hHead := List.head?_dropWhile_not (fun c => decide (c ≠ ':')) nonce.toList
      rw [hSpan.2] at hHead
      simpa using hHead
    split at h
    · rename_i hHex
      have hSeconds : ':' ∉ seconds := by
        intro hIn
        rw [← hSpan.1] at hIn
        simpa using List.all_eq_true.1 List.all_takeWhile _ hIn
      have hRandom : ':' ∉ random := by
        intro hIn
        rw [isHexText, Bool.and_eq_true, List.all_eq_true] at hHex
        cases hHex.2 ':' hIn
      have hText : nonce.toList = seconds ++ ':' :: random := by
        rw [hColon] at hSpan
        rw [← hSpan.1, ← hSpan.2, List.takeWhile_append_dropWhile]
      change nonce.toList.count ':' = 1
      rw [hText, List.count_append, List.count_cons_self, List.count_eq_zero.2 hSeconds,
        List.count_eq_zero.2 hRandom]
    · cases h
  · cases h

end Texts

section Lists

/-- Entries that a join with commas keeps apart; a single empty entry reads like no entry. -/
def Listed (items : List String) : Prop := items ≠ [""] ∧ ∀ e ∈ items, ',' ∉ e.toList

/-- The same entries in some order, as far as a join with commas tells. -/
def SameEntries (items items' : List String) : Prop :=
  Listed items → Listed items' → items.Perm items'

/-- The entries in the order in which they are joined. -/
def sortedWords (items : List String) : List (List Char) :=
  (items.mergeSort (· ≤ ·)).map String.toList

theorem sortedJoin_nil : sortedJoin [] = [] := by rw [sortedJoin, List.mergeSort_nil]; rfl

/-- One list is empty, and the other has an empty entry only. -/
def OneEmpty (items items' : List String) : Prop :=
  items = [] ∧ items' = [""] ∨ items = [""] ∧ items' = []

/-- Different lists that a sorted join with commas may not tell apart. -/
def Confusable (items items' : List String) : Prop :=
  OneEmpty items items' ∨ RunsOn ',' (sortedWords items) (sortedWords items')

theorem sortedWords_eq_of_perm {items items' : List String} (h : items.Perm items') :
    sortedWords items = sortedWords items' := by
  have hPerm : (items.mergeSort (· ≤ ·)).Perm (items'.mergeSort (· ≤ ·)) :=
    (List.mergeSort_perm items _).trans (h.trans (List.mergeSort_perm items' _).symm)
  rw [sortedWords, sortedWords, hPerm.eq_of_pairwise' (List.pairwise_mergeSort' (· ≤ ·) items)
    (List.pairwise_mergeSort' (· ≤ ·) items')]

theorem not_confusable_of_perm {items items' : List String} (h : items.Perm items') :
    ¬ Confusable items items' := by
  rintro ((⟨rfl, rfl⟩ | ⟨rfl, rfl⟩) | hRuns)
  · simpa using h.length_eq
  · simpa using h.length_eq
  · rw [sortedWords_eq_of_perm h] at hRuns
    exact not_runsOn_self _ hRuns

theorem sortedWords_eq_nil {items : List String} : sortedWords items = [] ↔ items = [] := by
  rw [sortedWords, List.map_eq_nil_iff, ← List.length_eq_zero_iff, List.length_mergeSort,
    List.length_eq_zero_iff]

theorem perm_of_sortedWords_eq {items items' : List String}
    (h : sortedWords items = sortedWords items') : items.Perm items' := by
  have hSorted : items.mergeSort (· ≤ ·) = items'.mergeSort (· ≤ ·) :=
    List.map_injective_iff.2 (fun _ _ => String.toList_injective) h
  calc
    items.Perm (items.mergeSort (· ≤ ·)) := (List.mergeSort_perm items _).symm
    _ = items'.mergeSort (· ≤ ·) := hSorted
    (items'.mergeSort (· ≤ ·)).Perm items' := List.mergeSort_perm items' _

/-- An empty join is of no words, or of one that is empty. -/
theorem eq_nil_or_of_sortedJoin_eq_nil {items : List String} (h : sortedJoin items = []) :
    items = [] ∨ items = [""] := by
  obtain rfl | hSome := eq_or_ne items []
  · exact .inl rfl
  refine .inr ?_
  obtain ⟨w, ws, hWords⟩ := List.exists_cons_of_ne_nil (mt sortedWords_eq_nil.1 hSome)
  have hJoin : [','].intercalate (sortedWords items) = [] := h
  have hPerm : items.Perm [""] := by
    refine perm_of_sortedWords_eq ?_
    rw [hWords] at hJoin ⊢
    cases ws with
    | nil =>
        obtain rfl : w = [] := by simpa [List.intercalate] using hJoin
        simp [sortedWords]
    | cons v ws =>
        rw [List.intercalate_cons_of_ne_nil (List.cons_ne_nil v ws)] at hJoin
        simp at hJoin
  exact List.perm_singleton.1 hPerm

theorem perm_of_sortedJoin {items items' : List String}
    (hJoin : sortedJoin items = sortedJoin items') (hNot : ¬ Confusable items items') :
    items.Perm items' := by
  have hEmpty : ∀ {l l' : List String}, l = [] → sortedJoin l = sortedJoin l' →
      ¬ OneEmpty l l' → l.Perm l' := by
    rintro l l' rfl hJoin hNot
    rw [sortedJoin_nil] at hJoin
    obtain rfl | rfl := eq_nil_or_of_sortedJoin_eq_nil hJoin.symm
    · exact .refl _
    · exact absurd (.inl ⟨rfl, rfl⟩) hNot
  obtain hNone | hSome := eq_or_ne items []
  · exact hEmpty hNone hJoin fun h => hNot (.inl h)
  obtain hNone' | hSome' := eq_or_ne items' []
  · exact (hEmpty hNone' hJoin.symm fun h => hNot (.inl (h.symm.imp And.symm And.symm))).symm
  exact perm_of_sortedWords_eq (intercalate_inj_of_not_runsOn (fun h => hNot (.inr h))
    (mt sortedWords_eq_nil.1 hSome) (mt sortedWords_eq_nil.1 hSome') hJoin)

theorem Listed.not_confusable {items items' : List String} (h : Listed items) (h' : Listed items') :
    ¬ Confusable items items' := by
  rintro ((⟨-, hOne⟩ | ⟨hOne, -⟩) | hRuns)
  · exact h'.1 hOne
  · exact h.1 hOne
  · obtain ⟨word, hWord, hComma⟩ := hRuns.exists_mem
    rw [List.mem_append, sortedWords, sortedWords, List.mem_map, List.mem_map] at hWord
    obtain ⟨entry, hIn, rfl⟩ | ⟨entry, hIn, rfl⟩ := hWord
    · exact h.2 entry (List.mem_mergeSort.1 hIn) hComma
    · exact h'.2 entry (List.mem_mergeSort.1 hIn) hComma

theorem sameEntries_of_sortedJoin {items items' : List String}
    (hJoin : sortedJoin items = sortedJoin items') : SameEntries items items' :=
  fun h h' => perm_of_sortedJoin hJoin (h.not_confusable h')

end Lists

end TalosWorkflow
