import Mathlib.Data.List.Basic
import Mathlib.Data.Nat.Digits.Defs

/-!
# Numerals as character lists

Lowercase hexadecimal of a fixed width, written and read.
-/

namespace TalosWorkflow

def hexDigit (n : Nat) : Char := if n < 10 then Char.ofNat (48 + n) else Char.ofNat (87 + n)

theorem hexDigit_injective {m n : Nat} (hm : m < 16) (hn : n < 16)
    (h : hexDigit m = hexDigit n) : m = n := by
  have hAll : ∀ m < 16, ∀ n < 16, hexDigit m = hexDigit n → m = n := by decide
  exact hAll m hm n hn h

theorem hexDigit_isHex {n : Nat} (hn : n < 16) :
    (hexDigit n).isDigit ∨ hexDigit n ∈ ['a', 'b', 'c', 'd', 'e', 'f'] := by
  have hAll : ∀ n < 16, (hexDigit n).isDigit ∨
      hexDigit n ∈ ['a', 'b', 'c', 'd', 'e', 'f'] := by decide
  exact hAll n hn

/-- The last `width` hexadecimal digits of `n`. -/
def hexDigits : Nat → Nat → List Char
  | 0, _ => []
  | width + 1, n => hexDigits width (n / 16) ++ [hexDigit (n % 16)]

@[simp]
theorem length_hexDigits (width n : Nat) : (hexDigits width n).length = width := by
  induction width generalizing n with
  | zero => rfl
  | succ width ih => rw [hexDigits, List.length_append, ih, List.length_singleton]

theorem hexDigits_injective {width m n : Nat} (hm : m < 16 ^ width) (hn : n < 16 ^ width)
    (h : hexDigits width m = hexDigits width n) : m = n := by
  induction width generalizing m n with
  | zero =>
      rw [pow_zero, Nat.lt_one_iff] at hm hn
      rw [hm, hn]
  | succ width ih =>
      simp only [hexDigits] at h
      obtain ⟨hHigh, hLow⟩ := List.append_inj' h rfl
      have hQuot : m / 16 = n / 16 :=
        ih (Nat.div_lt_of_lt_mul (by rwa [pow_succ'] at hm))
          (Nat.div_lt_of_lt_mul (by rwa [pow_succ'] at hn)) hHigh
      have hRem : m % 16 = n % 16 :=
        hexDigit_injective (Nat.mod_lt _ (by decide)) (Nat.mod_lt _ (by decide))
          (List.cons.inj hLow).1
      omega

def hexValue (c : Char) : Option Nat :=
  if c.isDigit then some (c.toNat - 48)
  else if 'a' ≤ c ∧ c ≤ 'f' then some (c.toNat - 87)
  else none

def ofHexDigits (cs : List Char) : Option Nat :=
  cs.foldl (fun n c => n.bind fun n => (hexValue c).map fun d => 16 * n + d) (some 0)

theorem hexValue_hexDigit {n : Nat} (hn : n < 16) : hexValue (hexDigit n) = some n := by
  have hAll : ∀ n < 16, hexValue (hexDigit n) = some n := by decide
  exact hAll n hn

theorem ofHexDigits_hexDigits {width n : Nat} (hn : n < 16 ^ width) :
    ofHexDigits (hexDigits width n) = some n := by
  induction width generalizing n with
  | zero =>
      rw [pow_zero, Nat.lt_one_iff] at hn
      rw [hn]
      rfl
  | succ width ih =>
      have hHigh := ih (n := n / 16) (Nat.div_lt_of_lt_mul (by rwa [pow_succ'] at hn))
      rw [ofHexDigits] at hHigh
      rw [hexDigits, ofHexDigits, List.foldl_append, hHigh, List.foldl_cons, List.foldl_nil,
        Option.bind_some, hexValue_hexDigit (Nat.mod_lt _ (by decide)), Option.map_some,
        Nat.div_add_mod]

end TalosWorkflow
