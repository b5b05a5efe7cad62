import Mathlib.Data.List.Basic
import TalosWorkflow.Library.Numeral

/-!
# JSON values

The values of `serde_json` without arbitrary precision. Objects are kept as
field lists in key order, and text is the compact rendering.
-/

namespace TalosWorkflow

/-- The shortest decimal that reads back as a finite double. -/
structure FloatLexeme where
  text : String
  wellFormed : text.toList.all (fun c => c.isDigit || c ∈ ['-', '+', '.', 'e']) ∧
    text.toList.any (fun c => c ∈ ['.', 'e'])
  deriving DecidableEq, Repr

inductive Number where
  | posInt (n : UInt64)
  /-- The integer `-(k + 1)`. -/
  | negInt (k : Fin (2 ^ 63))
  | float (lexeme : FloatLexeme)
  deriving DecidableEq, Repr

inductive Json where
  | null
  | bool (b : Bool)
  | number (n : Number)
  | string (s : String)
  | array (items : List Json)
  | object (fields : List (String × Json))
  deriving Repr

namespace Json

mutual

def decEq : (a b : Json) → Decidable (a = b)
  | .null, .null => .isTrue rfl
  | .bool a, .bool b => if h : a = b then .isTrue (by rw [h]) else .isFalse (by simp [h])
  | .number a, .number b => if h : a = b then .isTrue (by rw [h]) else .isFalse (by simp [h])
  | .string a, .string b => if h : a = b then .isTrue (by rw [h]) else .isFalse (by simp [h])
  | .array xs, .array ys =>
      match decEqItems xs ys with
      | .isTrue h => .isTrue (by rw [h])
      | .isFalse h => .isFalse (by simp [h])
  | .object xs, .object ys =>
      match decEqFields xs ys with
      | .isTrue h => .isTrue (by rw [h])
      | .isFalse h => .isFalse (by simp [h])
  | .null, .bool _ | .null, .number _ | .null, .string _ | .null, .array _ | .null, .object _
  | .bool _, .null | .bool _, .number _ | .bool _, .string _ | .bool _, .array _
  | .bool _, .object _ | .number _, .null | .number _, .bool _ | .number _, .string _
  | .number _, .array _ | .number _, .object _ | .string _, .null | .string _, .bool _
  | .string _, .number _ | .string _, .array _ | .string _, .object _ | .array _, .null
  | .array _, .bool _ | .array _, .number _ | .array _, .string _ | .array _, .object _
  | .object _, .null | .object _, .bool _ | .object _, .number _ | .object _, .string _
  | .object _, .array _ => .isFalse (by simp)

def decEqItems : (xs ys : List Json) → Decidable (xs = ys)
  | [], [] => .isTrue rfl
  | x :: xs, y :: ys =>
      match decEq x y, decEqItems xs ys with
      | .isTrue h, .isTrue h' => .isTrue (by rw [h, h'])
      | .isFalse h, _ => .isFalse (by simp [h])
      | _, .isFalse h => .isFalse (by simp [h])
  | [], _ :: _ | _ :: _, [] => .isFalse (by simp)

def decEqFields : (xs ys : List (String × Json)) → Decidable (xs = ys)
  | [], [] => .isTrue rfl
  | (k, x) :: xs, (l, y) :: ys =>
      match (inferInstance : Decidable (k = l)), decEq x y, decEqFields xs ys with
      | .isTrue hk, .isTrue h, .isTrue h' => .isTrue (by rw [hk, h, h'])
      | .isFalse h, _, _ => .isFalse (by simp [h])
      | _, .isFalse h, _ => .isFalse (by simp [h])
      | _, _, .isFalse h => .isFalse (by simp [h])
  | [], _ :: _ | _ :: _, [] => .isFalse (by simp)

end

instance : DecidableEq Json := decEq

instance : Inhabited Json := ⟨.null⟩

def asObject : Json → Option (List (String × Json))
  | .object fields => some fields
  | _ => none

def asBool : Json → Option Bool
  | .bool b => some b
  | _ => none

def asStr : Json → Option String
  | .string s => some s
  | _ => none

def get (j : Json) (key : String) : Option Json := j.asObject.bind (List.lookup key)

/-- Insertion into a map that is ordered by its keys. -/
def insertField (key : String) (value : Json) : List (String × Json) → List (String × Json)
  | [] => [(key, value)]
  | (k, v) :: rest =>
      if key = k then (k, value) :: rest
      else if key < k then (key, value) :: (k, v) :: rest
      else (k, v) :: insertField key value rest

/-- `entry(key).or_insert(value)`. -/
def orInsertField (fields : List (String × Json)) (field : String × Json) :
    List (String × Json) :=
  if (fields.lookup field.1).isSome then fields else insertField field.1 field.2 fields

theorem lookup_insertField_self (key : String) (value : Json) (fields : List (String × Json)) :
    (insertField key value fields).lookup key = some value := by
  induction fields with
  | nil => rw [insertField, List.lookup_cons_self]
  | cons field rest ih =>
      obtain ⟨k, v⟩ := field
      rw [insertField]
      split
      · rename_i hKey
        rw [hKey, List.lookup_cons_self]
      · split
        · rw [List.lookup_cons_self]
        · rename_i hNe _
          rw [List.lookup_cons, beq_false_of_ne hNe]
          exact ih

theorem lookup_insertField_ne {key other : String} (h : other ≠ key) (value : Json)
    (fields : List (String × Json)) :
    (insertField key value fields).lookup other = fields.lookup other := by
  induction fields with
  | nil => rw [insertField, List.lookup_cons, beq_false_of_ne h]
  | cons field rest ih =>
      obtain ⟨k, v⟩ := field
      rw [insertField]
      split
      · rename_i hKey
        rw [List.lookup_cons, List.lookup_cons, ← hKey, beq_false_of_ne h]
      · split
        · rw [List.lookup_cons, beq_false_of_ne h]
        · rw [List.lookup_cons, List.lookup_cons, ih]

theorem mem_of_lookup {fields : List (String × Json)} {key : String} {value : Json}
    (h : fields.lookup key = some value) : (key, value) ∈ fields := by
  obtain ⟨before, after, rfl, -⟩ := List.lookup_eq_some_iff.1 h
  exact List.mem_append_right _ List.mem_cons_self

theorem object_ne_field {fields : List (String × Json)} {key : String} {value : Json}
    (h : (key, value) ∈ fields) : Json.object fields ≠ value := by
  intro hSame
  have hField := List.sizeOf_lt_of_mem h
  have hSize := congrArg sizeOf hSame
  simp only [Json.object.sizeOf_spec, Prod.mk.sizeOf_spec] at hSize hField
  omega

theorem lookup_orInsertField_self (key : String) (value : Json) (fields : List (String × Json)) :
    (orInsertField fields (key, value)).lookup key = some ((fields.lookup key).getD value) := by
  rw [orInsertField]
  cases hFound : fields.lookup key with
  | none =>
      simp only [Option.isSome_none, Bool.false_eq_true, if_false, Option.getD_none]
      exact lookup_insertField_self key value fields
  | some found =>
      simp only [Option.isSome_some, if_true, Option.getD_some]
      exact hFound

theorem lookup_orInsertField_ne {key k : String} (h : key ≠ k) (value : Json)
    (fields : List (String × Json)) :
    (orInsertField fields (k, value)).lookup key = fields.lookup key := by
  rw [orInsertField]
  split
  · rfl
  · exact lookup_insertField_ne h _ _

section Rendering

def escapeChar (c : Char) : List Char :=
  if c = '"' then ['\\', '"']
  else if c = '\\' then ['\\', '\\']
  else if c = '\x08' then ['\\', 'b']
  else if c = '\x0c' then ['\\', 'f']
  else if c = '\n' then ['\\', 'n']
  else if c = '\r' then ['\\', 'r']
  else if c = '\t' then ['\\', 't']
  else if c.toNat < 32 then
    ['\\', 'u', '0', '0', hexDigit (c.toNat / 16), hexDigit (c.toNat % 16)]
  else [c]

def renderString (s : String) : List Char := '"' :: (s.toList.flatMap escapeChar ++ ['"'])

def Number.render : Number → List Char
  | .posInt n => n.toNat.repr.toList
  | .negInt k => '-' :: (k.val + 1).repr.toList
  | .float lexeme => lexeme.text.toList

mutual

def render : Json → List Char
  | .null => ['n', 'u', 'l', 'l']
  | .bool true => ['t', 'r', 'u', 'e']
  | .bool false => ['f', 'a', 'l', 's', 'e']
  | .number n => Number.render n
  | .string s => renderString s
  | .array [] => ['[', ']']
  | .array (x :: xs) => '[' :: (render x ++ renderItems xs)
  | .object [] => ['{', '}']
  | .object ((k, x) :: fields) => '{' :: (renderString k ++ ':' :: (render x ++ renderFields fields))

def renderItems : List Json → List Char
  | [] => [']']
  | x :: xs => ',' :: (render x ++ renderItems xs)

def renderFields : List (String × Json) → List Char
  | [] => ['}']
  | (k, x) :: fields => ',' :: (renderString k ++ ':' :: (render x ++ renderFields fields))

end

/-- `to_string`. -/
def text (j : Json) : String := String.ofList j.render

/-- The length of `to_vec`. -/
def byteLength (j : Json) : Nat := j.text.utf8ByteSize

end Rendering

end Json

end TalosWorkflow
