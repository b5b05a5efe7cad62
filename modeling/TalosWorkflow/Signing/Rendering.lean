import TalosWorkflow.Protocol

/-!
# The compact rendering is unambiguous

A rendered value is read back from the front of any text that goes on with a
comma or a closing bracket.
-/

namespace TalosWorkflow

theorem append_inj_of_alphabet {σ : Type} {p : σ → Prop} {u v r s : List σ}
    (hu : ∀ c ∈ u, p c) (hv : ∀ c ∈ v, p c) (hr : ∀ c ∈ r.head?, ¬ p c) (hs : ∀ c ∈ s.head?, ¬ p c)
    (h : u ++ r = v ++ s) : u = v ∧ r = s := by
  induction u generalizing v with
  | nil =>
      cases v with
      | nil => exact ⟨rfl, h⟩
      | cons c v =>
          have hHead : r.head? = some c := by
            rw [← List.nil_append r, h, List.cons_append, List.head?_cons]
          exact absurd (hv c List.mem_cons_self) (hr c hHead)
  | cons c u ih =>
      cases v with
      | nil =>
          have hHead : s.head? = some c := by
            rw [← List.nil_append s, ← h, List.cons_append, List.head?_cons]
          exact absurd (hu c List.mem_cons_self) (hs c hHead)
      | cons d v =>
          obtain ⟨rfl, hRest⟩ := List.cons.inj h
          obtain ⟨rfl, hTail⟩ := ih (fun x hx => hu x (List.mem_cons_of_mem _ hx))
            (fun x hx => hv x (List.mem_cons_of_mem _ hx)) hRest
          exact ⟨rfl, hTail⟩

theorem repr_toList_injective {m n : Nat} (h : m.repr.toList = n.repr.toList) : m = n := by
  rw [Nat.toList_repr, Nat.toList_repr] at h
  rw [← Nat.ofDigitChars_ten_toDigits (n := m), h, Nat.ofDigitChars_ten_toDigits]

namespace Json

section Strings

/-- The letters of the short escapes, with what they stand for. -/
def shortEscapes : List (Char × Char) :=
  [('"', '"'), ('\\', '\\'), ('b', '\x08'), ('f', '\x0c'), ('n', '\n'), ('r', '\r'), ('t', '\t')]

theorem escapeChar_cases (c : Char) :
    (escapeChar c = [c] ∧ c ≠ '\\' ∧ c ≠ '"') ∨
    (∃ k, (k, c) ∈ shortEscapes ∧ escapeChar c = ['\\', k]) ∨
    (c.toNat < 32 ∧ escapeChar c =
      ['\\', 'u', '0', '0', hexDigit (c.toNat / 16), hexDigit (c.toNat % 16)]) := by
  rw [escapeChar]
  split
  · rename_i hc
    exact .inr (.inl ⟨'"', by rw [hc]; decide, rfl⟩)
  split
  · rename_i hc
    exact .inr (.inl ⟨'\\', by rw [hc]; decide, rfl⟩)
  split
  · rename_i hc
    exact .inr (.inl ⟨'b', by rw [hc]; decide, rfl⟩)
  split
  · rename_i hc
    exact .inr (.inl ⟨'f', by rw [hc]; decide, rfl⟩)
  split
  · rename_i hc
    exact .inr (.inl ⟨'n', by rw [hc]; decide, rfl⟩)
  split
  · rename_i hc
    exact .inr (.inl ⟨'r', by rw [hc]; decide, rfl⟩)
  split
  · rename_i hc
    exact .inr (.inl ⟨'t', by rw [hc]; decide, rfl⟩)
  split
  · rename_i hSmall
    exact .inr (.inr ⟨hSmall, rfl⟩)
  · rename_i hQuote hBackslash _ _ _ _ _ _
    exact .inl ⟨rfl, hBackslash, hQuote⟩

theorem shortEscapes_inj {k c d : Char} (hc : (k, c) ∈ shortEscapes) (hd : (k, d) ∈ shortEscapes) :
    c = d := by
  have hAll : ∀ p ∈ shortEscapes, ∀ q ∈ shortEscapes, p.1 = q.1 → p.2 = q.2 := by decide
  exact hAll _ hc _ hd rfl

theorem not_mem_shortEscapes_u (c : Char) : ('u', c) ∉ shortEscapes := by
  have hAll : ∀ p ∈ shortEscapes, p.1 ≠ 'u' := by decide
  exact fun h => hAll _ h rfl

theorem escapeChar_append_inj {c d : Char} {r s : List Char}
    (h : escapeChar c ++ r = escapeChar d ++ s) : c = d ∧ r = s := by
  obtain ⟨hc, hcPlain, -⟩ | ⟨k, hk, hc⟩ | ⟨hcSmall, hc⟩ := escapeChar_cases c <;>
    obtain ⟨hd, hdPlain, -⟩ | ⟨l, hl, hd⟩ | ⟨hdSmall, hd⟩ := escapeChar_cases d <;>
    rw [hc, hd] at h <;>
    simp only [List.cons_append, List.nil_append, List.cons.injEq] at h
  · exact h
  · exact absurd h.1 hcPlain
  · exact absurd h.1 hcPlain
  · exact absurd h.1.symm hdPlain
  · obtain ⟨-, rfl, hRest⟩ := h
    exact ⟨shortEscapes_inj hk hl, hRest⟩
  · obtain ⟨-, rfl, -⟩ := h
    exact absurd hk (not_mem_shortEscapes_u c)
  · exact absurd h.1.symm hdPlain
  · obtain ⟨-, rfl, -⟩ := h
    exact absurd hl (not_mem_shortEscapes_u d)
  · obtain ⟨-, -, -, -, hHigh, hLow, hRest⟩ := h
    have hQuot := hexDigit_injective (by omega) (by omega) hHigh
    have hRem := hexDigit_injective (Nat.mod_lt _ (by decide)) (Nat.mod_lt _ (by decide)) hLow
    exact ⟨Char.toNat_inj.1 (by omega), hRest⟩

theorem escapeChar_append_ne (c : Char) (r s : List Char) : escapeChar c ++ r ≠ '"' :: s := by
  obtain ⟨hc, -, hQuote⟩ | ⟨k, -, hc⟩ | ⟨-, hc⟩ := escapeChar_cases c <;> rw [hc]
  · exact fun h => hQuote (List.cons.inj h).1
  · exact fun h => absurd (List.cons.inj h).1 (by decide)
  · exact fun h => absurd (List.cons.inj h).1 (by decide)

theorem escape_append_inj {cs ds r s : List Char}
    (h : cs.flatMap escapeChar ++ '"' :: r = ds.flatMap escapeChar ++ '"' :: s) :
    cs = ds ∧ r = s := by
  induction cs generalizing ds with
  | nil =>
      cases ds with
      | nil => exact ⟨rfl, (List.cons.inj h).2⟩
      | cons d ds =>
          rw [List.flatMap_cons, List.append_assoc] at h
          exact absurd h.symm (escapeChar_append_ne d _ _)
  | cons c cs ih =>
      cases ds with
      | nil =>
          rw [List.flatMap_cons, List.append_assoc] at h
          exact absurd h (escapeChar_append_ne c _ _)
      | cons d ds =>
          simp only [List.flatMap_cons, List.append_assoc] at h
          obtain ⟨rfl, hRest⟩ := escapeChar_append_inj h
          obtain ⟨rfl, hTail⟩ := ih hRest
          exact ⟨rfl, hTail⟩

theorem renderString_append_inj {k l : String} {r s : List Char}
    (h : renderString k ++ r = renderString l ++ s) : k = l ∧ r = s := by
  simp only [renderString, List.cons_append, List.append_assoc, List.nil_append] at h
  obtain ⟨hText, hRest⟩ := escape_append_inj (List.cons.inj h).2
  exact ⟨String.toList_injective hText, hRest⟩

end Strings

section Numbers

def IsNumeric (c : Char) : Prop := c.isDigit = true ∨ c ∈ ['-', '+', '.', 'e']

theorem isNumeric_of_mem_render {n : Number} {c : Char} (h : c ∈ Number.render n) : IsNumeric c := by
  cases n with
  | posInt n => exact .inl (isDigit_of_mem_repr h)
  | negInt k =>
      obtain rfl | hDigit := List.mem_cons.1 h
      · exact .inr List.mem_cons_self
      · exact .inl (isDigit_of_mem_repr hDigit)
  | float lexeme =>
      have hSymbol := List.all_eq_true.1 lexeme.wellFormed.1 c h
      rwa [Bool.or_eq_true, decide_eq_true_iff] at hSymbol

theorem isFraction_iff (n : Number) :
    (∃ c ∈ Number.render n, c = '.' ∨ c = 'e') ↔ ∃ lexeme, n = .float lexeme := by
  constructor
  · rintro ⟨c, hIn, hc⟩
    cases n with
    | posInt n =>
        have hDigit := isDigit_of_mem_repr hIn
        obtain rfl | rfl := hc <;> cases hDigit
    | negInt k =>
        obtain rfl | hTail := List.mem_cons.1 hIn
        · obtain hc | hc := hc <;> cases hc
        · have hDigit := isDigit_of_mem_repr hTail
          obtain rfl | rfl := hc <;> cases hDigit
    | float lexeme => exact ⟨lexeme, rfl⟩
  · rintro ⟨lexeme, rfl⟩
    obtain ⟨c, hIn, hc⟩ := List.any_eq_true.1 lexeme.wellFormed.2
    refine ⟨c, hIn, ?_⟩
    simpa using hc

theorem render_number_injective : Function.Injective Number.render := by
  intro a b h
  have hFraction : (∃ lexeme, a = .float lexeme) ↔ ∃ lexeme, b = .float lexeme := by
    rw [← isFraction_iff, ← isFraction_iff, h]
  cases a with
  | posInt m =>
      cases b with
      | posInt n => rw [UInt64.toNat_inj.1 (repr_toList_injective h)]
      | negInt k =>
          have hDigit : '-'.isDigit = true := isDigit_of_mem_repr (n := m.toNat) (by
            rw [show m.toNat.repr.toList = _ from h]
            exact List.mem_cons_self)
          cases hDigit
      | float lexeme => cases (hFraction.2 ⟨lexeme, rfl⟩).choose_spec
  | negInt k =>
      cases b with
      | posInt n =>
          have hDigit : '-'.isDigit = true := isDigit_of_mem_repr (n := n.toNat) (by
            rw [show n.toNat.repr.toList = _ from h.symm]
            exact List.mem_cons_self)
          cases hDigit
      | negInt l =>
          have hSucc := repr_toList_injective (List.cons.inj h).2
          rw [Fin.ext (Nat.succ.inj hSucc)]
      | float lexeme => cases (hFraction.2 ⟨lexeme, rfl⟩).choose_spec
  | float lexeme =>
      cases b with
      | posInt n => cases (hFraction.1 ⟨lexeme, rfl⟩).choose_spec
      | negInt k => cases (hFraction.1 ⟨lexeme, rfl⟩).choose_spec
      | float other =>
          obtain ⟨text, _⟩ := lexeme
          obtain ⟨text', _⟩ := other
          cases String.toList_injective h
          rfl

theorem render_number_ne_nil (n : Number) : Number.render n ≠ [] := by
  cases n with
  | posInt n =>
      rw [Number.render, Nat.toList_repr]
      exact Nat.toDigits_ne_nil
  | negInt k => exact List.cons_ne_nil _ _
  | float lexeme =>
      obtain ⟨c, hIn, -⟩ := List.any_eq_true.1 lexeme.wellFormed.2
      exact List.ne_nil_of_mem hIn

end Numbers

section Values

/-- What follows a value: nothing, a comma or a closing bracket. -/
def Ends (r : List Char) : Prop := ∀ c ∈ r.head?, c ∈ [',', ']', '}']

theorem ends_cons {c : Char} (h : c ∈ [',', ']', '}']) (r : List Char) : Ends (c :: r) := by
  intro d hd
  rwa [← Option.some.inj hd]

theorem Ends.not_isNumeric {r : List Char} (h : Ends r) : ∀ c ∈ r.head?, ¬ IsNumeric c := by
  have hAll : ∀ c ∈ [',', ']', '}'], c.isDigit = false ∧ c ∉ ['-', '+', '.', 'e'] := by simp
  intro c hc hNumeric
  obtain ⟨hDigit, hSign⟩ := hAll c (h c hc)
  obtain hNumeric | hNumeric := hNumeric
  · rw [hDigit] at hNumeric
    cases hNumeric
  · exact hSign hNumeric

theorem ends_renderItems (xs : List Json) (r : List Char) : Ends (renderItems xs ++ r) := by
  cases xs with
  | nil => exact ends_cons (by decide) _
  | cons x xs => exact ends_cons (by decide) _

theorem ends_renderFields (fields : List (String × Json)) (r : List Char) :
    Ends (renderFields fields ++ r) := by
  cases fields with
  | nil => exact ends_cons (by decide) _
  | cons field fields => exact ends_cons (by decide) _

def opening : Json → Option Char
  | .null => some 'n'
  | .bool true => some 't'
  | .bool false => some 'f'
  | .number _ => none
  | .string _ => some '"'
  | .array _ => some '['
  | .object _ => some '{'

theorem render_eq_cons (j : Json) :
    ∃ c t, render j = c :: t ∧
      ((opening j = some c ∧ c ∈ ['n', 't', 'f', '"', '[', '{']) ∨ (opening j = none ∧ IsNumeric c)) := by
  match j with
  | .null => exact ⟨_, _, rfl, .inl ⟨rfl, by decide⟩⟩
  | .bool true => exact ⟨_, _, rfl, .inl ⟨rfl, by decide⟩⟩
  | .bool false => exact ⟨_, _, rfl, .inl ⟨rfl, by decide⟩⟩
  | .number n =>
      obtain ⟨c, t, hRender⟩ := List.exists_cons_of_ne_nil (render_number_ne_nil n)
      refine ⟨c, t, hRender, .inr ⟨rfl, isNumeric_of_mem_render (n := n) ?_⟩⟩
      rw [hRender]
      exact List.mem_cons_self
  | .string s => exact ⟨_, _, rfl, .inl ⟨rfl, by decide⟩⟩
  | .array [] => exact ⟨_, _, rfl, .inl ⟨rfl, by decide⟩⟩
  | .array (x :: xs) => exact ⟨_, _, rfl, .inl ⟨rfl, by decide⟩⟩
  | .object [] => exact ⟨_, _, rfl, .inl ⟨rfl, by decide⟩⟩
  | .object ((k, x) :: fields) => exact ⟨_, _, rfl, .inl ⟨rfl, by decide⟩⟩

theorem not_isNumeric_of_opening {c : Char} (h : c ∈ ['n', 't', 'f', '"', '[', '{']) :
    ¬ IsNumeric c := by
  have hAll : ∀ c ∈ ['n', 't', 'f', '"', '[', '{'],
      c.isDigit = false ∧ c ∉ ['-', '+', '.', 'e'] := by simp
  obtain ⟨hDigit, hSign⟩ := hAll c h
  rintro (hNumeric | hNumeric)
  · rw [hDigit] at hNumeric
    cases hNumeric
  · exact hSign hNumeric

theorem opening_eq {a b : Json} {r s : List Char} (h : render a ++ r = render b ++ s) :
    opening a = opening b := by
  obtain ⟨c, t, hc, hOpenA⟩ := render_eq_cons a
  obtain ⟨d, u, hd, hOpenB⟩ := render_eq_cons b
  rw [hc, hd] at h
  obtain rfl := (List.cons.inj h).1
  obtain ⟨hA, hIn⟩ | ⟨hA, hNumeric⟩ := hOpenA <;> obtain ⟨hB, hIn'⟩ | ⟨hB, hNumeric'⟩ := hOpenB
  · rw [hA, hB]
  · exact absurd hNumeric' (not_isNumeric_of_opening hIn)
  · exact absurd hNumeric (not_isNumeric_of_opening hIn')
  · rw [hA, hB]

theorem render_append_ne {c : Char} (h : c ∈ [',', ']', '}']) (j : Json) (r s : List Char) :
    render j ++ r ≠ c :: s := by
  obtain ⟨d, t, hd, hOpen⟩ := render_eq_cons j
  rw [hd]
  intro hEq
  obtain rfl := (List.cons.inj hEq).1
  obtain ⟨-, hIn⟩ | ⟨-, hNumeric⟩ := hOpen
  · have hAll : ∀ c ∈ [',', ']', '}'], c ∉ ['n', 't', 'f', '"', '[', '{'] := by simp
    exact hAll d h hIn
  · exact (ends_cons h []).not_isNumeric d rfl hNumeric

mutual

theorem render_append_inj (a b : Json) {r s : List Char} (hr : Ends r) (hs : Ends s)
    (h : render a ++ r = render b ++ s) : a = b ∧ r = s := by
  have hOpening := opening_eq h
  match a, b with
  | .null, .null => exact ⟨rfl, List.append_cancel_left h⟩
  | .bool true, .bool true => exact ⟨rfl, List.append_cancel_left h⟩
  | .bool false, .bool false => exact ⟨rfl, List.append_cancel_left h⟩
  | .number m, .number n =>
      obtain ⟨hNumber, hRest⟩ := append_inj_of_alphabet (fun c => isNumeric_of_mem_render)
        (fun c => isNumeric_of_mem_render) hr.not_isNumeric hs.not_isNumeric h
      rw [render_number_injective hNumber]
      exact ⟨rfl, hRest⟩
  | .string k, .string l =>
      obtain ⟨rfl, hRest⟩ := renderString_append_inj h
      exact ⟨rfl, hRest⟩
  | .array [], .array [] => exact ⟨rfl, List.append_cancel_left h⟩
  | .array [], .array (y :: ys) =>
      simp only [render, List.cons_append, List.append_assoc, List.cons.injEq, true_and] at h
      exact absurd h.symm (render_append_ne (by decide) y _ _)
  | .array (x :: xs), .array [] =>
      simp only [render, List.cons_append, List.append_assoc, List.cons.injEq, true_and] at h
      exact absurd h (render_append_ne (by decide) x _ _)
  | .array (x :: xs), .array (y :: ys) =>
      simp only [render, List.cons_append, List.append_assoc, List.cons.injEq, true_and] at h
      obtain ⟨rfl, hItems⟩ := render_append_inj x y (ends_renderItems xs r) (ends_renderItems ys s) h
      obtain ⟨rfl, hRest⟩ := renderItems_append_inj xs ys hItems
      exact ⟨rfl, hRest⟩
  | .object [], .object [] => exact ⟨rfl, List.append_cancel_left h⟩
  | .object [], .object ((l, y) :: fields') =>
      simp only [render, renderString, List.cons_append] at h
      cases (List.cons.inj (List.cons.inj h).2).1
  | .object ((k, x) :: fields), .object [] =>
      simp only [render, renderString, List.cons_append] at h
      cases (List.cons.inj (List.cons.inj h).2).1
  | .object ((k, x) :: fields), .object ((l, y) :: fields') =>
      simp only [render, List.cons_append, List.append_assoc, List.cons.injEq, true_and] at h
      obtain ⟨rfl, hValue⟩ := renderString_append_inj h
      obtain ⟨rfl, hFields⟩ := render_append_inj x y (ends_renderFields fields r)
        (ends_renderFields fields' s) (List.cons.inj hValue).2
      obtain ⟨rfl, hRest⟩ := renderFields_append_inj fields fields' hFields
      exact ⟨rfl, hRest⟩
termination_by sizeOf a

theorem renderItems_append_inj (xs ys : List Json) {r s : List Char}
    (h : renderItems xs ++ r = renderItems ys ++ s) : xs = ys ∧ r = s := by
  match xs, ys with
  | [], [] => exact ⟨rfl, List.append_cancel_left h⟩
  | [], y :: ys => cases (List.cons.inj h).1
  | x :: xs, [] => cases (List.cons.inj h).1
  | x :: xs, y :: ys =>
      simp only [renderItems, List.cons_append, List.append_assoc, List.cons.injEq, true_and] at h
      obtain ⟨rfl, hItems⟩ := render_append_inj x y (ends_renderItems xs r) (ends_renderItems ys s) h
      obtain ⟨rfl, hRest⟩ := renderItems_append_inj xs ys hItems
      exact ⟨rfl, hRest⟩
termination_by sizeOf xs

theorem renderFields_append_inj (fields fields' : List (String × Json)) {r s : List Char}
    (h : renderFields fields ++ r = renderFields fields' ++ s) : fields = fields' ∧ r = s := by
  match fields, fields' with
  | [], [] => exact ⟨rfl, List.append_cancel_left h⟩
  | [], (l, y) :: fields' => cases (List.cons.inj h).1
  | (k, x) :: fields, [] => cases (List.cons.inj h).1
  | (k, x) :: fields, (l, y) :: fields' =>
      simp only [renderFields, List.cons_append, List.append_assoc, List.cons.injEq, true_and] at h
      obtain ⟨rfl, hValue⟩ := renderString_append_inj h
      obtain ⟨rfl, hFields⟩ := render_append_inj x y (ends_renderFields fields r)
        (ends_renderFields fields' s) (List.cons.inj hValue).2
      obtain ⟨rfl, hRest⟩ := renderFields_append_inj fields fields' hFields
      exact ⟨rfl, hRest⟩
termination_by sizeOf fields

end

theorem text_injective : Function.Injective Json.text := by
  intro a b h
  have hEnds : Ends [] := fun c hc => by cases hc
  have hRender : render a ++ [] = render b ++ [] := by rw [String.ofList_injective h]
  exact (render_append_inj a b hEnds hEnds hRender).1

end Values

end Json

end TalosWorkflow
