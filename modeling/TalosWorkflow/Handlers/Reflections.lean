import TalosWorkflow.Handlers.Adaptive
import TalosWorkflow.Handlers.Ensembles
import TalosWorkflow.Handlers.Triggers

/-!
# Attempts of reflective retries

A reflective retry is read as the list of its attempts, each with its input, its
outcome and the reflection behind it.
-/

namespace TalosWorkflow

variable {H : Host}

structure ChildAttempt (H : Host) where
  input : Json
  outcome : Except SubflowError (NestedRun H)
  reflection : Option (Except SubflowError (NestedRun H))

namespace ChildAttempt

def output (a : ChildAttempt H) : Json :=
  match a.outcome with
  | .ok run => run.collapsed
  | .error e => e.intoErrorEnvelope "ReflectiveRetry child"

def failed (a : ChildAttempt H) : Bool := isErrorOutput a.output

def lastError (a : ChildAttempt H) : String := errorMessageOr a.output "unknown error"

def feedback (a : ChildAttempt H) : List (String × Json) :=
  match a.reflection with
  | some (.ok run) => objectFields (stripReserved run.collapsed)
  | _ => []

def runs (a : ChildAttempt H) : List (NestedRun H) :=
  returnedRuns a.outcome ++ (a.reflection.map returnedRuns).getD []

def reflectedOn (a : ChildAttempt H) (reflection : Except SubflowError (NestedRun H)) :
    ChildAttempt H :=
  { a with reflection := some reflection }

end ChildAttempt

/-- What is reported on the attempts, when others were made before. -/
def concludeAttempts (maxRetries : Nat) : Nat → String → List (ChildAttempt H) → Json
  | _, lastError, [] =>
      errorEnvelope ("Reflective retry exhausted " ++ maxRetries.repr ++
        " attempts. Last error: " ++ lastError)
  | before, _, a :: rest =>
      if a.failed then concludeAttempts maxRetries (before + 1) a.lastError rest
      else .object (Json.insertField "__reflective_retry_attempts__" (.ofCount (before + 1))
        (outputFields a.output))

namespace ParallelWorkflowEngine

section Traces

variable (E : ParallelWorkflowEngine H) (N : Nesting H)

def attemptAt (childWfId : Uuid) (attempt : Nat) (current : Json) : ChildAttempt H where
  input := stripReserved current
  outcome := E.executeSubworkflowGraph N (2 * attempt) childWfId (stripReserved current)
  reflection := none

def reflectionAt (reflectionWfId : Uuid) (attempt : Nat) (current : Json) (lastError : String) :
    Except SubflowError (NestedRun H) :=
  E.executeSubworkflowGraph N (2 * attempt + 1) reflectionWfId
    (.object [("attempt", .ofCount attempt), ("error", .string lastError),
      ("input", stripReserved current)])

/-- The attempts that are made while some remain. -/
def reflectiveTrace (childWfId reflectionWfId : Uuid) (maxRetries : Nat) :
    Nat → Json → List (ChildAttempt H)
  | 0, _ => []
  | remaining + 1, current =>
      let attempt := maxRetries - remaining
      let made := E.attemptAt N childWfId attempt current
      if made.failed = true ∧ remaining ≠ 0 then
        made.reflectedOn (E.reflectionAt N reflectionWfId attempt current made.lastError) ::
          reflectiveTrace childWfId reflectionWfId maxRetries remaining
            (E.reflect N reflectionWfId attempt current made.lastError).report
      else [made]

theorem reflectiveTrace_succ (childWfId reflectionWfId : Uuid) (maxRetries remaining : Nat)
    (current : Json) :
    E.reflectiveTrace N childWfId reflectionWfId maxRetries (remaining + 1) current =
      if (E.attemptAt N childWfId (maxRetries - remaining) current).failed = true ∧ remaining ≠ 0
      then
        (E.attemptAt N childWfId (maxRetries - remaining) current).reflectedOn
          (E.reflectionAt N reflectionWfId (maxRetries - remaining) current
            (E.attemptAt N childWfId (maxRetries - remaining) current).lastError) ::
          E.reflectiveTrace N childWfId reflectionWfId maxRetries remaining
            (E.reflect N reflectionWfId (maxRetries - remaining) current
              (E.attemptAt N childWfId (maxRetries - remaining) current).lastError).report
      else [E.attemptAt N childWfId (maxRetries - remaining) current] := rfl

variable {E N} {childWfId reflectionWfId : Uuid} {maxRetries : Nat}

theorem reflect_error {attempt : Nat} {current : Json} {lastError : String} {e : SubflowError}
    (h : E.reflectionAt N reflectionWfId attempt current lastError = .error e) :
    (E.reflect N reflectionWfId attempt current lastError).report = current := by
  rw [reflectionAt] at h
  simp only [reflect, h]

theorem reflect_ok {attempt : Nat} {current : Json} {lastError : String} {run : NestedRun H}
    (h : E.reflectionAt N reflectionWfId attempt current lastError = .ok run) :
    (E.reflect N reflectionWfId attempt current lastError).report = .object
      (insertFields (objectFields current) (objectFields (stripReserved run.collapsed))) := by
  rw [reflectionAt] at h
  simp only [reflect, h]

/-- The attempts account for what the loop reports, and for the runs it has made. -/
theorem reflectiveAttempts_eq {remaining : Nat} (hRemaining : remaining ≤ maxRetries)
    (current : Json) (lastError : String) (runs : List (NestedRun H)) :
    E.reflectiveAttempts N childWfId reflectionWfId maxRetries remaining current lastError runs =
      ⟨concludeAttempts maxRetries (maxRetries - remaining) lastError
          (E.reflectiveTrace N childWfId reflectionWfId maxRetries remaining current),
        runs ++ (E.reflectiveTrace N childWfId reflectionWfId maxRetries remaining current).flatMap
          ChildAttempt.runs⟩ := by
  induction remaining generalizing current lastError runs with
  | zero => simp [reflectiveAttempts, reflectiveTrace, concludeAttempts]
  | succ remaining ih =>
      have hNumber : maxRetries - (remaining + 1) + 1 = maxRetries - remaining := by omega
      let made := E.attemptAt N childWfId (maxRetries - remaining) current
      have hUnfold : E.reflectiveAttempts N childWfId reflectionWfId maxRetries (remaining + 1)
          current lastError runs =
        if made.failed then
          if remaining = 0 then
            E.reflectiveAttempts N childWfId reflectionWfId maxRetries remaining current
              made.lastError (runs ++ returnedRuns made.outcome)
          else
            E.reflectiveAttempts N childWfId reflectionWfId maxRetries remaining
              (E.reflect N reflectionWfId (maxRetries - remaining) current made.lastError).report
              made.lastError (runs ++ returnedRuns made.outcome ++
                (E.reflect N reflectionWfId (maxRetries - remaining) current made.lastError).runs)
        else
          ⟨.object (Json.insertField "__reflective_retry_attempts__"
            (.ofCount (maxRetries - remaining)) (outputFields made.output)),
            runs ++ returnedRuns made.outcome⟩ := rfl
      have hRuns : made.runs = returnedRuns made.outcome := List.append_nil _
      rw [hUnfold, reflectiveTrace_succ]
      split
      · rename_i hFailed
        split
        · rename_i hLast
          subst hLast
          rw [if_neg (fun h => h.2 rfl), concludeAttempts, if_pos hFailed, reflectiveAttempts,
            concludeAttempts, List.flatMap_singleton, hRuns]
        · rename_i hMore
          let reflection := E.reflectionAt N reflectionWfId (maxRetries - remaining) current
            made.lastError
          have hBoth : (made.reflectedOn reflection).runs = returnedRuns made.outcome ++
              (E.reflect N reflectionWfId (maxRetries - remaining) current made.lastError).runs :=
            rfl
          have hGoesOn (rest : List (ChildAttempt H)) :
              concludeAttempts maxRetries (maxRetries - (remaining + 1)) lastError
                (made.reflectedOn reflection :: rest) =
              concludeAttempts maxRetries (maxRetries - remaining) made.lastError rest := by
            rw [concludeAttempts, hNumber]
            exact if_pos hFailed
          rw [if_pos ⟨hFailed, hMore⟩, ih (by omega), hGoesOn, List.flatMap_cons, hBoth]
          simp only [List.append_assoc]
          rfl
      · rename_i hFine
        rw [if_neg (fun h => hFine h.1), concludeAttempts, if_neg hFine, hNumber,
          List.flatMap_singleton, hRuns]

end Traces

section Counts

variable {E : ParallelWorkflowEngine H} {N : Nesting H} {childWfId reflectionWfId : Uuid}
  {maxRetries : Nat}

/-- The child is run until it succeeds or no attempt remains, and reflected on in between. -/
structure Paced (limit : Nat) (attempts : List (ChildAttempt H)) : Prop where
  length_le : attempts.length ≤ limit
  failed : ∀ (j : Nat) (a : ChildAttempt H), attempts[j]? = some a → j + 1 < attempts.length →
    a.failed = true
  stops : attempts.length = limit ∨ ∃ a ∈ attempts.getLast?, a.failed = false
  reflected : ∀ (j : Nat) (a : ChildAttempt H), attempts[j]? = some a →
    (a.reflection.isSome = true ↔ j + 1 < attempts.length)

theorem paced_singleton {limit : Nat} {a : ChildAttempt H} (hNone : a.reflection = none)
    (hStops : limit = 0 ∨ a.failed = false) : Paced (limit + 1) [a] where
  length_le := by simp
  failed j b _ hMore := by simp at hMore
  stops := by
    obtain rfl | hFine := hStops
    · exact .inl rfl
    · exact .inr ⟨a, rfl, hFine⟩
  reflected j b h := by
    obtain ⟨hLt, rfl⟩ := List.getElem?_eq_some_iff.1 h
    simp only [List.getElem_singleton, hNone, List.length_singleton] at hLt ⊢
    simp

theorem Paced.cons {limit : Nat} {a : ChildAttempt H} {rest : List (ChildAttempt H)}
    (h : Paced limit rest) (hRest : rest ≠ []) (hFailed : a.failed = true)
    (hSome : a.reflection.isSome = true) :
    Paced (limit + 1) (a :: rest) where
  length_le := Nat.succ_le_succ h.length_le
  failed j b hAt hMore := by
    cases j with
    | zero =>
        cases hAt
        exact hFailed
    | succ j => exact h.failed j b hAt (Nat.lt_of_succ_lt_succ hMore)
  stops := by
    obtain hFull | ⟨b, hLast, hFine⟩ := h.stops
    · exact .inl (congrArg (· + 1) hFull)
    · refine .inr ⟨b, ?_, hFine⟩
      rw [List.getLast?_cons_of_ne_nil hRest]
      exact hLast
  reflected j b hAt := by
    cases j with
    | zero =>
        cases hAt
        refine iff_of_true hSome ?_
        have hPos := List.length_pos_iff.2 hRest
        rw [List.length_cons]
        omega
    | succ j =>
        rw [h.reflected j b hAt, List.length_cons]
        omega

theorem reflectiveTrace_ne_nil {remaining : Nat} (h : remaining ≠ 0) (current : Json) :
    E.reflectiveTrace N childWfId reflectionWfId maxRetries remaining current ≠ [] := by
  cases remaining with
  | zero => exact absurd rfl h
  | succ remaining =>
      rw [reflectiveTrace_succ]
      split <;> exact List.cons_ne_nil _ _

theorem paced_reflectiveTrace (remaining : Nat) (current : Json) :
    Paced remaining
      (E.reflectiveTrace N childWfId reflectionWfId maxRetries remaining current) := by
  induction remaining generalizing current with
  | zero =>
      rw [reflectiveTrace]
      exact ⟨Nat.le_refl _, fun j a h => absurd h (by simp), .inl rfl,
        fun j a h => absurd h (by simp)⟩
  | succ remaining ih =>
      rw [reflectiveTrace_succ]
      split
      · rename_i hGoesOn
        exact (ih _).cons (reflectiveTrace_ne_nil hGoesOn.2 _) hGoesOn.1 rfl
      · rename_i hStops
        rw [not_and_or, not_not, Bool.not_eq_true] at hStops
        exact paced_singleton rfl hStops.symm

end Counts

end ParallelWorkflowEngine

section Extensions

/-- The input is the initial one with the added fields, of which later ones win. A value that is no
object is the input as long as nothing is added, and then has a field of its own. -/
def Extends (initial : Json) (added : List (String × Json)) (input : Json) : Prop :=
  match initial with
  | .object fields => ∃ found, input = .object found ∧ ∀ key, found.lookup key =
      if isReserved key then none else (added.reverse.lookup key).or (fields.lookup key)
  | value => (added = [] → input = value) ∧ (added ≠ [] → ∃ found key, input = .object found ∧
      added.lookup key = none ∧ found.lookup key = some value ∧
        ∀ other, other ≠ key → found.lookup other = added.reverse.lookup other)

/-- Every attempt has the initial input with the feedback on the attempts before it. -/
def Fed (initial : Json) (attempts : List (ChildAttempt H)) : Prop :=
  ∀ (j : Nat) (a : ChildAttempt H), attempts[j]? = some a →
    Extends initial ((attempts.take j).flatMap ChildAttempt.feedback) a.input

theorem lookup_insertFields (fields added : List (String × Json)) (key : String) :
    (insertFields fields added).lookup key = (added.reverse.lookup key).or (fields.lookup key) := by
  induction added generalizing fields with
  | nil => rfl
  | cons field rest ih =>
      have hRest : insertFields fields (field :: rest) =
          insertFields (Json.insertField field.1 field.2 fields) rest := rfl
      rw [hRest, ih, List.reverse_cons, List.lookup_append, Option.or_assoc]
      congr 1
      by_cases hKey : key = field.1
      · rw [hKey, Json.lookup_insertField_self, List.lookup_cons_self, Option.some_or]
      · rw [Json.lookup_insertField_ne hKey, List.lookup_cons, beq_false_of_ne hKey]
        rfl

theorem lookup_filter_unreserved {key : String} (h : isReserved key = false)
    (fields : List (String × Json)) :
    (fields.filter fun field => !isReserved field.1).lookup key = fields.lookup key := by
  induction fields with
  | nil => rfl
  | cons field rest ih =>
      obtain ⟨k, v⟩ := field
      rw [List.filter_cons, List.lookup_cons]
      by_cases hKey : key = k
      · subst hKey
        rw [h, Bool.not_false, if_pos rfl, List.lookup_cons]
        simp
      · rw [beq_false_of_ne hKey]
        split
        · rw [List.lookup_cons, beq_false_of_ne hKey]
          exact ih
        · exact ih

/-- The fields of an initial object, under the added ones. -/
def Carries (fields added : List (String × Json)) (current : Json) : Prop :=
  ∃ found, current = .object found ∧ ∀ key, isReserved key = false →
    found.lookup key = (added.reverse.lookup key).or (fields.lookup key)

variable {fields added : List (String × Json)} {current : Json}

theorem carries_initial (fields : List (String × Json)) : Carries fields [] (.object fields) :=
  ⟨fields, rfl, fun _ _ => rfl⟩

theorem Carries.extends (h : Carries fields added current) :
    Extends (.object fields) added (stripReserved current) := by
  obtain ⟨found, rfl, hFound⟩ := h
  refine ⟨_, rfl, fun key => ?_⟩
  split
  · rename_i hReserved
    exact lookup_filter_reserved hReserved found
  · rename_i hKey
    rw [Bool.not_eq_true] at hKey
    rw [lookup_filter_unreserved hKey, hFound key hKey]

theorem Carries.insert (h : Carries fields added current) (more : List (String × Json)) :
    Carries fields (added ++ more) (.object (insertFields (objectFields current) more)) := by
  obtain ⟨found, rfl, hFound⟩ := h
  refine ⟨_, rfl, fun key hKey => ?_⟩
  rw [lookup_insertFields, List.reverse_append, List.lookup_append, Option.or_assoc,
    ← hFound key hKey]
  rfl

theorem extends_value_iff {initial : Json} (h : initial.asObject = none)
    (added : List (String × Json)) (input : Json) : Extends initial added input ↔
      (added = [] → input = initial) ∧ (added ≠ [] → ∃ found key, input = .object found ∧
        added.lookup key = none ∧ found.lookup key = some initial ∧
          ∀ other, other ≠ key → found.lookup other = added.reverse.lookup other) := by
  cases initial with
  | object fields => cases h
  | null | bool | number | string | array => exact Iff.rfl

theorem stripReserved_value {initial : Json} (h : initial.asObject = none) :
    stripReserved initial = initial := by
  cases initial with
  | object fields => cases h
  | null | bool | number | string | array => rfl

theorem objectFields_value {initial : Json} (h : initial.asObject = none) :
    objectFields initial = [] := by
  rw [objectFields, h, Option.getD_none]

theorem not_extends_value {initial : Json} (h : initial.asObject = none)
    (added : List (String × Json)) :
    ¬ Extends initial added (stripReserved (.object (insertFields [] added))) := by
  rw [extends_value_iff h]
  rintro ⟨hNone, hSome⟩
  by_cases hEmpty : added = []
  · rw [← hNone hEmpty] at h
    cases h
  · obtain ⟨found, key, hInput, hFresh, hKept, -⟩ := hSome hEmpty
    cases hInput
    have hKey : isReserved key = false := by
      rw [← Bool.not_eq_true]
      intro hReserved
      rw [lookup_filter_reserved hReserved] at hKept
      cases hKept
    rw [lookup_filter_unreserved hKey, lookup_insertFields] at hKept
    have hLast : added.reverse.lookup key = none := by
      rw [List.lookup_eq_none_iff] at hFresh ⊢
      exact fun field hField => hFresh field (List.mem_reverse.1 hField)
    rw [hLast] at hKept
    cases hKept

end Extensions

namespace ParallelWorkflowEngine

section Inputs

variable (E : ParallelWorkflowEngine H) (N : Nesting H) (childWfId reflectionWfId : Uuid)
  (maxRetries : Nat) (initial : Json)

/-- The reflections behind attempts that fail on the initial input fail, too. -/
def KeptFrom (before : Nat) : Prop :=
  ∀ attempt, before < attempt → attempt < maxRetries →
    (∀ j, before < j → j ≤ attempt → (E.attemptAt N childWfId j initial).failed = true) →
    ∃ e, E.reflectionAt N reflectionWfId attempt initial
      (E.attemptAt N childWfId attempt initial).lastError = .error e

/-- The initial input is an object, or no reflection returns before the last attempt on it. -/
def KeepsInput : Prop :=
  (∃ fields, initial = .object fields) ∨
    E.KeptFrom N childWfId reflectionWfId maxRetries initial 0

variable {E N childWfId reflectionWfId maxRetries initial}

theorem keptFrom_iff {before : Nat} :
    E.KeptFrom N childWfId reflectionWfId maxRetries initial before ↔
      ((E.attemptAt N childWfId (before + 1) initial).failed = true → before + 1 < maxRetries →
        (∃ e, E.reflectionAt N reflectionWfId (before + 1) initial
          (E.attemptAt N childWfId (before + 1) initial).lastError = .error e) ∧
        E.KeptFrom N childWfId reflectionWfId maxRetries initial (before + 1)) := by
  constructor
  · intro h hFailed hMore
    constructor
    · refine h (before + 1) (Nat.lt_succ_self _) hMore fun j hAfter hUpTo => ?_
      obtain rfl : j = before + 1 := by omega
      exact hFailed
    · intro attempt hAfter hBelow hAll
      refine h attempt (by omega) hBelow fun j hFirst hUpTo => ?_
      obtain rfl | hNext : j = before + 1 ∨ before + 1 < j := by omega
      · exact hFailed
      · exact hAll j hNext hUpTo
  · intro h attempt hAfter hBelow hAll
    obtain ⟨hReflection, hKept⟩ := h (hAll (before + 1) (Nat.lt_succ_self _) hAfter) (by omega)
    obtain rfl | hNext : attempt = before + 1 ∨ before + 1 < attempt := by omega
    · exact hReflection
    · exact hKept attempt hNext hBelow fun j hFirst hUpTo => hAll j (by omega) hUpTo

theorem feedback_error {a : ChildAttempt H} {e : SubflowError} :
    (a.reflectedOn (.error e)).feedback = [] := rfl

theorem feedback_ok {a : ChildAttempt H} {run : NestedRun H} :
    (a.reflectedOn (.ok run)).feedback = objectFields (stripReserved run.collapsed) := rfl

theorem fed_singleton {a : ChildAttempt H} (h : Extends initial [] a.input) : Fed initial [a] := by
  intro j b hAt
  obtain ⟨hLt, rfl⟩ := List.getElem?_eq_some_iff.1 hAt
  obtain rfl : j = 0 := by simpa using hLt
  exact h

theorem extends_reflectiveTrace {fields : List (String × Json)} (remaining : Nat)
    {added : List (String × Json)} {current : Json} (hCarries : Carries fields added current)
    {j : Nat} {a : ChildAttempt H}
    (hAt : (E.reflectiveTrace N childWfId reflectionWfId maxRetries remaining current)[j]? =
      some a) :
    Extends (.object fields) (added ++ ((E.reflectiveTrace N childWfId reflectionWfId maxRetries
      remaining current).take j).flatMap ChildAttempt.feedback) a.input := by
  induction remaining generalizing added current j with
  | zero => exact absurd hAt (by simp [reflectiveTrace])
  | succ remaining ih =>
      rw [reflectiveTrace_succ] at hAt ⊢
      split at hAt
      · rename_i hGoesOn
        rw [if_pos hGoesOn]
        cases j with
        | zero =>
            cases hAt
            rw [List.take_zero, List.flatMap_nil, List.append_nil]
            exact hCarries.extends
        | succ j =>
            rw [List.getElem?_cons_succ] at hAt
            rw [List.take_succ_cons, List.flatMap_cons, ← List.append_assoc]
            refine ih ?_ hAt
            cases hReflection : E.reflectionAt N reflectionWfId (maxRetries - remaining) current
                (E.attemptAt N childWfId (maxRetries - remaining) current).lastError with
            | error e =>
                rw [reflect_error hReflection, feedback_error, List.append_nil]
                exact hCarries
            | ok run =>
                rw [reflect_ok hReflection, feedback_ok]
                exact hCarries.insert _
      · obtain ⟨hLt, rfl⟩ := List.getElem?_eq_some_iff.1 hAt
        obtain rfl : j = 0 := by simpa using hLt
        rw [List.take_zero, List.flatMap_nil, List.append_nil]
        exact hCarries.extends

theorem fed_of_object {fields : List (String × Json)} (remaining : Nat) :
    Fed (.object fields) (E.reflectiveTrace N childWfId reflectionWfId maxRetries remaining
      (.object fields)) :=
  fun _ _ hAt => extends_reflectiveTrace remaining (carries_initial fields) hAt

theorem input_reflectiveTrace_head (remaining : Nat) (current : Json) :
    ∃ a rest, E.reflectiveTrace N childWfId reflectionWfId maxRetries (remaining + 1) current =
      a :: rest ∧ a.input = stripReserved current := by
  rw [reflectiveTrace_succ]
  split
  · exact ⟨_, _, rfl, rfl⟩
  · exact ⟨_, _, rfl, rfl⟩

/-- Feedback of nothing leaves the rest of the attempts on the initial input. -/
theorem fed_cons_iff {a : ChildAttempt H} {rest : List (ChildAttempt H)}
    (hFirst : Extends initial [] a.input) (hNothing : a.feedback = []) :
    Fed initial (a :: rest) ↔ Fed initial rest := by
  constructor
  · intro h j b hAt
    have hLater := h (j + 1) b hAt
    rwa [List.take_succ_cons, List.flatMap_cons, hNothing, List.nil_append] at hLater
  · intro h j b hAt
    cases j with
    | zero =>
        cases hAt
        exact hFirst
    | succ j =>
        rw [List.take_succ_cons, List.flatMap_cons, hNothing, List.nil_append]
        exact h j b hAt

/-- A value that is no object survives just when no reflection returns. -/
theorem fed_iff_of_value (hValue : initial.asObject = none) {remaining : Nat}
    (hRemaining : remaining ≤ maxRetries) :
    Fed initial (E.reflectiveTrace N childWfId reflectionWfId maxRetries remaining initial) ↔
      E.KeptFrom N childWfId reflectionWfId maxRetries initial (maxRetries - remaining) := by
  have hFirst : Extends initial [] (stripReserved initial) := by
    rw [extends_value_iff hValue, stripReserved_value hValue]
    exact ⟨fun _ => rfl, fun h => absurd rfl h⟩
  induction remaining with
  | zero =>
      rw [reflectiveTrace]
      refine iff_of_true (fun j a hAt => absurd hAt (by simp)) fun attempt hAfter hBelow => ?_
      omega
  | succ remaining ih =>
      have hNumber : maxRetries - (remaining + 1) + 1 = maxRetries - remaining := by omega
      rw [keptFrom_iff, hNumber, reflectiveTrace_succ]
      split
      · rename_i hGoesOn
        obtain ⟨hFailed, hMore⟩ := hGoesOn
        have hBelow : maxRetries - remaining < maxRetries := by omega
        simp only [hFailed, hBelow, forall_const]
        cases hReflection : E.reflectionAt N reflectionWfId (maxRetries - remaining) initial
            (E.attemptAt N childWfId (maxRetries - remaining) initial).lastError with
        | error e =>
            rw [reflect_error hReflection]
            refine (fed_cons_iff hFirst feedback_error).trans ((ih (by omega)).trans ?_)
            simp
        | ok run =>
            refine iff_of_false ?_ (by simp)
            intro hFed
            rw [reflect_ok hReflection, objectFields_value hValue] at hFed
            obtain ⟨left, rfl⟩ : ∃ left, remaining = left + 1 := ⟨remaining - 1, by omega⟩
            obtain ⟨a, rest, hRest, hInput⟩ := input_reflectiveTrace_head (E := E) (N := N) left
              (.object (insertFields [] (objectFields (stripReserved run.collapsed))))
            rw [hRest] at hFed
            have hSecond := hFed 1 a rfl
            rw [hInput, List.take_succ_cons, List.take_zero, List.flatMap_singleton,
              feedback_ok] at hSecond
            exact not_extends_value hValue _ hSecond
      · rename_i hStops
        refine iff_of_true (fed_singleton hFirst) fun hFailed hBelow => ?_
        exact absurd ⟨hFailed, by omega⟩ hStops

theorem fed_iff : Fed initial
      (E.reflectiveTrace N childWfId reflectionWfId maxRetries maxRetries initial) ↔
    E.KeepsInput N childWfId reflectionWfId maxRetries initial := by
  have hOfValue (hValue : initial.asObject = none) : Fed initial
        (E.reflectiveTrace N childWfId reflectionWfId maxRetries maxRetries initial) ↔
      E.KeptFrom N childWfId reflectionWfId maxRetries initial 0 := by
    rw [← Nat.sub_self maxRetries]
    exact fed_iff_of_value hValue (Nat.le_refl maxRetries)
  rw [KeepsInput]
  cases initial with
  | object fields => exact iff_of_true (fed_of_object maxRetries) (.inl ⟨fields, rfl⟩)
  | null | bool | number | string | array =>
      rw [hOfValue rfl]
      simp

/-- The child and the reflection take turns until one attempt succeeds or all are made, and the
input is not lost just when it is an object or no reflection returns in between. -/
theorem reflective_retry_keeps_input_iff (E : ParallelWorkflowEngine H) (N : Nesting H)
    (initialInput : Json) (childWfId reflectionWfId : Uuid) (maxRetries : UInt32) :
    ∃ attempts, attempts = E.reflectiveTrace N childWfId reflectionWfId maxRetries.toNat
        maxRetries.toNat initialInput ∧
      E.dispatchReflectiveRetry N initialInput childWfId reflectionWfId maxRetries =
        ⟨concludeAttempts maxRetries.toNat 0 "" attempts, attempts.flatMap ChildAttempt.runs⟩ ∧
      (Paced maxRetries.toNat attempts ∧ Fed initialInput attempts ↔
        E.KeepsInput N childWfId reflectionWfId maxRetries.toNat initialInput) := by
  refine ⟨_, rfl, ?_, ?_⟩
  · rw [dispatchReflectiveRetry, reflectiveAttempts_eq (Nat.le_refl _), Nat.sub_self,
      List.nil_append]
  · rw [← fed_iff]
    exact and_iff_right (paced_reflectiveTrace _ _)

end Inputs

end ParallelWorkflowEngine

section Samples

/-- The first attempt fails, and a reflection answers. -/
def reflectingNesting : Nesting (bareHost true) :=
  { answerNesting with
    runGraph := fun call _ _ => if call = 2 then .error (.execution "boom") else .ok answerRun }

/-- The second attempt has the fields of the reflection, and nothing of the text. -/
theorem reflective_retry_loses_input :
    (gatedEngine.reflectiveTrace reflectingNesting 4 5 2 2 (.string "draft")).map
        ChildAttempt.input = [.string "draft", answerOutput] ∧
      ¬ Fed (.string "draft")
        (gatedEngine.reflectiveTrace reflectingNesting 4 5 2 2 (.string "draft")) := by
  have hInputs : (gatedEngine.reflectiveTrace reflectingNesting 4 5 2 2 (.string "draft")).map
      ChildAttempt.input = [.string "draft", answerOutput] := by
    decide
  refine ⟨hInputs, ?_⟩
  rw [ParallelWorkflowEngine.fed_iff]
  rintro (⟨fields, hIs⟩ | hKept)
  · cases hIs
  · obtain ⟨e, hReflection⟩ := hKept 1 (by decide) (by decide) fun j hFirst hUpTo => by
      obtain rfl : j = 1 := by omega
      decide
    have hReturns : (gatedEngine.reflectionAt reflectingNesting 5 1 (.string "draft")
        (gatedEngine.attemptAt reflectingNesting 4 1 (.string "draft")).lastError).toOption.isSome =
          true := by
      decide
    rw [hReflection] at hReturns
    cases hReturns

end Samples

end TalosWorkflow
