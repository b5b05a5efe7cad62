import Mathlib.Data.List.Count
import Mathlib.Data.List.Perm.Basic
import TalosWorkflow.Library.Transition

/-!
# Journals

The steps of a system write to a journal. Some writes of a step are awaited:
no further step is taken before they are in. The others are left to tasks,
and each task makes its writes in order whenever it is scheduled.
-/

namespace TalosWorkflow

universe u v w

/-- A system and what its steps write. -/
structure Scribe (σ : Type u) (α : Type v) (ε : Type w) where
  step : σ → α → Option σ
  awaited : σ → α → List ε
  detached : σ → α → List (List ε)

structure Journal (σ : Type u) (ε : Type w) where
  state : σ
  awaiting : List ε
  tasks : List (List ε)
  /-- The oldest entry comes first. -/
  entries : List ε

namespace Journal

variable {σ : Type u} {ε : Type w}

def start (s : σ) : Journal σ ε := ⟨s, [], [], []⟩

/-- All that has been issued so far. -/
def issued (j : Journal σ ε) : List ε := j.entries ++ j.awaiting ++ j.tasks.flatten

end Journal

namespace Scribe

variable {σ : Type u} {α : Type v} {ε : Type w}

inductive Move (α : Type v) where
  | act (a : α)
  | settle (position : Nat)
  | resume (position : Nat)

variable (S : Scribe σ α ε)

/-- What the step `a` writes, at once or later. -/
def writes (s : σ) (a : α) : List ε := S.awaited s a ++ (S.detached s a).flatten

def write (j : Journal σ ε) : Move α → Option (Journal σ ε)
  | .act a =>
      if j.awaiting.isEmpty then
        (S.step j.state a).map fun t =>
          { j with
            state := t
            awaiting := S.awaited j.state a
            tasks := j.tasks ++ S.detached j.state a }
      else none
  | .settle position =>
      j.awaiting[position]?.map fun e =>
        { j with awaiting := j.awaiting.eraseIdx position, entries := j.entries ++ [e] }
  | .resume position =>
      match j.tasks[position]? with
      | some (e :: rest) =>
          some { j with tasks := j.tasks.set position rest, entries := j.entries ++ [e] }
      | _ => none

/-- Moves whose steps are allowed. -/
def Admits (allowed : σ → α → Prop) (j : Journal σ ε) : Move α → Prop
  | .act a => allowed j.state a
  | _ => True

instance {allowed : σ → α → Prop} [∀ s a, Decidable (allowed s a)] (j : Journal σ ε)
    (m : Move α) : Decidable (Admits allowed j m) := by
  cases m <;> unfold Admits <;> infer_instance

inductive Written (j : Journal σ ε) : Move α → Journal σ ε → Prop
  | acted (a : α) (t : σ) (hIdle : j.awaiting = []) (hStep : S.step j.state a = some t) :
      Written j (.act a)
        { j with
          state := t
          awaiting := S.awaited j.state a
          tasks := j.tasks ++ S.detached j.state a }
  | settled (position : Nat) (e : ε) (hAt : j.awaiting[position]? = some e) :
      Written j (.settle position)
        { j with awaiting := j.awaiting.eraseIdx position, entries := j.entries ++ [e] }
  | resumed (position : Nat) (e : ε) (rest : List ε) (hAt : j.tasks[position]? = some (e :: rest)) :
      Written j (.resume position)
        { j with tasks := j.tasks.set position rest, entries := j.entries ++ [e] }

variable {S} {j k : Journal σ ε} {m : Move α}

theorem write_cases (h : S.write j m = some k) : Written S j m k := by
  cases m with
  | act a =>
      simp only [write] at h
      split at h
      · rename_i hIdle
        obtain ⟨t, hStep, rfl⟩ := Option.map_eq_some_iff.1 h
        exact .acted a t (List.isEmpty_iff.1 hIdle) hStep
      · cases h
  | settle position =>
      obtain ⟨e, hAt, rfl⟩ := Option.map_eq_some_iff.1 h
      exact .settled position e hAt
  | resume position =>
      simp only [write] at h
      split at h
      · rename_i e rest hAt
        cases h
        exact .resumed position e rest hAt
      · cases h

variable {allowed : σ → α → Prop} {s : σ}

/-- Behind a journal the system runs as it would without one. -/
theorem run_state (hRun : Run S.write (Admits allowed) (.start s) j) :
    Run S.step allowed s j.state := by
  induction hRun with
  | refl => exact .refl
  | tail _ hLast ih =>
      obtain ⟨m, hAdmits, hWrite⟩ := hLast
      cases write_cases hWrite with
      | acted a t hIdle hStep => exact ih.tail ⟨a, hAdmits, hStep⟩
      | settled => exact ih
      | resumed => exact ih

section Counting

theorem perm_cons_eraseIdx_of_getElem? {l : List ε} {position : Nat} {e : ε}
    (h : l[position]? = some e) : l.Perm (e :: l.eraseIdx position) := by
  obtain ⟨hLt, rfl⟩ := List.getElem?_eq_some_iff.1 h
  exact (List.getElem_cons_eraseIdx_perm hLt).symm

theorem flatten_set_perm {tasks : List (List ε)} {position : Nat} {e : ε} {rest : List ε}
    (h : tasks[position]? = some (e :: rest)) :
    tasks.flatten.Perm (e :: (tasks.set position rest).flatten) := by
  induction tasks generalizing position with
  | nil => cases h
  | cons task tasks ih =>
      cases position with
      | zero =>
          cases h
          exact .refl _
      | succ position =>
          rw [List.set_cons_succ, List.flatten_cons, List.flatten_cons]
          exact ((ih h).append_left task).trans List.perm_middle

/-- A write that is committed has been issued before; only steps issue more. -/
theorem Written.issued_perm (h : Written S j m k) :
    ∃ fresh, k.issued.Perm (j.issued ++ fresh) ∧
      ((∃ a, m = .act a ∧ S.step j.state a = some k.state ∧ fresh = S.writes j.state a) ∨
        k.state = j.state ∧ fresh = []) := by
  cases h with
  | acted a t hIdle hStep =>
      refine ⟨S.writes j.state a, ?_, .inl ⟨a, rfl, hStep, rfl⟩⟩
      simp only [Journal.issued, writes, hIdle, List.append_nil, List.flatten_append,
        List.append_assoc]
      refine List.Perm.append_left _ ?_
      rw [← List.append_assoc, ← List.append_assoc]
      exact List.perm_append_comm.append_right _
  | settled position e hAt =>
      refine ⟨[], ?_, .inr ⟨rfl, rfl⟩⟩
      rw [List.append_nil, Journal.issued, Journal.issued, List.append_assoc j.entries [e],
        List.singleton_append]
      exact ((perm_cons_eraseIdx_of_getElem? hAt).symm.append_left _).append_right _
  | resumed position e rest hAt =>
      refine ⟨[], ?_, .inr ⟨rfl, rfl⟩⟩
      simp only [Journal.issued, List.append_nil, List.append_assoc, List.singleton_append]
      refine List.Perm.append_left _ ?_
      exact List.perm_middle.symm.trans ((flatten_set_perm hAt).symm.append_left _)

/-- What the steps account for is what has been issued, committed or not. -/
theorem countP_issued {p : ε → Bool} {w : σ → Nat} (hTotal : w s = 0)
    (hStep : ∀ t, Run S.step allowed s t → ∀ a t', allowed t a → S.step t a = some t' →
      w t' = w t + (S.writes t a).countP p)
    (hRun : Run S.write (Admits allowed) (.start s) j) :
    j.issued.countP p = w j.state := by
  induction hRun with
  | refl => exact hTotal.symm
  | tail hRun hLast ih =>
      obtain ⟨m, hAdmits, hWrite⟩ := hLast
      obtain ⟨fresh, hPerm, ⟨a, rfl, hAct, rfl⟩ | ⟨hSame, rfl⟩⟩ := (write_cases hWrite).issued_perm
      · rw [hPerm.countP_eq, List.countP_append, ih]
        exact (hStep _ (run_state hRun) a _ hAdmits hAct).symm
      · rw [hPerm.countP_eq, List.countP_append, ih, hSame]
        rfl

end Counting

section Order

/-- When an effect is issued, its causes have been awaited and no more of them follow. -/
structure Sequences (S : Scribe σ α ε) (allowed : σ → α → Prop) (s : σ)
    (closed caused : σ → Prop) (cause effect : ε → Prop) : Prop where
  attached : ∀ t a e, e ∈ (S.detached t a).flatten → ¬ cause e
  closes : ∀ t, Run S.step allowed s t → ∀ a t', S.step t a = some t' → allowed t a →
    ∀ e ∈ S.writes t a, effect e → closed t
  stays : ∀ t, Run S.step allowed s t → ∀ a t', S.step t a = some t' → allowed t a →
    closed t → closed t'
  silent : ∀ t, Run S.step allowed s t → ∀ a t', S.step t a = some t' → allowed t a →
    closed t → ∀ e ∈ S.awaited t a, ¬ cause e
  witnessed : ∀ t, Run S.step allowed s t → ∀ a t', S.step t a = some t' → allowed t a →
    caused t' → caused t ∨ ∃ e ∈ S.awaited t a, cause e
  uncaused : ¬ caused s

/-- The state of a journal in which causes come before effects. -/
structure InOrder (closed caused : σ → Prop) (cause effect : ε → Prop) (j : Journal σ ε) :
    Prop where
  attached : ∀ e ∈ j.tasks.flatten, ¬ cause e
  closed : ∀ e ∈ j.issued, effect e → closed j.state
  settled : ∀ e ∈ j.issued, effect e → ∀ e' ∈ j.awaiting, ¬ cause e'
  ordered : ∀ pre e post, j.entries = pre ++ e :: post → effect e → ∀ e' ∈ post, ¬ cause e'
  recorded : caused j.state → ∃ e ∈ j.entries ++ j.awaiting, cause e
  ready : ∀ e ∈ j.awaiting ++ j.tasks.flatten, effect e → caused j.state →
    ∃ e' ∈ j.entries, cause e'
  preceded : ∀ pre e post, j.entries = pre ++ e :: post → effect e → caused j.state →
    ∃ e' ∈ pre, cause e'

variable {closed caused : σ → Prop} {cause effect : ε → Prop}

theorem append_singleton_eq_append_cons {l pre post : List ε} {e e' : ε}
    (h : l ++ [e] = pre ++ e' :: post) :
    (∃ post', post = post' ++ [e] ∧ l = pre ++ e' :: post') ∨ post = [] ∧ e' = e ∧ l = pre := by
  obtain rfl | ⟨post', last, rfl⟩ := List.eq_nil_or_concat post
  · obtain ⟨hPre, hLast⟩ := List.append_inj' h rfl
    cases hLast
    exact .inr ⟨rfl, rfl, hPre⟩
  · rw [List.concat_eq_append, ← List.cons_append, ← List.append_assoc] at h
    obtain ⟨hPre, hLast⟩ := List.append_inj' h rfl
    cases hLast
    exact .inl ⟨post', List.concat_eq_append, hPre⟩

namespace InOrder

/-- Committing a write keeps the order: it is an effect behind its causes, or no late cause. -/
theorem commit (h : InOrder closed caused cause effect j) {e : ε} (hState : k.state = j.state)
    (hEntries : k.entries = j.entries ++ [e]) (hPerm : k.issued.Perm j.issued)
    (hAwaiting : k.awaiting ⊆ j.awaiting) (hTasks : k.tasks.flatten ⊆ j.tasks.flatten)
    (hFrom : e ∈ j.awaiting ∨ e ∈ j.tasks.flatten)
    (hKept : ∀ e' ∈ j.awaiting, e' ∈ k.awaiting ∨ e' = e) :
    InOrder closed caused cause effect k := by
  have hIn : e ∈ j.awaiting ++ j.tasks.flatten := List.mem_append.2 hFrom
  have hLate : (∃ e' ∈ j.issued, effect e') → ¬ cause e := by
    rintro ⟨e', hIssued, hEffect⟩
    obtain hAwaited | hTask := hFrom
    · exact h.settled e' hIssued hEffect e hAwaited
    · exact h.attached e hTask
  have hEntry : ∀ e' ∈ j.entries, e' ∈ j.issued := fun e' he' =>
    List.mem_append_left _ (List.mem_append_left _ he')
  constructor
  · exact fun e' he' => h.attached e' (hTasks he')
  · intro e' he' hEffect
    rw [hState]
    exact h.closed e' (hPerm.mem_iff.1 he') hEffect
  · exact fun e' he' hEffect e'' he'' =>
      h.settled e' (hPerm.mem_iff.1 he') hEffect e'' (hAwaiting he'')
  · intro pre e' post hSplit hEffect e'' he''
    rw [hEntries] at hSplit
    obtain ⟨post', rfl, hOld⟩ | ⟨rfl, -, -⟩ := append_singleton_eq_append_cons hSplit
    · obtain hPost | hLast := List.mem_append.1 he''
      · exact h.ordered pre e' post' hOld hEffect e'' hPost
      · rw [List.mem_singleton.1 hLast]
        refine hLate ⟨e', hEntry e' ?_, hEffect⟩
        rw [hOld]
        exact List.mem_append_right _ List.mem_cons_self
    · cases he''
  · intro hCaused
    obtain ⟨e', he', hCause⟩ := h.recorded (hState ▸ hCaused)
    refine ⟨e', ?_, hCause⟩
    rw [hEntries]
    obtain hOld | hWaits := List.mem_append.1 he'
    · exact List.mem_append_left _ (List.mem_append_left _ hOld)
    · obtain hStill | rfl := hKept e' hWaits
      · exact List.mem_append_right _ hStill
      · exact List.mem_append_left _ (List.mem_append_right _ List.mem_cons_self)
  · intro e' he' hEffect hCaused
    have hOld : e' ∈ j.awaiting ++ j.tasks.flatten := by
      obtain hWaits | hTask := List.mem_append.1 he'
      · exact List.mem_append_left _ (hAwaiting hWaits)
      · exact List.mem_append_right _ (hTasks hTask)
    obtain ⟨e'', he'', hCause⟩ := h.ready e' hOld hEffect (hState ▸ hCaused)
    exact ⟨e'', hEntries ▸ List.mem_append_left _ he'', hCause⟩
  · intro pre e' post hSplit hEffect hCaused
    rw [hEntries] at hSplit
    rw [hState] at hCaused
    obtain ⟨post', rfl, hOld⟩ | ⟨rfl, rfl, rfl⟩ := append_singleton_eq_append_cons hSplit
    · exact h.preceded pre e' post' hOld hEffect hCaused
    · exact h.ready e' hIn hEffect hCaused

theorem act (hSequences : Sequences S allowed s closed caused cause effect)
    (hRun : Run S.step allowed s j.state) (h : InOrder closed caused cause effect j)
    (hIdle : j.awaiting = []) {a : α} {t : σ} (hAllowed : allowed j.state a)
    (hStep : S.step j.state a = some t) :
    InOrder closed caused cause effect
      { j with
        state := t
        awaiting := S.awaited j.state a
        tasks := j.tasks ++ S.detached j.state a } := by
  have hNew : ∀ e, e ∈ Journal.issued
      { j with
        state := t
        awaiting := S.awaited j.state a
        tasks := j.tasks ++ S.detached j.state a } → e ∈ j.issued ∨ e ∈ S.writes j.state a := by
    intro e he
    simp only [Journal.issued, writes, List.flatten_append, List.mem_append] at he ⊢
    obtain (hEntry | hAwaited) | hTask | hDetached := he
    · exact .inl (.inl (.inl hEntry))
    · exact .inr (.inl hAwaited)
    · exact .inl (.inr hTask)
    · exact .inr (.inr hDetached)
  -- whichever step issued an effect, its causes are closed by now
  have hClosed : ∀ e, e ∈ j.issued ∨ e ∈ S.writes j.state a → effect e → closed j.state :=
    fun e he hEffect => he.elim (fun hOld => h.closed e hOld hEffect)
      fun hFresh => hSequences.closes _ hRun a t hStep hAllowed e hFresh hEffect
  have hSilent := hSequences.silent _ hRun a t hStep hAllowed
  have hBefore : closed j.state → caused t → ∃ e ∈ j.entries, cause e := by
    intro hIs hCaused
    obtain hOld | ⟨e, he, hCause⟩ := hSequences.witnessed _ hRun a t hStep hAllowed hCaused
    · obtain ⟨e, he, hCause⟩ := h.recorded hOld
      rw [hIdle, List.append_nil] at he
      exact ⟨e, he, hCause⟩
    · exact absurd hCause (hSilent hIs e he)
  have hEntry : ∀ pre e post, j.entries = pre ++ e :: post → e ∈ j.issued := by
    intro pre e post hSplit
    refine List.mem_append_left _ (List.mem_append_left _ ?_)
    rw [hSplit]
    exact List.mem_append_right _ List.mem_cons_self
  constructor
  · intro e he
    rw [List.flatten_append] at he
    obtain hOld | hFresh := List.mem_append.1 he
    · exact h.attached e hOld
    · exact hSequences.attached _ a e hFresh
  · exact fun e he hEffect =>
      hSequences.stays _ hRun a t hStep hAllowed (hClosed e (hNew e he) hEffect)
  · exact fun e he hEffect => hSilent (hClosed e (hNew e he) hEffect)
  · exact h.ordered
  · intro hCaused
    obtain hOld | ⟨e, he, hCause⟩ := hSequences.witnessed _ hRun a t hStep hAllowed hCaused
    · obtain ⟨e, he, hCause⟩ := h.recorded hOld
      rw [hIdle, List.append_nil] at he
      exact ⟨e, List.mem_append_left _ he, hCause⟩
    · exact ⟨e, List.mem_append_right _ he, hCause⟩
  · intro e he hEffect hCaused
    refine hBefore (hClosed e ?_ hEffect) hCaused
    refine hNew e ?_
    rw [Journal.issued, List.append_assoc]
    exact List.mem_append_right _ he
  · intro pre e post hSplit hEffect hCaused
    have hIs := h.closed e (hEntry pre e post hSplit) hEffect
    obtain hOld | ⟨e', he', hCause⟩ := hSequences.witnessed _ hRun a t hStep hAllowed hCaused
    · exact h.preceded pre e post hSplit hEffect hOld
    · exact absurd hCause (hSilent hIs e' he')

end InOrder

/-- However the tasks are scheduled, an effect is entered behind its causes. -/
theorem Sequences.inOrder (h : Sequences S allowed s closed caused cause effect)
    (hRun : Run S.write (Admits allowed) (.start s) j) :
    InOrder closed caused cause effect j := by
  induction hRun with
  | refl =>
      constructor
      · exact fun e he => absurd he List.not_mem_nil
      · exact fun e he => absurd he List.not_mem_nil
      · exact fun e he => absurd he List.not_mem_nil
      · exact fun pre e post hSplit => absurd hSplit.symm (by simp [Journal.start])
      · exact fun hCaused => absurd hCaused h.uncaused
      · exact fun e he => absurd he List.not_mem_nil
      · exact fun pre e post hSplit => absurd hSplit.symm (by simp [Journal.start])
  | tail hRun hLast ih =>
      obtain ⟨m, hAdmits, hWrite⟩ := hLast
      have hWritten := write_cases hWrite
      obtain ⟨fresh, hPerm, hFresh⟩ := hWritten.issued_perm
      cases hWritten with
      | acted a t hIdle hStep => exact .act h (run_state hRun) ih hIdle hAdmits hStep
      | settled position e hAt =>
          obtain ⟨a, hNot, -⟩ | ⟨-, rfl⟩ := hFresh
          · cases hNot
          rw [List.append_nil] at hPerm
          refine ih.commit rfl rfl hPerm List.eraseIdx_subset (List.Subset.refl _)
            (.inl (List.mem_of_getElem? hAt)) fun e' he' => ?_
          exact (List.mem_cons.1 ((perm_cons_eraseIdx_of_getElem? hAt).mem_iff.1 he')).symm
      | resumed position e rest hAt =>
          obtain ⟨a, hNot, -⟩ | ⟨-, rfl⟩ := hFresh
          · cases hNot
          rw [List.append_nil] at hPerm
          have hFlatten := flatten_set_perm hAt
          refine ih.commit rfl rfl hPerm (List.Subset.refl _) (fun e' he' => ?_)
            (.inr (hFlatten.mem_iff.2 List.mem_cons_self)) fun e' he' => .inl he'
          exact hFlatten.mem_iff.2 (List.mem_cons_of_mem _ he')

end Order

end Scribe

end TalosWorkflow
