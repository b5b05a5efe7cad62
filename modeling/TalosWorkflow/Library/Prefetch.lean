import Mathlib.Data.List.AList
import Mathlib.Data.List.Count
import Mathlib.Data.List.Perm.Basic
import TalosWorkflow.Library.Transition

/-!
# A cache that is filled ahead

Background tasks fetch values for keys that may be asked for. A task looks
whether its key is cached, fetches, and stores what it has fetched; between
these the other tasks and the takers take their turns. A cached value is taken
once. Clearing the cache does not stop the tasks.
-/

namespace TalosWorkflow

universe u v w

namespace Prefetch

/-- How far a task has come. -/
inductive Phase (α : Type w) where
  | spawned
  | fetching
  | fetched (value : α)

/-- What is asked for a key. -/
structure Task (κ : Type u) (ρ : Type v) (α : Type w) where
  key : κ
  request : ρ
  phase : Phase α

inductive Move (κ : Type u) (ρ : Type v) (α : Type w) where
  | spawn (wanted : List (κ × ρ))
  | check (position : Nat) (mayFetch : Bool)
  /-- The fetch fails without a value. -/
  | reply (position : Nat) (answer : Option α)
  | store (position : Nat)
  | take (key : κ)
  | clear

end Prefetch

/-- The cache and its tasks, with what the fetches have returned and the cache has given away. -/
structure Prefetch (κ : Type u) (ρ : Type v) (α : Type w) where
  cache : AList fun _ : κ => α
  tasks : List (Prefetch.Task κ ρ α)
  fetched : List (κ × α)
  hits : List (κ × α)

namespace Prefetch

variable {κ : Type u} {ρ : Type v} {α : Type w}

def initial : Prefetch κ ρ α := ⟨∅, [], [], []⟩

variable [DecidableEq κ]

def step (s : Prefetch κ ρ α) : Move κ ρ α → Option (Prefetch κ ρ α)
  | .spawn wanted =>
      some { s with tasks := s.tasks ++ wanted.map fun want => ⟨want.1, want.2, .spawned⟩ }
  | .check position mayFetch =>
      match s.tasks[position]? with
      | some ⟨key, request, .spawned⟩ =>
          if key ∈ s.cache ∨ mayFetch = false then
            some { s with tasks := s.tasks.eraseIdx position }
          else some { s with tasks := s.tasks.set position ⟨key, request, .fetching⟩ }
      | _ => none
  | .reply position answer =>
      match s.tasks[position]?, answer with
      | some ⟨key, request, .fetching⟩, some value =>
          some { s with
            tasks := s.tasks.set position ⟨key, request, .fetched value⟩
            fetched := (key, value) :: s.fetched }
      | some ⟨_, _, .fetching⟩, none => some { s with tasks := s.tasks.eraseIdx position }
      | _, _ => none
  | .store position =>
      match s.tasks[position]? with
      | some ⟨key, _, .fetched value⟩ =>
          -- a value that is cached by now is not overwritten
          some { s with
            tasks := s.tasks.eraseIdx position
            cache := if key ∈ s.cache then s.cache else s.cache.insert key value }
      | _ => none
  | .take key =>
      match s.cache.lookup key with
      | some value => some { s with cache := s.cache.erase key, hits := (key, value) :: s.hits }
      | none => some s
  | .clear => some { s with cache := ∅ }

section Inversion

variable {s t : Prefetch κ ρ α} {move : Move κ ρ α}

inductive Stepped (s : Prefetch κ ρ α) : Move κ ρ α → Prefetch κ ρ α → Prop
  | spawned (wanted : List (κ × ρ)) :
      Stepped s (.spawn wanted)
        { s with tasks := s.tasks ++ wanted.map fun want => ⟨want.1, want.2, .spawned⟩ }
  | dropped (move : Move κ ρ α) (position : Nat) (task : Task κ ρ α)
      (hTask : s.tasks[position]? = some task) :
      Stepped s move { s with tasks := s.tasks.eraseIdx position }
  | started (position : Nat) (mayFetch : Bool) (key : κ) (request : ρ)
      (hTask : s.tasks[position]? = some ⟨key, request, .spawned⟩) (hAbsent : key ∉ s.cache) :
      Stepped s (.check position mayFetch)
        { s with tasks := s.tasks.set position ⟨key, request, .fetching⟩ }
  | replied (position : Nat) (key : κ) (request : ρ) (value : α)
      (hTask : s.tasks[position]? = some ⟨key, request, .fetching⟩) :
      Stepped s (.reply position (some value))
        { s with
          tasks := s.tasks.set position ⟨key, request, .fetched value⟩
          fetched := (key, value) :: s.fetched }
  | stored (position : Nat) (key : κ) (request : ρ) (value : α)
      (hTask : s.tasks[position]? = some ⟨key, request, .fetched value⟩) :
      Stepped s (.store position)
        { s with
          tasks := s.tasks.eraseIdx position
          cache := if key ∈ s.cache then s.cache else s.cache.insert key value }
  | taken (key : κ) (value : α) (hCached : s.cache.lookup key = some value) :
      Stepped s (.take key)
        { s with cache := s.cache.erase key, hits := (key, value) :: s.hits }
  | missed (key : κ) (hAbsent : s.cache.lookup key = none) : Stepped s (.take key) s
  | cleared : Stepped s .clear { s with cache := ∅ }

theorem step_cases (hStep : s.step move = some t) : Stepped s move t := by
  cases move with
  | spawn wanted =>
      cases hStep
      exact .spawned wanted
  | check position mayFetch =>
      simp only [Prefetch.step] at hStep
      split at hStep
      · rename_i key request hTask
        split at hStep
        · cases hStep
          exact .dropped _ position _ hTask
        · rename_i hMay
          cases hStep
          exact .started position mayFetch key request hTask fun hIn => hMay (.inl hIn)
      · cases hStep
  | reply position answer =>
      simp only [Prefetch.step] at hStep
      split at hStep
      · rename_i key request value hTask
        cases hStep
        exact .replied position key request value hTask
      · rename_i key request hTask
        cases hStep
        exact .dropped _ position _ hTask
      · cases hStep
  | store position =>
      simp only [Prefetch.step] at hStep
      split at hStep
      · rename_i key request value hTask
        cases hStep
        exact .stored position key request value hTask
      · cases hStep
  | take key =>
      simp only [Prefetch.step] at hStep
      split at hStep
      · rename_i value hCached
        cases hStep
        exact .taken key value hCached
      · rename_i hAbsent
        cases hStep
        exact .missed key hAbsent
  | clear =>
      cases hStep
      exact .cleared

end Inversion

section Provenance

variable {asks asks' : κ → ρ → Prop} {answers : ρ → α → Prop} {s t : Prefetch κ ρ α}
variable {move : Move κ ρ α}

/-- Keys are asked for as they may be, and answered as they are asked for. -/
def Honest (asks : κ → ρ → Prop) (answers : ρ → α → Prop) (s : Prefetch κ ρ α) :
    Move κ ρ α → Prop
  | .spawn wanted => ∀ want ∈ wanted, asks want.1 want.2
  | .reply position answer =>
      ∀ task ∈ s.tasks[position]?, ∀ value ∈ answer, answers task.request value
  | _ => True

/-- The value is an answer to what is asked for the key. -/
def Answers (asks : κ → ρ → Prop) (answers : ρ → α → Prop) (key : κ) (value : α) : Prop :=
  ∃ request, asks key request ∧ answers request value

/-- Whatever is on its way, cached or taken answers what was asked for its key. -/
structure Sound (asks : κ → ρ → Prop) (answers : ρ → α → Prop) (s : Prefetch κ ρ α) : Prop where
  asked : ∀ task ∈ s.tasks, asks task.key task.request
  answered : ∀ task ∈ s.tasks, ∀ value, task.phase = .fetched value → answers task.request value
  cached : ∀ key value, s.cache.lookup key = some value → Answers asks answers key value
  taken : ∀ hit ∈ s.hits, Answers asks answers hit.1 hit.2

theorem Sound.initial : Sound asks answers (initial : Prefetch κ ρ α) := by
  refine ⟨fun _ h => ?_, fun _ h => ?_, fun _ _ h => ?_, fun _ h => ?_⟩
  · cases h
  · cases h
  · cases h
  · cases h

/-- What was asked for a key in time stays so when more may be asked for it. -/
theorem Sound.mono (hMore : ∀ key request, asks key request → asks' key request)
    (h : Sound asks answers s) : Sound asks' answers s where
  asked task hTask := hMore _ _ (h.asked task hTask)
  answered := h.answered
  cached key value hCached := by
    obtain ⟨request, hAsks, hAnswers⟩ := h.cached key value hCached
    exact ⟨request, hMore _ _ hAsks, hAnswers⟩
  taken hit hHit := by
    obtain ⟨request, hAsks, hAnswers⟩ := h.taken hit hHit
    exact ⟨request, hMore _ _ hAsks, hAnswers⟩

omit [DecidableEq κ] in
theorem Sound.of_tasks [DecidableEq κ] (h : Sound asks answers s) {tasks : List (Task κ ρ α)}
    {fetched : List (κ × α)} (hTasks : ∀ task ∈ tasks, task ∈ s.tasks ∨
      asks task.key task.request ∧ ∀ value, task.phase = .fetched value →
        answers task.request value) :
    Sound asks answers { s with tasks := tasks, fetched := fetched } where
  asked task hTask := by
    obtain hOld | ⟨hAsks, -⟩ := hTasks task hTask
    · exact h.asked task hOld
    · exact hAsks
  answered task hTask := by
    obtain hOld | ⟨-, hAnswers⟩ := hTasks task hTask
    · exact h.answered task hOld
    · exact hAnswers
  cached := h.cached
  taken := h.taken

/-- A value that is stored answers for its key. -/
theorem answers_stored {cache : AList fun _ : κ => α} {key other : κ} {value found : α}
    (hCached : ∀ key value, cache.lookup key = some value → Answers asks answers key value)
    (hNew : Answers asks answers key value)
    (hFound : (if key ∈ cache then cache else cache.insert key value).lookup other = some found) :
    Answers asks answers other found := by
  split at hFound
  · exact hCached other found hFound
  · obtain rfl | hne := eq_or_ne other key
    · rw [AList.lookup_insert] at hFound
      cases hFound
      exact hNew
    · rw [AList.lookup_insert_ne hne] at hFound
      exact hCached other found hFound

theorem Sound.step (h : Sound asks answers s) (hHonest : Honest asks answers s move)
    (hStep : s.step move = some t) : Sound asks answers t := by
  cases step_cases hStep with
  | spawned wanted =>
      refine h.of_tasks fun task hTask => ?_
      obtain hOld | hNew := List.mem_append.1 hTask
      · exact .inl hOld
      · obtain ⟨want, hWant, rfl⟩ := List.mem_map.1 hNew
        exact .inr ⟨hHonest want hWant, fun value hIs => by cases hIs⟩
  | dropped _ position _ _ => exact h.of_tasks fun task hIn => .inl (List.mem_of_mem_eraseIdx hIn)
  | started position mayFetch key request hTask hAbsent =>
      refine h.of_tasks fun task hIn => ?_
      obtain hOld | rfl := List.mem_or_eq_of_mem_set hIn
      · exact .inl hOld
      · have hAsks := h.asked _ (List.mem_of_getElem? hTask)
        exact .inr ⟨hAsks, fun value hIs => by cases hIs⟩
  | replied position key request value hTask =>
      refine h.of_tasks fun task hIn => ?_
      obtain hOld | rfl := List.mem_or_eq_of_mem_set hIn
      · exact .inl hOld
      · have hAsks := h.asked _ (List.mem_of_getElem? hTask)
        refine .inr ⟨hAsks, fun other hIs => ?_⟩
        cases hIs
        exact hHonest _ hTask value rfl
  | stored position key request value hTask =>
      have hIn := List.mem_of_getElem? hTask
      have hNew : Answers asks answers key value :=
        ⟨request, h.asked _ hIn, h.answered _ hIn value rfl⟩
      constructor
      · exact fun task hOther => h.asked task (List.mem_of_mem_eraseIdx hOther)
      · exact fun task hOther => h.answered task (List.mem_of_mem_eraseIdx hOther)
      · exact fun other found hFound => answers_stored h.cached hNew hFound
      · exact h.taken
  | taken key value hCached =>
      constructor
      · exact h.asked
      · exact h.answered
      · intro other found hFound
        obtain rfl | hne := eq_or_ne other key
        · rw [AList.lookup_erase] at hFound
          cases hFound
        · rw [AList.lookup_erase_ne hne] at hFound
          exact h.cached other found hFound
      · intro hit hHit
        obtain rfl | hOld := List.mem_cons.1 hHit
        · exact h.cached key value hCached
        · exact h.taken hit hOld
  | missed => exact h
  | cleared =>
      refine ⟨h.asked, h.answered, fun key value hCached => ?_, h.taken⟩
      cases hCached

end Provenance

section Accounts

variable {s t : Prefetch κ ρ α} {move : Move κ ρ α} {key : κ}

/-- The tasks that are about to store a value for the key. -/
def landing (key : κ) (task : Task κ ρ α) : Bool :=
  match task.phase with
  | .fetched _ => task.key = key
  | _ => false

/-- The values for the key that have been taken, are cached, or are about to be stored. -/
def spent (key : κ) (s : Prefetch κ ρ α) : Nat :=
  s.hits.countP (·.1 = key) + (if key ∈ s.cache then 1 else 0) + s.tasks.countP (landing key)

def returned (key : κ) (s : Prefetch κ ρ α) : Nat := s.fetched.countP (·.1 = key)

omit [DecidableEq κ] in
theorem countP_set_eq (p : Task κ ρ α → Bool) {tasks : List (Task κ ρ α)} {position : Nat}
    {task : Task κ ρ α} (other : Task κ ρ α) (hTask : tasks[position]? = some task)
    (hNot : p task = false) :
    (tasks.set position other).countP p = tasks.countP p + if p other then 1 else 0 := by
  obtain ⟨hLt, rfl⟩ := List.getElem?_eq_some_iff.1 hTask
  rw [List.countP_set hLt, hNot]
  rfl

omit [DecidableEq κ] in
theorem countP_eraseIdx_eq (p : Task κ ρ α → Bool) {tasks : List (Task κ ρ α)} {position : Nat}
    {task : Task κ ρ α} (hTask : tasks[position]? = some task) :
    (tasks.eraseIdx position).countP p + (if p task then 1 else 0) = tasks.countP p := by
  obtain ⟨hLt, rfl⟩ := List.getElem?_eq_some_iff.1 hTask
  have hPerm := (List.getElem_cons_eraseIdx_perm hLt).countP_eq p
  rwa [List.countP_cons] at hPerm

theorem spent_stored {other : κ} {value : α} {tasks : List (Task κ ρ α)}
    (hTasks : tasks.countP (landing key) + (if other = key then 1 else 0) =
      s.tasks.countP (landing key)) :
    spent key { s with
      tasks := tasks
      cache := if other ∈ s.cache then s.cache else s.cache.insert other value } ≤ spent key s := by
  unfold spent
  dsimp only
  split
  · omega
  · rename_i hAbsent
    obtain rfl | hne := eq_or_ne key other
    · rw [if_pos rfl] at hTasks
      rw [if_neg hAbsent, if_pos (AList.mem_insert _ |>.2 (.inl rfl))]
      omega
    · have hSame : key ∈ s.cache.insert other value ↔ key ∈ s.cache := by
        rw [AList.mem_insert]
        exact or_iff_right hne
      simp only [hSame]
      omega

theorem spent_taken {wanted : κ} {value : α} (hCached : s.cache.lookup wanted = some value) :
    spent key { s with cache := s.cache.erase wanted, hits := (wanted, value) :: s.hits } =
      spent key s := by
  have hIn : wanted ∈ s.cache := AList.lookup_isSome.1 (by rw [hCached]; rfl)
  unfold spent
  rw [List.countP_cons]
  obtain rfl | hne := eq_or_ne key wanted
  · rw [if_pos hIn, if_neg (fun hErased => (AList.mem_erase.1 hErased).1 rfl)]
    simp only [decide_true, if_true]
  · have hSame : key ∈ s.cache.erase wanted ↔ key ∈ s.cache := by
      rw [AList.mem_erase]
      exact and_iff_right hne
    simp only [hSame, decide_eq_true_eq, if_neg hne.symm, Nat.add_zero]

/-- Every value that is taken, cached or about to be stored has been fetched for its own sake. -/
theorem spent_step (hStep : s.step move = some t) (h : s.spent key ≤ s.returned key) :
    t.spent key ≤ t.returned key := by
  cases step_cases hStep with
  | spawned wanted =>
      have hNone : (wanted.map fun want => (⟨want.1, want.2, .spawned⟩ : Task κ ρ α)).countP
          (landing key) = 0 := by
        rw [List.countP_map, List.countP_eq_zero]
        exact fun want _ hIs => Bool.false_ne_true hIs
      unfold spent returned at h ⊢
      rw [List.countP_append, hNone]
      exact h
  | dropped _ position _ hTask =>
      have hCount := countP_eraseIdx_eq (landing key) hTask
      unfold spent returned at h ⊢
      dsimp only
      omega
  | started position mayFetch other request hTask hAbsent =>
      have hCount := countP_set_eq (landing key) ⟨other, request, .fetching⟩ hTask rfl
      unfold spent returned at h ⊢
      dsimp only
      rw [hCount]
      exact h
  | replied position other request value hTask =>
      have hCount := countP_set_eq (landing key) ⟨other, request, .fetched value⟩ hTask rfl
      unfold spent returned at h ⊢
      simp only [landing, decide_eq_true_eq] at hCount
      rw [List.countP_cons]
      simp only [decide_eq_true_eq]
      omega
  | stored position other request value hTask =>
      have hCount := countP_eraseIdx_eq (landing key) hTask
      simp only [landing, decide_eq_true_eq] at hCount
      exact Nat.le_trans (spent_stored hCount) h
  | taken wanted value hCached =>
      rw [spent_taken hCached]
      exact h
  | missed => exact h
  | cleared =>
      have hNone : key ∉ (∅ : AList fun _ : κ => α) := AList.notMem_empty key
      unfold spent returned at h ⊢
      dsimp only
      rw [if_neg hNone]
      omega

theorem hits_le_returned (h : s.spent key ≤ s.returned key) :
    s.hits.countP (·.1 = key) ≤ s.returned key := by
  unfold spent at h
  omega

end Accounts

end Prefetch

end TalosWorkflow
