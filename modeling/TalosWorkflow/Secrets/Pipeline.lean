import TalosWorkflow.Jobs

/-!
# The secrets pipeline

How the secrets of one job are looked up, merged and sealed. The resolver and
the envelope may answer differently from one call to the next.
-/

namespace TalosWorkflow

section Maps

theorem lookup_foldl_insert {entries : List (Sigma fun _ : String => String)}
    (hKeys : entries.NodupKeys) (secrets : Secrets) (key : String) :
    (entries.foldl (fun table entry => table.insert entry.1 entry.2) secrets).lookup key =
      (entries.dlookup key).or (secrets.lookup key) := by
  induction entries generalizing secrets with
  | nil => rfl
  | cons entry rest ih =>
      obtain ⟨k, value⟩ := entry
      obtain ⟨hFresh, hRest⟩ := List.nodupKeys_cons.1 hKeys
      rw [List.foldl_cons, ih hRest]
      by_cases hKey : key = k
      · subst hKey
        rw [AList.lookup_insert, List.dlookup_cons_eq, List.dlookup_eq_none.2 hFresh]
        rfl
      · rw [AList.lookup_insert_ne hKey, List.dlookup_cons_ne _ _ hKey]

theorem Secrets.lookup_extend (secrets more : Secrets) (key : String) :
    (secrets.extend more).lookup key = (more.lookup key).or (secrets.lookup key) :=
  lookup_foldl_insert more.nodupKeys secrets key

end Maps

section Seals

inductive SealValidationError where
  | mismatchedEmptyNonEmpty (ciphertextEmpty nonceEmpty : Bool)
  | nonceTooShort (actual minimum : Nat)

def validateSealOutput (ciphertext nonce : List UInt8) : Except SealValidationError Unit :=
  match ciphertext.isEmpty, nonce.isEmpty with
  | true, true => .ok ()
  | false, false =>
      if nonce.length < minSealNonceLen then .error (.nonceTooShort nonce.length minSealNonceLen)
      else .ok ()
  | c, n => .error (.mismatchedEmptyNonEmpty c n)

theorem validSealOutput_iff {ciphertext nonce : List UInt8} :
    validSealOutput ciphertext nonce = true ↔ validateSealOutput ciphertext nonce = .ok () := by
  unfold validSealOutput validateSealOutput
  cases ciphertext.isEmpty <;> cases nonce.isEmpty
  · by_cases h : nonce.length < minSealNonceLen
    · simp [h]
    · simp [h, Nat.le_of_not_lt h]
  · simp
  · simp
  · simp

/-- A seal that fails or is malformed leaves nothing to forward. -/
def forwarded : Except String (List UInt8 × List UInt8) → EncryptedSecrets
  | .ok (ciphertext, nonce) =>
      match validateSealOutput ciphertext nonce with
      | .ok () => ⟨ciphertext, nonce⟩
      | .error _ => {}
  | .error _ => {}

def SoundSeal (answer : Except String (List UInt8 × List UInt8)) : Prop :=
  ∃ ciphertext nonce, answer = .ok (ciphertext, nonce) ∧
    validateSealOutput ciphertext nonce = .ok ()

theorem forwarded_sound {ciphertext nonce : List UInt8}
    (h : validateSealOutput ciphertext nonce = .ok ()) :
    forwarded (.ok (ciphertext, nonce)) = ⟨ciphertext, nonce⟩ := by
  rw [forwarded, h]

theorem forwarded_faulty {answer : Except String (List UInt8 × List UInt8)}
    (h : ¬ SoundSeal answer) : forwarded answer = {} := by
  cases answer with
  | error e => rfl
  | ok pair =>
      obtain ⟨ciphertext, nonce⟩ := pair
      rw [forwarded]
      cases hValid : validateSealOutput ciphertext nonce with
      | error e => rfl
      | ok _ => exact absurd ⟨ciphertext, nonce, rfl, hValid⟩ h

theorem forwarded_valid (answer : Except String (List UInt8 × List UInt8)) :
    validateSealOutput (forwarded answer).ciphertext (forwarded answer).nonce = .ok () := by
  by_cases h : SoundSeal answer
  · obtain ⟨ciphertext, nonce, rfl, hValid⟩ := h
    rw [forwarded_sound hValid]
    exact hValid
  · rw [forwarded_faulty h]
    rfl

end Seals

inductive ResolverCall where
  | resolveModuleSecrets (nodeId : Uuid)
  | resolveByPaths (paths : List String) (userId : Option Uuid)
  | resolveLlmKeys (userId : Option Uuid)
  deriving DecidableEq

/-- The resolver and the envelope, with the state that their answers depend on. -/
structure SecretsServices (σ : Type) where
  answer : ResolverCall → σ → Except String Secrets × σ
  refreshVaultPaths : List String → σ → σ
  sealSecrets : Secrets → List UInt8 → σ → Except String (List UInt8 × List UInt8) × σ

/-- What the pipeline asks of the services, with what they answer. -/
inductive SecretsEvent where
  | lookedUp (call : ResolverCall) (answer : Except String Secrets)
  | refreshed (paths : List String)
  | sealed (secrets : Secrets) (workerSharedKey : List UInt8)
      (answer : Except String (List UInt8 × List UInt8))

namespace SecretsEvent

def lookup? : SecretsEvent → Option (ResolverCall × Except String Secrets)
  | .lookedUp call answer => some (call, answer)
  | _ => none

def seal? : SecretsEvent → Option (Secrets × List UInt8 × Except String (List UInt8 × List UInt8))
  | .sealed secrets workerSharedKey answer => some (secrets, workerSharedKey, answer)
  | _ => none

end SecretsEvent

/-- Asked all this in turn, the services give these answers, and come from one state to the
other. -/
inductive SecretsServices.Answers {σ : Type} (S : SecretsServices σ) (s : σ) :
    List SecretsEvent → σ → Prop
  | start : Answers S s [] s
  | lookedUp {events : List SecretsEvent} {t : σ} (h : Answers S s events t) (call : ResolverCall) :
      Answers S s (events ++ [.lookedUp call (S.answer call t).1]) (S.answer call t).2
  | refreshed {events : List SecretsEvent} {t : σ} (h : Answers S s events t)
      (paths : List String) :
      Answers S s (events ++ [.refreshed paths]) (S.refreshVaultPaths paths t)
  | sealed {events : List SecretsEvent} {t : σ} (h : Answers S s events t) (secrets : Secrets)
      (workerSharedKey : List UInt8) :
      Answers S s
        (events ++ [.sealed secrets workerSharedKey (S.sealSecrets secrets workerSharedKey t).1])
        (S.sealSecrets secrets workerSharedKey t).2

/-- What has been asked for a job, and the secrets merged from the answers. -/
structure Preparation (σ : Type) where
  state : σ
  secrets : Secrets
  events : List SecretsEvent

namespace Preparation

variable {σ : Type} (p : Preparation σ)

def lookups : List (ResolverCall × Except String Secrets) := p.events.filterMap SecretsEvent.lookup?

def seals : List (Secrets × List UInt8 × Except String (List UInt8 × List UInt8)) :=
  p.events.filterMap SecretsEvent.seal?

end Preparation

section Run

variable {σ : Type} (S : SecretsServices σ)

def Preparation.start (nodeId : Uuid) (s : σ) : Preparation σ :=
  let (answer, state) := S.answer (.resolveModuleSecrets nodeId) s
  { state := state
    secrets := resolvedSecrets answer
    events := [.lookedUp (.resolveModuleSecrets nodeId) answer] }

def Preparation.lookUp (call : ResolverCall) (p : Preparation σ) : Preparation σ :=
  let (answer, state) := S.answer call p.state
  { state := state
    secrets := p.secrets.extend (resolvedSecrets answer)
    events := p.events ++ [.lookedUp call answer] }

def Preparation.refresh (paths : List String) (p : Preparation σ) : Preparation σ :=
  { p with
    state := S.refreshVaultPaths paths p.state
    events := p.events ++ [.refreshed paths] }

/-- The lookups of `build_encrypted_secrets_for`, before anything is sealed. -/
def prepareSecrets (nodeId : Uuid) (userId : Option Uuid) (vaultPaths extraPaths : List String)
    (maxLlmTier : LlmTier) (s : σ) : Preparation σ :=
  let p := Preparation.start S nodeId s
  let p := if extraPaths = [] then p else p.lookUp S (.resolveByPaths extraPaths userId)
  let p := if vaultPaths = [] then p
    else (p.refresh S vaultPaths).lookUp S (.resolveByPaths vaultPaths userId)
  if prefetchesLlmKeys maxLlmTier then p.lookUp S (.resolveLlmKeys userId) else p

def Preparation.conclude (workerSharedKey : List UInt8) (p : Preparation σ) :
    EncryptedSecrets × Preparation σ :=
  if p.secrets.entries = [] then ({}, p)
  else
    let sealing := S.sealSecrets p.secrets workerSharedKey p.state
    (forwarded sealing.1,
      { p with
        state := sealing.2
        events := p.events ++ [.sealed p.secrets workerSharedKey sealing.1] })

/-- `build_encrypted_secrets_for`, with all that it asks of the resolver and the envelope. -/
def encryptedSecretsRun (nodeId : Uuid) (userId : Option Uuid) (vaultPaths extraPaths : List String)
    (workerSharedKey : List UInt8) (maxLlmTier : LlmTier) (s : σ) :
    EncryptedSecrets × Preparation σ :=
  (prepareSecrets S nodeId userId vaultPaths extraPaths maxLlmTier s).conclude S workerSharedKey

end Run

section Merging

/-- The value of a key in the last successful answer that has the key. -/
def givenLast (lookups : List (ResolverCall × Except String Secrets)) (key : String) :
    Option String :=
  lookups.reverse.findSome? fun lookup => (resolvedSecrets lookup.2).lookup key

/-- The lookups that are made, in the order of their precedence. -/
def plannedCalls (nodeId : Uuid) (userId : Option Uuid) (vaultPaths extraPaths : List String)
    (maxLlmTier : LlmTier) : List ResolverCall :=
  [.resolveModuleSecrets nodeId] ++
    (if extraPaths = [] then [] else [.resolveByPaths extraPaths userId]) ++
    (if vaultPaths = [] then [] else [.resolveByPaths vaultPaths userId]) ++
    (if maxLlmTier = .tier1 then [] else [.resolveLlmKeys userId])

variable {σ : Type} {S : SecretsServices σ} {s : σ} {p : Preparation σ}
variable {calls : List ResolverCall}

/-- The secrets so far are the merge of what the services have answered to these calls, and nothing
is sealed. -/
structure Preparation.Merges (S : SecretsServices σ) (s : σ) (p : Preparation σ)
    (calls : List ResolverCall) : Prop where
  answered : S.Answers s p.events p.state
  calls_eq : p.lookups.map Prod.fst = calls
  lookup_eq : ∀ key, p.secrets.lookup key = givenLast p.lookups key
  unsealed : p.seals = []

theorem Preparation.lookups_lookUp (call : ResolverCall) :
    (p.lookUp S call).lookups = p.lookups ++ [(call, (S.answer call p.state).1)] :=
  List.filterMap_append

theorem Preparation.lookups_refresh (paths : List String) :
    (p.refresh S paths).lookups = p.lookups :=
  List.filterMap_append.trans (List.append_nil _)

theorem Preparation.seals_lookUp (call : ResolverCall) : (p.lookUp S call).seals = p.seals :=
  List.filterMap_append.trans (List.append_nil _)

theorem Preparation.seals_refresh (paths : List String) : (p.refresh S paths).seals = p.seals :=
  List.filterMap_append.trans (List.append_nil _)

theorem Preparation.merges_start (nodeId : Uuid) (s : σ) :
    (start S nodeId s).Merges S s [.resolveModuleSecrets nodeId] where
  answered := .lookedUp .start (.resolveModuleSecrets nodeId)
  calls_eq := rfl
  lookup_eq key := by
    change (resolvedSecrets (S.answer (.resolveModuleSecrets nodeId) s).1).lookup key =
      givenLast [(.resolveModuleSecrets nodeId, (S.answer (.resolveModuleSecrets nodeId) s).1)] key
    simp only [givenLast, List.reverse_singleton, List.findSome?_cons, List.findSome?_nil]
    cases (resolvedSecrets (S.answer (.resolveModuleSecrets nodeId) s).1).lookup key <;> rfl
  unsealed := rfl

theorem Preparation.Merges.lookUp (h : p.Merges S s calls) (call : ResolverCall) :
    (p.lookUp S call).Merges S s (calls ++ [call]) where
  answered := h.answered.lookedUp call
  calls_eq := by
    rw [lookups_lookUp, List.map_append, h.calls_eq]
    rfl
  lookup_eq key := by
    rw [lookups_lookUp]
    simp only [Preparation.lookUp, Secrets.lookup_extend, givenLast, List.reverse_append,
      List.reverse_singleton, List.singleton_append, List.findSome?_cons]
    rw [h.lookup_eq key, givenLast]
    cases (resolvedSecrets (S.answer call p.state).1).lookup key <;> rfl
  unsealed := (seals_lookUp call).trans h.unsealed

theorem Preparation.Merges.refresh (h : p.Merges S s calls) (paths : List String) :
    (p.refresh S paths).Merges S s calls where
  answered := h.answered.refreshed paths
  calls_eq := (congrArg (List.map Prod.fst) (lookups_refresh paths)).trans h.calls_eq
  lookup_eq key := (h.lookup_eq key).trans (congrArg (givenLast · key) (lookups_refresh paths).symm)
  unsealed := (seals_refresh paths).trans h.unsealed

theorem merges_prepareSecrets (nodeId : Uuid) (userId : Option Uuid)
    (vaultPaths extraPaths : List String) (maxLlmTier : LlmTier) (s : σ) :
    (prepareSecrets S nodeId userId vaultPaths extraPaths maxLlmTier s).Merges S s
      (plannedCalls nodeId userId vaultPaths extraPaths maxLlmTier) := by
  have hExtra : (if extraPaths = [] then Preparation.start S nodeId s
      else (Preparation.start S nodeId s).lookUp S (.resolveByPaths extraPaths userId)).Merges S s
      ([.resolveModuleSecrets nodeId] ++
        if extraPaths = [] then [] else [.resolveByPaths extraPaths userId]) := by
    split
    · exact Preparation.merges_start nodeId s
    · exact (Preparation.merges_start nodeId s).lookUp _
  rw [prepareSecrets, plannedCalls]
  revert hExtra
  generalize (if extraPaths = [] then Preparation.start S nodeId s
    else (Preparation.start S nodeId s).lookUp S (.resolveByPaths extraPaths userId)) = p
  intro hExtra
  have hVault : (if vaultPaths = [] then p
      else (p.refresh S vaultPaths).lookUp S (.resolveByPaths vaultPaths userId)).Merges S s
      (([.resolveModuleSecrets nodeId] ++
        if extraPaths = [] then [] else [.resolveByPaths extraPaths userId]) ++
        if vaultPaths = [] then [] else [.resolveByPaths vaultPaths userId]) := by
    split
    · rw [List.append_nil]
      exact hExtra
    · exact (hExtra.refresh _).lookUp _
  cases maxLlmTier with
  | tier1 =>
      simp only [if_true, List.append_nil]
      exact hVault
  | tier2 => exact hVault.lookUp _

/-- Keys of LLM providers are asked for on the second tier only. -/
theorem llmKeys_planned_iff (nodeId : Uuid) (userId : Option Uuid)
    (vaultPaths extraPaths : List String) (maxLlmTier : LlmTier) :
    (∃ user, .resolveLlmKeys user ∈ plannedCalls nodeId userId vaultPaths extraPaths maxLlmTier) ↔
      maxLlmTier ≠ .tier1 := by
  simp only [plannedCalls, List.mem_append, List.mem_singleton]
  constructor
  · rintro ⟨user, ((h | h) | h) | h⟩ rfl
    · cases h
    · split at h <;> simp at h
    · split at h <;> simp at h
    · simp at h
  · intro hTier
    exact ⟨userId, .inr (by simp [hTier])⟩

end Merging

section Closed

variable {σ : Type}

section Sealing

variable (p : Preparation σ) (workerSharedKey : List UInt8)
  (sealing : Except String (List UInt8 × List UInt8) × σ)

theorem lookups_sealed :
    ({ p with
      state := sealing.2
      events := p.events ++ [.sealed p.secrets workerSharedKey sealing.1] } : Preparation σ).lookups =
      p.lookups :=
  List.filterMap_append.trans (List.append_nil _)

theorem seals_sealed :
    ({ p with
      state := sealing.2
      events := p.events ++ [.sealed p.secrets workerSharedKey sealing.1] } : Preparation σ).seals =
      p.seals ++ [(p.secrets, workerSharedKey, sealing.1)] :=
  List.filterMap_append

end Sealing

/-- What a run of the secrets pipeline asks of the services from `s` on, what it makes of their
answers, and what it returns. -/
structure FailsClosed (S : SecretsServices σ) (s : σ) (nodeId : Uuid) (userId : Option Uuid)
    (vaultPaths extraPaths : List String) (workerSharedKey : List UInt8) (maxLlmTier : LlmTier)
    (run : EncryptedSecrets × Preparation σ) : Prop where
  answered : S.Answers s run.2.events run.2.state
  asked : run.2.lookups.map Prod.fst = plannedCalls nodeId userId vaultPaths extraPaths maxLlmTier
  tierGated : (∃ user, .resolveLlmKeys user ∈ run.2.lookups.map Prod.fst) ↔ maxLlmTier ≠ .tier1
  merged : ∀ key, run.2.secrets.lookup key = givenLast run.2.lookups key
  emptyUnsealed : run.2.secrets.entries = [] → run.2.seals = [] ∧ run.1 = {}
  sealedOnce : run.2.secrets.entries ≠ [] → ∃ answer,
    run.2.seals = [(run.2.secrets, workerSharedKey, answer)] ∧ run.1 = forwarded answer
  accepted : validateSealOutput run.1.ciphertext run.1.nonce = .ok ()
  faultyEmpty : ∀ attempt ∈ run.2.seals, ¬ SoundSeal attempt.2.2 → run.1 = {}
  soundForwarded : ∀ attempt ∈ run.2.seals, ∀ ciphertext nonce,
    attempt.2.2 = .ok (ciphertext, nonce) → validateSealOutput ciphertext nonce = .ok () →
      run.1 = ⟨ciphertext, nonce⟩

/-- The resolver and the envelope are asked in turn for what they answer, and the pair is the one
that the envelope has sealed, or empty. -/
theorem fails_closed (S : SecretsServices σ) (nodeId : Uuid) (userId : Option Uuid)
    (vaultPaths extraPaths : List String) (workerSharedKey : List UInt8) (maxLlmTier : LlmTier)
    (s : σ) :
    FailsClosed S s nodeId userId vaultPaths extraPaths workerSharedKey maxLlmTier
      (encryptedSecretsRun S nodeId userId vaultPaths extraPaths workerSharedKey maxLlmTier s) := by
  have hMerges := merges_prepareSecrets (S := S) nodeId userId vaultPaths extraPaths maxLlmTier s
  have hTier := llmKeys_planned_iff nodeId userId vaultPaths extraPaths maxLlmTier
  rw [encryptedSecretsRun]
  generalize prepareSecrets S nodeId userId vaultPaths extraPaths maxLlmTier s = p at hMerges
  rw [← hMerges.calls_eq] at hTier
  rw [Preparation.conclude]
  split
  · rename_i hEmpty
    have hNone : ∀ attempt, attempt ∉ p.seals := by
      intro attempt hIn
      rw [hMerges.unsealed] at hIn
      exact List.not_mem_nil hIn
    exact
      { answered := hMerges.answered
        asked := hMerges.calls_eq
        tierGated := hTier
        merged := hMerges.lookup_eq
        emptyUnsealed := fun _ => ⟨hMerges.unsealed, rfl⟩
        sealedOnce := fun hSome => absurd hEmpty hSome
        accepted := rfl
        faultyEmpty := fun attempt hIn => absurd hIn (hNone attempt)
        soundForwarded := fun attempt hIn => absurd hIn (hNone attempt) }
  · rename_i hSome
    have hLookups := lookups_sealed p workerSharedKey
      (S.sealSecrets p.secrets workerSharedKey p.state)
    have hSeals := seals_sealed p workerSharedKey
      (S.sealSecrets p.secrets workerSharedKey p.state)
    rw [hMerges.unsealed, List.nil_append] at hSeals
    refine
      { answered := hMerges.answered.sealed p.secrets workerSharedKey
        asked := (congrArg (List.map Prod.fst) hLookups).trans hMerges.calls_eq
        tierGated := by simpa only [hLookups] using hTier
        merged := fun key => (hMerges.lookup_eq key).trans (congrArg (givenLast · key) hLookups.symm)
        emptyUnsealed := fun hEmpty => absurd hEmpty hSome
        sealedOnce := fun _ => ⟨_, hSeals, rfl⟩
        accepted := forwarded_valid _
        faultyEmpty := fun attempt hIn hFaulty => ?_
        soundForwarded := fun attempt hIn ciphertext nonce hAnswer hValid => ?_ }
    · obtain rfl := List.mem_singleton.1 ((congrArg (attempt ∈ ·) hSeals).mp hIn)
      exact forwarded_faulty hFaulty
    · obtain rfl := List.mem_singleton.1 ((congrArg (attempt ∈ ·) hSeals).mp hIn)
      exact (congrArg forwarded hAnswer).trans (forwarded_sound hValid)

end Closed

section Fixed

/-- A resolver and an envelope whose answers depend on nothing but the call. -/
def fixedServices (resolver : SecretsResolver) (envelope : SecretEnvelope) :
    SecretsServices Unit where
  answer call _ := (match call with
    | .resolveModuleSecrets nodeId => resolver.resolveModuleSecrets nodeId
    | .resolveByPaths paths userId => resolver.resolveByPaths paths userId
    | .resolveLlmKeys userId => resolver.resolveLlmKeys userId, ())
  refreshVaultPaths _ _ := ()
  sealSecrets secrets key _ := (envelope.sealSecrets secrets key, ())

/-- The secrets that are merged for a job when the resolver is a fixed function. -/
def secretsMap (resolver : SecretsResolver) (nodeId : Uuid) (userId : Option Uuid)
    (vaultPaths extraPaths : List String) (maxLlmTier : LlmTier) : Secrets :=
  let secrets := resolvedSecrets (resolver.resolveModuleSecrets nodeId)
  let secrets := if extraPaths = [] then secrets
    else secrets.extend (resolvedSecrets (resolver.resolveByPaths extraPaths userId))
  let secrets := if vaultPaths = [] then secrets
    else secrets.extend (resolvedSecrets (resolver.resolveByPaths vaultPaths userId))
  if prefetchesLlmKeys maxLlmTier then
    secrets.extend (resolvedSecrets (resolver.resolveLlmKeys userId))
  else secrets

variable (resolver : SecretsResolver) (envelope : SecretEnvelope) (nodeId : Uuid)
  (userId : Option Uuid) (vaultPaths extraPaths : List String) (workerSharedKey : List UInt8)
  (maxLlmTier : LlmTier)

theorem prepareSecrets_fixed :
    (prepareSecrets (fixedServices resolver envelope) nodeId userId vaultPaths extraPaths maxLlmTier
      ()).secrets = secretsMap resolver nodeId userId vaultPaths extraPaths maxLlmTier := by
  unfold prepareSecrets secretsMap
  by_cases hExtra : extraPaths = [] <;> by_cases hVault : vaultPaths = [] <;>
    cases prefetchesLlmKeys maxLlmTier <;>
      simp only [hExtra, hVault, if_true, if_false, Bool.false_eq_true] <;> rfl

/-- The jobs of the engine carry their secrets map sealed, when it is not empty. -/
theorem buildEncryptedSecretsFor_secretsMap :
    buildEncryptedSecretsFor resolver envelope nodeId userId vaultPaths extraPaths workerSharedKey
        maxLlmTier =
      let secrets := secretsMap resolver nodeId userId vaultPaths extraPaths maxLlmTier
      if secrets.entries = [] then {}
      else forwarded (envelope.sealSecrets secrets workerSharedKey) := by
  unfold buildEncryptedSecretsFor
  refine if_congr Iff.rfl rfl ?_
  rw [← secretsMap]
  cases envelope.sealSecrets (secretsMap resolver nodeId userId vaultPaths extraPaths maxLlmTier)
      workerSharedKey with
  | error e => rfl
  | ok pair =>
      obtain ⟨ciphertext, nonce⟩ := pair
      by_cases hValid : validSealOutput ciphertext nonce = true
      · rw [forwarded_sound (validSealOutput_iff.1 hValid)]
        exact if_pos hValid
      · rw [forwarded_faulty]
        · exact if_neg hValid
        · rintro ⟨c, n, hSame, hSound⟩
          cases hSame
          exact hValid (validSealOutput_iff.2 hSound)

theorem encryptedSecretsRun_secretsMap :
    (encryptedSecretsRun (fixedServices resolver envelope) nodeId userId vaultPaths extraPaths
      workerSharedKey maxLlmTier ()).1 =
      let secrets := secretsMap resolver nodeId userId vaultPaths extraPaths maxLlmTier
      if secrets.entries = [] then {}
      else forwarded (envelope.sealSecrets secrets workerSharedKey) := by
  rw [encryptedSecretsRun, Preparation.conclude, prepareSecrets_fixed]
  dsimp only
  split
  · rfl
  · rfl

/-- With a fixed resolver the pipeline returns what the jobs of the engine carry. -/
theorem encryptedSecretsRun_fixed :
    (encryptedSecretsRun (fixedServices resolver envelope) nodeId userId vaultPaths extraPaths
      workerSharedKey maxLlmTier ()).1 =
      buildEncryptedSecretsFor resolver envelope nodeId userId vaultPaths extraPaths workerSharedKey
        maxLlmTier := by
  rw [encryptedSecretsRun_secretsMap, buildEncryptedSecretsFor_secretsMap]

end Fixed

end TalosWorkflow
