import TalosWorkflow.Replay.SingleUse
import TalosWorkflow.Signing.Domains

/-!
# How many nonces the cache holds

A full cache is swept down to the window before the next nonce goes in. The
sweep makes room only when some nonce that is held is older than the window.
-/

namespace TalosWorkflow

namespace JobNonceCache

def inWindow (now maxAgeSecs : UInt64) (seen : Registry String UInt64) : Registry String UInt64 :=
  seen.retain (saturatingSub now maxAgeSecs < ·)

/-- A recording finds room: when the nonce is new to a full cache, not all that is held after the
ordinary sweep is within the window. -/
def HasRoom (cache : JobNonceCache) (maxAgeSecs now : UInt64) (nonce : String) : Prop :=
  (cache.swept now maxAgeSecs).contains nonce = false →
    hardCap ≤ (cache.swept now maxAgeSecs).size →
      (inWindow now maxAgeSecs (cache.swept now maxAgeSecs)).size < hardCap

variable {cache : JobNonceCache} {maxAgeSecs : UInt64} {clock : ClockReading} {nonce : String}

theorem size_checkAndRecord_le (ts : UInt64) (hSize : cache.seen.size ≤ hardCap) :
    (cache.checkAndRecord maxAgeSecs clock nonce ts).2.seen.size ≤ hardCap ↔
      cache.HasRoom maxAgeSecs (clock.getD ts) nonce := by
  have hSwept := (cache.size_swept_le (clock.getD ts) maxAgeSecs).trans hSize
  rw [checkAndRecord, HasRoom]
  generalize cache.swept (clock.getD ts) maxAgeSecs = seen at hSwept
  cases hContains : seen.contains nonce with
  | true =>
      rw [if_pos rfl]
      constructor
      · intro _ h
        cases h
      · intro _
        exact hSwept
  | false =>
      rw [if_neg Bool.false_ne_true, Registry.size_insert_of_fresh (contains_capped hContains),
        capped, inWindow]
      split
      · rename_i hFull
        constructor
        · intro h _ _
          omega
        · intro h
          have hRoom := h rfl hFull
          omega
      · rename_i hFull
        constructor
        · intro _ _ h
          exact absurd h hFull
        · intro _
          omega

end JobNonceCache

namespace KeyedMessage

variable (display : F32 → List Char) (digest : Sha256) (mac : Hmac) (maxAgeSecs : UInt64)

def nonce : KeyedMessage → String
  | .signed message => message.nonce
  | .heartbeat beat => beat.heartbeatNonce

def check (v : Verification) : KeyedMessage → Except String UInt64
  | .signed message => message.check digest mac maxAgeSecs v
  | .heartbeat beat => beat.check display mac maxAgeSecs v

def verify (v : Verification) : KeyedMessage → JobNonceCache → Except String Unit × JobNonceCache
  | .signed message => message.verify digest mac maxAgeSecs v
  | .heartbeat beat => beat.verify display mac maxAgeSecs v

variable {display digest mac maxAgeSecs} {v : Verification} {message : KeyedMessage}

theorem verify_of_error {e : String} (cache : JobNonceCache)
    (h : message.check display digest mac maxAgeSecs v = .error e) :
    (message.verify display digest mac maxAgeSecs v cache).2 = cache := by
  cases message with
  | signed message => exact congrArg Prod.snd (SignedMessage.verify_of_error cache h)
  | heartbeat beat =>
      exact congrArg (fun check => (verifyOnce maxAgeSecs _ _ check v cache).2) h

theorem verify_of_ok {ts : UInt64} (cache : JobNonceCache)
    (h : message.check display digest mac maxAgeSecs v = .ok ts) :
    (message.verify display digest mac maxAgeSecs v cache).2 =
      (cache.checkAndRecord maxAgeSecs v.recordedAt message.nonce ts).2 := by
  cases message with
  | signed message => exact (SignedMessage.verify_of_ok cache h).2
  | heartbeat beat =>
      have hOnce : beat.verify display mac maxAgeSecs v cache =
          recordNonce "heartbeat_nonce" beat.heartbeatNonce cache v.recordedAt ts maxAgeSecs :=
        congrArg (fun check => verifyOnce maxAgeSecs _ _ check v cache) h
      rw [verify, hOnce, recordNonce]
      change _ = (cache.checkAndRecord maxAgeSecs v.recordedAt beat.heartbeatNonce ts).2
      generalize cache.checkAndRecord maxAgeSecs v.recordedAt beat.heartbeatNonce ts = answer
      obtain ⟨fresh, after⟩ := answer
      cases fresh <;> rfl

end KeyedMessage

/-- A message of any type, verified within a window of its own. -/
structure KeyedCall where
  message : KeyedMessage
  verification : Verification
  maxAgeSecs : UInt64

structure CacheClock where
  cache : JobNonceCache
  clock : UInt64

namespace CacheClock

def initial : CacheClock := ⟨.new, 0⟩

variable (display : F32 → List Char) (digest : Sha256) (mac : Hmac)

/-- The clock is read twice in a call, and does not go back. -/
def step (s : CacheClock) (call : KeyedCall) : Option CacheClock :=
  if s.clock ≤ call.verification.checkedAt.getD 0 ∧
      call.verification.checkedAt.getD 0 ≤ call.verification.recordedAt.getD 0 then
    some ⟨(call.message.verify display digest mac call.maxAgeSecs call.verification s.cache).2,
      call.verification.recordedAt.getD 0⟩
  else none

/-- When the message passes its checks, its nonce finds room. -/
def MakesRoom (s : CacheClock) (call : KeyedCall) : Prop :=
  ∀ ts, call.message.check display digest mac call.maxAgeSecs call.verification = .ok ts →
    s.cache.HasRoom call.maxAgeSecs (call.verification.recordedAt.getD ts) call.message.nonce

variable {display digest mac} {s s' : CacheClock} {call : KeyedCall}

theorem size_step_le (hSize : s.cache.seen.size ≤ JobNonceCache.hardCap)
    (hStep : s.step display digest mac call = some s') :
    s'.cache.seen.size ≤ JobNonceCache.hardCap ↔ MakesRoom display digest mac s call := by
  rw [step] at hStep
  split at hStep
  · cases hStep
    cases hCheck : call.message.check display digest mac call.maxAgeSecs call.verification with
    | error e =>
        rw [KeyedMessage.verify_of_error s.cache hCheck]
        constructor
        · intro _ ts h
          rw [hCheck] at h
          cases h
        · intro _
          exact hSize
    | ok ts =>
        rw [KeyedMessage.verify_of_ok s.cache hCheck,
          JobNonceCache.size_checkAndRecord_le ts hSize]
        constructor
        · intro h ts' hCheck'
          cases hCheck.symm.trans hCheck'
          exact h
        · intro h
          exact h ts hCheck
  · cases hStep

/-- While every call makes room, the cap is kept, and the next call keeps it just when it makes
room. -/
theorem nonce_cache_bounded (display : F32 → List Char) (digest : Sha256) (mac : Hmac)
    (hRun : Run (step display digest mac) (MakesRoom display digest mac) initial s) :
    s.cache.seen.size ≤ JobNonceCache.hardCap ∧
      ∀ call s', s.step display digest mac call = some s' →
        (s'.cache.seen.size ≤ JobNonceCache.hardCap ↔ MakesRoom display digest mac s call) := by
  have hSize : s.cache.seen.size ≤ JobNonceCache.hardCap := by
    refine hRun.invariant (fun s => s.cache.seen.size ≤ JobNonceCache.hardCap) ?_ (Nat.zero_le _)
    intro s call s' hRoom hSize hStep
    exact (size_step_le hSize hStep).2 hRoom
  exact ⟨hSize, fun _ _ hStep => size_step_le hSize hStep⟩

section Flood

def keyedCall (maxAgeSecs : UInt64) (call : VerifyCall) : KeyedCall :=
  ⟨.signed call.message, call.verification, maxAgeSecs⟩

/-- The cache of a verifier goes the way of the cache of the process. -/
theorem step_of_verifier {maxAgeSecs : UInt64} {v v' : Verifier} {call : VerifyCall}
    (h : v.step digest mac maxAgeSecs call = some v') :
    step display digest mac ⟨v.cache, v.clock⟩ (keyedCall maxAgeSecs call) =
      some ⟨v'.cache, v'.clock⟩ := by
  rw [Verifier.step] at h
  split at h
  · rename_i hClock
    cases h
    exact if_pos hClock
  · cases h

theorem makesRoom_of_lt (display : F32 → List Char) (digest : Sha256) (mac : Hmac)
    (h : s.cache.seen.size < JobNonceCache.hardCap) : MakesRoom display digest mac s call := by
  intro ts _ _ hFull
  have hSize := s.cache.size_swept_le (call.verification.recordedAt.getD ts) call.maxAgeSecs
  omega

/-- The results of one second fill the cache. Once that second has left the window, the next result
finds room. -/
theorem nonce_cache_bounded_flood :
    ∃ full s : CacheClock, full.cache.seen.size = JobNonceCache.hardCap ∧
      full.step (fun _ => ['0']) sampleDigest sampleHmac (keyedCall 300
        (Verifier.signedCall sampleDigest sampleHmac (Verifier.floodTime + 301)
          (Verifier.floodTime + 301) 0)) = some s ∧
      s.cache.seen.size = 1 ∧
      Run (step (fun _ => ['0']) sampleDigest sampleHmac)
        (MakesRoom (fun _ => ['0']) sampleDigest sampleHmac) initial s ∧
      s.cache.seen.size ≤ JobNonceCache.hardCap := by
  obtain ⟨v, hFlood, hFlooded⟩ := Verifier.run_flood sampleDigest sampleHmac
    (fun v call => MakesRoom (fun _ => ['0']) sampleDigest sampleHmac ⟨v.cache, v.clock⟩
      (keyedCall 300 call)) (fun v i hSize => makesRoom_of_lt _ _ _ hSize) le_rfl
  have hRun : Run (step (fun _ => ['0']) sampleDigest sampleHmac)
      (MakesRoom (fun _ => ['0']) sampleDigest sampleHmac) initial ⟨v.cache, v.clock⟩ :=
    hFlood.lift (fun v : Verifier => (⟨v.cache, v.clock⟩ : CacheClock))
      fun _ _ ⟨call, hRoom, hStep⟩ => ⟨keyedCall 300 call, hRoom, step_of_verifier hStep⟩
  have hKept : v.cache.swept (Verifier.floodTime + 301) 300 = v.cache.seen :=
    hFlooded.swept (by decide)
  have hDropped : JobNonceCache.capped (Verifier.floodTime + 301) 300 v.cache.seen = .empty :=
    hFlooded.capped (by decide)
  have hNew := hFlooded.contains (Verifier.floodTime + 301) (.ofNat 128 0) (.inr (by decide))
  have hStep := Verifier.step_signedCall sampleDigest sampleHmac 300 (Verifier.floodTime + 301)
    (Verifier.floodTime + 301) 0 (UInt64.le_trans hFlooded.clock (by decide)) (by decide)
    (hKept.symm ▸ hNew)
  rw [hKept, hDropped] at hStep
  have hRoom : MakesRoom (fun _ => ['0']) sampleDigest sampleHmac ⟨v.cache, v.clock⟩ (keyedCall 300
      (Verifier.signedCall sampleDigest sampleHmac (Verifier.floodTime + 301)
        (Verifier.floodTime + 301) 0)) := by
    rintro ts - - hFull
    change (JobNonceCache.inWindow (Verifier.floodTime + 301) 300
      (v.cache.swept (Verifier.floodTime + 301) 300)).size < JobNonceCache.hardCap
    change JobNonceCache.hardCap ≤ (v.cache.swept (Verifier.floodTime + 301) 300).size at hFull
    rw [hKept] at hFull ⊢
    rw [JobNonceCache.capped, if_pos hFull] at hDropped
    rw [JobNonceCache.inWindow, hDropped]
    decide
  have hLast := hRun.tail ⟨_, hRoom, step_of_verifier hStep⟩
  exact ⟨_, _, hFlooded.size, step_of_verifier hStep, rfl, hLast,
    (nonce_cache_bounded (fun _ => ['0']) sampleDigest sampleHmac hLast).1⟩

theorem nodup_floodCalls {n : Nat} (hn : n ≤ 2 ^ 128) :
    ((Verifier.floodCalls digest mac n).map (·.message.nonce)).Nodup := by
  rw [Verifier.floodCalls, List.map_map]
  refine List.Nodup.map_on ?_ List.nodup_range
  intro i hi j hj h
  rw [List.mem_range] at hi hj
  have hRandom := congrArg BitVec.toNat (freshNonce_injective _ h)
  rwa [BitVec.toNat_ofNat, BitVec.toNat_ofNat, Nat.mod_eq_of_lt (by omega),
    Nat.mod_eq_of_lt (by omega)] at hRandom

/-- One more fresh result of a second that has filled the cache: no sweep drops anything, and the
cache grows past its cap. -/
theorem flood_exceeds_hardCap :
    ∃ calls s, replay (step (fun _ => ['0']) sampleDigest sampleHmac) (fun _ _ => True) calls
        initial = some s ∧
      (calls.map (·.message.nonce)).Nodup ∧ ¬ s.cache.seen.size ≤ JobNonceCache.hardCap := by
  obtain ⟨v, hReplay, hFlooded⟩ := Verifier.replay_floodCalls sampleDigest sampleHmac le_rfl
  have hSwept : v.cache.swept Verifier.floodTime 300 = v.cache.seen := hFlooded.swept (by decide)
  have hNew := hFlooded.contains Verifier.floodTime (.ofNat 128 JobNonceCache.hardCap)
    (.inl (by decide))
  have hKept : JobNonceCache.capped Verifier.floodTime 300 v.cache.seen = v.cache.seen := by
    rw [JobNonceCache.capped, if_pos hFlooded.size.ge]
    apply Registry.retain_eq_self
    rw [hFlooded.entries]
    intro entry hEntry
    obtain ⟨i, -, rfl⟩ := List.mem_map.1 hEntry
    have hFresh : saturatingSub Verifier.floodTime 300 < Verifier.floodTime := by decide
    exact decide_eq_true hFresh
  have hLast := Verifier.step_signedCall sampleDigest sampleHmac 300 Verifier.floodTime
    Verifier.floodTime JobNonceCache.hardCap hFlooded.clock (by decide) (hSwept.symm ▸ hNew)
  rw [hSwept, hKept, ← replay_snoc hReplay trivial] at hLast
  have hCalls : Verifier.floodCalls sampleDigest sampleHmac JobNonceCache.hardCap ++
      [Verifier.signedCall sampleDigest sampleHmac Verifier.floodTime Verifier.floodTime
        JobNonceCache.hardCap] =
      Verifier.floodCalls sampleDigest sampleHmac (JobNonceCache.hardCap + 1) := by
    rw [Verifier.floodCalls, Verifier.floodCalls, List.range_succ, List.map_append,
      List.map_singleton]
  rw [hCalls] at hLast
  refine ⟨_, _, replay_map (f := fun v : Verifier => (⟨v.cache, v.clock⟩ : CacheClock))
    (g := keyedCall 300) (fun _ _ _ => trivial) (fun _ _ _ => step_of_verifier) hLast, ?_, ?_⟩
  · rw [List.map_map]
    exact nodup_floodCalls (by decide)
  · rw [Registry.size_insert_of_fresh hNew, hFlooded.size]
    omega

end Flood

end CacheClock

end TalosWorkflow
