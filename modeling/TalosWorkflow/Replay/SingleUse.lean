import TalosWorkflow.Library.Transition
import TalosWorkflow.Replay.NonceCache

/-!
# Nonces are single-use

A process verifies messages one after another, under a clock that never goes
back. What was accepted stays in the cache as long as its timestamp is within
the window, when no sweep runs at the exact boundary of that window.
-/

namespace TalosWorkflow

structure VerifyCall where
  message : SignedMessage
  verification : Verification

/-- A nonce that was accepted, and the clock when it was recorded. -/
structure Acceptance where
  nonce : String
  clock : UInt64

/-- The process that verifies: its cache, its clock and what it has accepted, latest first. -/
structure Verifier where
  cache : JobNonceCache
  clock : UInt64
  accepted : List Acceptance

namespace VerifyCall

variable (call : VerifyCall)

def checkedAt : UInt64 := call.verification.checkedAt.getD 0

def recordedAt : UInt64 := call.verification.recordedAt.getD 0

end VerifyCall

namespace Verifier

def initial : Verifier := ⟨.new, 0, []⟩

section Calls

variable (digest : Sha256) (mac : Hmac) (maxAgeSecs : UInt64)

/-- The clock is read twice in a call, and does not go back. -/
def step (s : Verifier) (call : VerifyCall) : Option Verifier :=
  if s.clock ≤ call.checkedAt ∧ call.checkedAt ≤ call.recordedAt then
    let answer := call.message.verify digest mac maxAgeSecs call.verification s.cache
    some {
      cache := answer.2
      clock := call.recordedAt
      accepted := match answer.1 with
        | .ok () => ⟨call.message.nonce, call.recordedAt⟩ :: s.accepted
        | .error _ => s.accepted }
  else none

/-- The ordinary sweep leaves a stamp alone that may still be in the window: past the epoch it can
only drop such a stamp when it is 0, during the first `maxAgeSecs` seconds. -/
def ClearOfSweep (clock : ClockReading) (ts stamp : UInt64) : Prop :=
  match clock with
  | some now => now ≤ maxAgeSecs → stamp ≠ 0
  | none => saturatingSub ts (saturatingMul maxAgeSecs 2) < stamp

/-- The hard-cap sweep drops a stamp that is as old as the window, although it is still fresh. -/
def ClearOfHardCap (clock : ClockReading) (ts stamp : UInt64) : Prop :=
  match clock with
  | some now => stamp.toNat + maxAgeSecs.toNat ≠ now.toNat
  | none => saturatingSub ts maxAgeSecs < stamp

/-- The sweeps that a call makes find no entry on their boundary. -/
def Spares (s : Verifier) (call : VerifyCall) : Prop :=
  ∀ ts, call.message.check digest mac maxAgeSecs call.verification = .ok ts →
    let clock := call.verification.recordedAt
    let swept := s.cache.swept (clock.getD ts) maxAgeSecs
    (JobNonceCache.sweepThreshold < s.cache.seen.size →
      ∀ entry ∈ s.cache.seen.entries, ClearOfSweep maxAgeSecs clock ts entry.2) ∧
    (swept.contains call.message.nonce = false → JobNonceCache.hardCap ≤ swept.size →
      ∀ entry ∈ swept.entries, ClearOfHardCap maxAgeSecs clock ts entry.2)

end Calls

/-- No nonce is accepted again while its timestamp is within the window of the clock. -/
def SingleUse (maxAgeSecs : UInt64) (s : Verifier) : Prop :=
  s.accepted.Pairwise fun later earlier => later.nonce = earlier.nonce →
    ∀ ts, nonceTimestamp later.nonce = some ts →
      ts.toNat + maxAgeSecs.toNat < later.clock.toNat

section Memory

/-- The clock still has a stamp within the window. -/
def Live (maxAgeSecs clock stamp : UInt64) : Prop :=
  clock.toNat ≤ stamp.toNat + maxAgeSecs.toNat

def stamped (s : Verifier) : List (String × UInt64) :=
  s.accepted.filterMap fun a => (nonceTimestamp a.nonce).map (a.nonce, ·)

variable {digest : Sha256} {mac : Hmac} {maxAgeSecs ts : UInt64} {s s' : Verifier}
variable {call : VerifyCall}

theorem mem_stamped {nonce : String} {a : Acceptance} (hAccepted : a ∈ s.accepted)
    (hStamp : nonceTimestamp a.nonce = some ts) (hNonce : nonce = a.nonce) :
    (nonce, ts) ∈ s.stamped := by
  rw [stamped, List.mem_filterMap]
  refine ⟨a, hAccepted, ?_⟩
  rw [hStamp, hNonce]
  rfl

/-- With a window of at least a second, twice the window is older than the window. -/
theorem ClearOfSweep.cutoff_lt {clock : ClockReading} {stamp : UInt64} (hPos : 1 ≤ maxAgeSecs)
    (h : ClearOfSweep maxAgeSecs clock ts stamp) (hLive : Live maxAgeSecs (clock.getD 0) stamp) :
    saturatingSub (clock.getD ts) (saturatingMul maxAgeSecs 2) < stamp := by
  cases clock with
  | none => exact h
  | some now =>
      rw [UInt64.le_iff_toNat_le, UInt64.toNat_one] at hPos
      have hNow : now.toNat ≤ stamp.toNat + maxAgeSecs.toNat := hLive
      have hEarly : now.toNat ≤ maxAgeSecs.toNat → stamp.toNat ≠ 0 := by
        intro hLe hZero
        exact h (UInt64.le_iff_toNat_le.2 hLe) (UInt64.toNat_inj.1 hZero)
      have hRange := now.toNat_lt
      have hTwo : (2 : UInt64).toNat = 2 := rfl
      have hMax : usizeMax = 2 ^ 64 - 1 := rfl
      rw [Option.getD_some, UInt64.lt_iff_toNat_lt, toNat_saturatingSub, toNat_saturatingMul, hTwo]
      omega

theorem ClearOfHardCap.cutoff_lt {clock : ClockReading} {stamp : UInt64}
    (h : ClearOfHardCap maxAgeSecs clock ts stamp) (hSweep : ClearOfSweep maxAgeSecs clock ts stamp)
    (hLive : Live maxAgeSecs (clock.getD 0) stamp) :
    saturatingSub (clock.getD ts) maxAgeSecs < stamp := by
  cases clock with
  | none => exact h
  | some now =>
      have hNow : now.toNat ≤ stamp.toNat + maxAgeSecs.toNat := hLive
      have hNot : stamp.toNat + maxAgeSecs.toNat ≠ now.toNat := h
      have hEarly : now.toNat ≤ maxAgeSecs.toNat → stamp.toNat ≠ 0 := by
        intro hLe hZero
        exact hSweep (UInt64.le_iff_toNat_le.2 hLe) (UInt64.toNat_inj.1 hZero)
      rw [Option.getD_some, UInt64.lt_iff_toNat_lt, toNat_saturatingSub]
      omega

/-- The ordinary sweep of a call that spares the boundary forgets nothing live. -/
theorem swept_remembers {past : List (String × UInt64)} (hPos : 1 ≤ maxAgeSecs)
    (hSpares : Spares digest mac maxAgeSecs s call)
    (hCheck : call.message.check digest mac maxAgeSecs call.verification = .ok ts)
    (h : s.cache.seen.Remembers (Live maxAgeSecs call.recordedAt) past) :
    (s.cache.swept (call.verification.recordedAt.getD ts) maxAgeSecs).Remembers
      (Live maxAgeSecs call.recordedAt) past := by
  rw [JobNonceCache.swept]
  split
  · rename_i hLarge
    apply h.retain
    intro entry hEntry hLive
    have hClear := (hSpares ts hCheck).1 hLarge entry hEntry
    exact decide_eq_true (hClear.cutoff_lt hPos hLive)
  · exact h

theorem mem_swept {now : UInt64} {entry : String × UInt64}
    (h : entry ∈ (s.cache.swept now maxAgeSecs).entries) : entry ∈ s.cache.seen.entries := by
  rw [JobNonceCache.swept] at h
  split at h
  · exact (Registry.mem_retain.1 h).1
  · exact h

theorem capped_remembers {past : List (String × UInt64)}
    (hSpares : Spares digest mac maxAgeSecs s call)
    (hCheck : call.message.check digest mac maxAgeSecs call.verification = .ok ts)
    (hFresh : (s.cache.swept (call.verification.recordedAt.getD ts) maxAgeSecs).contains
      call.message.nonce = false)
    (h : (s.cache.swept (call.verification.recordedAt.getD ts) maxAgeSecs).Remembers
      (Live maxAgeSecs call.recordedAt) past) :
    (JobNonceCache.capped (call.verification.recordedAt.getD ts) maxAgeSecs
      (s.cache.swept (call.verification.recordedAt.getD ts) maxAgeSecs)).Remembers
      (Live maxAgeSecs call.recordedAt) past := by
  obtain ⟨hSweep, hCap⟩ := hSpares ts hCheck
  rw [JobNonceCache.capped]
  split
  · rename_i hFull
    have hLarge : JobNonceCache.sweepThreshold < s.cache.seen.size := by
      have hSize : _ ≤ s.cache.seen.size :=
        s.cache.size_swept_le (call.verification.recordedAt.getD ts) maxAgeSecs
      rw [JobNonceCache.hardCap] at hFull
      rw [JobNonceCache.sweepThreshold]
      omega
    apply h.retain
    intro entry hEntry hLive
    have hClear := hCap hFresh hFull entry hEntry
    exact decide_eq_true (hClear.cutoff_lt (hSweep hLarge entry (mem_swept hEntry)) hLive)
  · exact h

end Memory

section Runs

variable {digest : Sha256} {mac : Hmac} {maxAgeSecs : UInt64} {s s' : Verifier} {call : VerifyCall}

/-- The cache holds every nonce that may come again, so that none came twice. -/
structure Recalls (maxAgeSecs : UInt64) (s : Verifier) : Prop where
  remembered : s.cache.seen.Remembers (Live maxAgeSecs s.clock) s.stamped
  singleUse : s.SingleUse maxAgeSecs

theorem Recalls.initial : initial.Recalls maxAgeSecs where
  remembered _ hPast := absurd hPast List.not_mem_nil
  singleUse := List.Pairwise.nil

/-- A call that fails its checks or meets a recorded nonce accepts nothing. -/
theorem step_rejected {message : String} (hStep : s.step digest mac maxAgeSecs call = some s')
    (hAnswer : (call.message.verify digest mac maxAgeSecs call.verification s.cache).1 =
      .error message) : s'.accepted = s.accepted := by
  rw [step] at hStep
  split at hStep
  · cases hStep
    simp only [hAnswer]
  · cases hStep

theorem step_clock (hStep : s.step digest mac maxAgeSecs call = some s') :
    s'.clock = call.recordedAt ∧ s.clock.toNat ≤ call.recordedAt.toNat ∧
      s'.cache = (call.message.verify digest mac maxAgeSecs call.verification s.cache).2 := by
  rw [step] at hStep
  split at hStep
  · rename_i hClock
    cases hStep
    rw [UInt64.le_iff_toNat_le, UInt64.le_iff_toNat_le] at hClock
    exact ⟨rfl, hClock.1.trans hClock.2, rfl⟩
  · cases hStep

theorem step_accepted (hStep : s.step digest mac maxAgeSecs call = some s')
    (hAnswer : (call.message.verify digest mac maxAgeSecs call.verification s.cache).1 = .ok ()) :
    s'.accepted = ⟨call.message.nonce, call.recordedAt⟩ :: s.accepted := by
  rw [step] at hStep
  split at hStep
  · cases hStep
    simp only [hAnswer]
  · cases hStep

theorem stamped_cons {a : Acceptance} {ts : UInt64} (hAccepted : s'.accepted = a :: s.accepted)
    (hStamp : nonceTimestamp a.nonce = some ts) : s'.stamped = (a.nonce, ts) :: s.stamped := by
  rw [stamped, hAccepted, List.filterMap_cons, hStamp]
  rfl

theorem Recalls.step (hPos : 1 ≤ maxAgeSecs) (h : s.Recalls maxAgeSecs)
    (hSpares : Spares digest mac maxAgeSecs s call)
    (hStep : s.step digest mac maxAgeSecs call = some s') : s'.Recalls maxAgeSecs := by
  obtain ⟨hClock, hLater, hCache⟩ := step_clock hStep
  have hPast : s.cache.seen.Remembers (Live maxAgeSecs call.recordedAt) s.stamped :=
    h.remembered.mono fun stamp hLive => hLater.trans hLive
  cases hCheck : call.message.check digest mac maxAgeSecs call.verification with
  | error message =>
      have hVerify := SignedMessage.verify_of_error s.cache hCheck
      have hAccepted := step_rejected hStep (congrArg Prod.fst hVerify)
      constructor
      · rw [stamped, hAccepted, hClock, hCache, hVerify]
        exact hPast
      · rw [SingleUse, hAccepted]
        exact h.singleUse
  | ok ts =>
      obtain ⟨hAnswer, hAfter⟩ := SignedMessage.verify_of_ok s.cache hCheck
      have hSwept := swept_remembers hPos hSpares hCheck hPast
      rw [hAfter, JobNonceCache.checkAndRecord] at hCache
      rw [JobNonceCache.checkAndRecord] at hAnswer
      cases hContains : (s.cache.swept (call.verification.recordedAt.getD ts) maxAgeSecs).contains
          call.message.nonce with
      | true =>
          simp only [hContains, if_true, Bool.false_eq_true, iff_false] at hAnswer hCache
          obtain ⟨message, hRejected⟩ : ∃ message, (call.message.verify digest mac maxAgeSecs
              call.verification s.cache).1 = .error message := by
            cases hResult : (call.message.verify digest mac maxAgeSecs call.verification
                s.cache).1 with
            | error message => exact ⟨message, rfl⟩
            | ok _ => exact absurd hResult hAnswer
          have hAccepted := step_rejected hStep hRejected
          constructor
          · rw [stamped, hAccepted, hClock, hCache]
            exact hSwept
          · rw [SingleUse, hAccepted]
            exact h.singleUse
      | false =>
          simp only [hContains, Bool.false_eq_true, if_false, iff_true] at hAnswer hCache
          have hAccepted := step_accepted hStep hAnswer
          have hStamp := (SignedMessage.check_ok hCheck).1
          have hCapped := capped_remembers hSpares hCheck hContains hSwept
          constructor
          · rw [stamped_cons hAccepted hStamp, hClock, hCache]
            exact hCapped.insert (JobNonceCache.contains_capped hContains)
          · rw [SingleUse, hAccepted, List.pairwise_cons]
            refine ⟨?_, h.singleUse⟩
            intro earlier hEarlier hSame ts' hStamp'
            cases hStamp.symm.trans hStamp'
            by_contra hLive
            have hMem : (call.message.nonce, ts) ∈ s.stamped :=
              mem_stamped hEarlier (hSame ▸ hStamp) hSame
            have hRecognised := hSwept.contains hMem (Nat.not_lt.1 hLive)
            rw [hContains] at hRecognised
            cases hRecognised

/-- In every run whose calls find no entry on the boundary of a sweep, no nonce is accepted a second
time within its window. -/
theorem nonce_single_use (hPos : 1 ≤ maxAgeSecs)
    (hRun : Run (step digest mac maxAgeSecs) (Spares digest mac maxAgeSecs) initial s) :
    s.SingleUse maxAgeSecs := by
  have hRecalls : s.Recalls maxAgeSecs :=
    hRun.invariant (Recalls maxAgeSecs)
      (fun _ _ _ hSpares hRecalls hStep => hRecalls.step hPos hSpares hStep) .initial
  exact hRecalls.singleUse

end Runs

section Flood

variable {s : Verifier}

def signedCall (digest : Sha256) (mac : Hmac) (ts clock : UInt64) (random : Nat) : VerifyCall where
  message := .jobResult <| JobResult.sign digest mac [] ts (.ofNat 128 random)
    { jobId := 0, status := .success, outputPayload := .null, logs := [], executionTimeMs := 0
      signature := [], resultNonce := "" }
  verification := ⟨[], some clock, some clock⟩

theorem step_signedCall (digest : Sha256) (mac : Hmac) (maxAgeSecs ts clock : UInt64) (random : Nat)
    (hClock : s.clock ≤ clock)
    (hFresh : checkFreshness "result_nonce" ts clock maxAgeSecs = .ok ())
    (hNew : (s.cache.swept clock maxAgeSecs).contains (freshNonce ts (.ofNat 128 random)) = false) :
    s.step digest mac maxAgeSecs (signedCall digest mac ts clock random) =
      some {
        cache := ⟨(JobNonceCache.capped clock maxAgeSecs (s.cache.swept clock maxAgeSecs)).insert
          (freshNonce ts (.ofNat 128 random)) ts⟩
        clock := clock
        accepted := ⟨freshNonce ts (.ofNat 128 random), clock⟩ :: s.accepted } := by
  have hCheck : (signedCall digest mac ts clock random).message.check digest mac maxAgeSecs
      (signedCall digest mac ts clock random).verification = .ok ts :=
    JobResult.verifyNoReplay_sign hFresh
  obtain ⟨hAnswer, hAfter⟩ := SignedMessage.verify_of_ok s.cache hCheck
  have hRecord : s.cache.checkAndRecord maxAgeSecs (some clock) (freshNonce ts (.ofNat 128 random))
      ts = (true, ⟨(JobNonceCache.capped clock maxAgeSecs (s.cache.swept clock maxAgeSecs)).insert
        (freshNonce ts (.ofNat 128 random)) ts⟩) := by
    simp only [JobNonceCache.checkAndRecord, Option.getD_some, hNew, Bool.false_eq_true, if_false]
  have hOk := hAnswer.2 (congrArg Prod.fst hRecord)
  have hCache := hAfter.trans (congrArg Prod.snd hRecord)
  rw [step, if_pos ⟨hClock, UInt64.le_refl clock⟩]
  simp only [hOk, hCache]
  rfl

/-- A recorded nonce is refused again, and only the ordinary sweep is made. -/
theorem step_signedCall_again (digest : Sha256) (mac : Hmac) (maxAgeSecs ts clock : UInt64)
    (random : Nat) (hClock : s.clock ≤ clock)
    (hFresh : checkFreshness "result_nonce" ts clock maxAgeSecs = .ok ())
    (hSeen : (s.cache.swept clock maxAgeSecs).contains (freshNonce ts (.ofNat 128 random)) = true) :
    s.step digest mac maxAgeSecs (signedCall digest mac ts clock random) =
      some ⟨⟨s.cache.swept clock maxAgeSecs⟩, clock, s.accepted⟩ := by
  have hCheck : (signedCall digest mac ts clock random).message.check digest mac maxAgeSecs
      (signedCall digest mac ts clock random).verification = .ok ts :=
    JobResult.verifyNoReplay_sign hFresh
  obtain ⟨hAnswer, hAfter⟩ := SignedMessage.verify_of_ok s.cache hCheck
  have hRecord : s.cache.checkAndRecord maxAgeSecs (some clock) (freshNonce ts (.ofNat 128 random))
      ts = (false, ⟨s.cache.swept clock maxAgeSecs⟩) := by
    simp only [JobNonceCache.checkAndRecord, Option.getD_some, hSeen, if_true]
  have hCache := hAfter.trans (congrArg Prod.snd hRecord)
  rw [step, if_pos ⟨hClock, UInt64.le_refl clock⟩]
  cases hResult : ((signedCall digest mac ts clock random).message.verify digest mac maxAgeSecs
      (signedCall digest mac ts clock random).verification s.cache).1 with
  | error message =>
      simp only [hResult, hCache]
      rfl
  | ok _ =>
      have hNew := (congrArg Prod.fst hRecord).symm.trans (hAnswer.1 hResult)
      cases hNew

/-- Past the first window of the epoch only a sweep at the hard cap can meet its boundary. -/
theorem spares_signedCall (digest : Sha256) (mac : Hmac) {maxAgeSecs ts clock : UInt64} {random : Nat}
    (hLate : ¬ clock ≤ maxAgeSecs)
    (hCap : (s.cache.swept clock maxAgeSecs).contains (freshNonce ts (.ofNat 128 random)) = false →
      JobNonceCache.hardCap ≤ (s.cache.swept clock maxAgeSecs).size →
        ∀ entry ∈ (s.cache.swept clock maxAgeSecs).entries,
          entry.2.toNat + maxAgeSecs.toNat ≠ clock.toNat) :
    Spares digest mac maxAgeSecs s (signedCall digest mac ts clock random) :=
  fun _ _ => ⟨fun _ _ _ hEarly => absurd hEarly hLate, hCap⟩

def floodTime : UInt64 := 1700000000

/-- Results of one second that fill the cache up to its hard cap. -/
def floodCalls (digest : Sha256) (mac : Hmac) (n : Nat) : List VerifyCall :=
  (List.range n).map (signedCall digest mac floodTime floodTime)

/-- The cache holds the first `n` nonces of the flood, and each was accepted. -/
structure Flooded (n : Nat) (s : Verifier) : Prop where
  clock : s.clock ≤ floodTime
  entries : s.cache.seen.entries =
    (List.range n).reverse.map fun i => (freshNonce floodTime (.ofNat 128 i), floodTime)
  accepted : s.accepted =
    (List.range n).reverse.map fun i => ⟨freshNonce floodTime (.ofNat 128 i), floodTime⟩

theorem Flooded.swept {n : Nat} {now : UInt64} (h : s.Flooded n)
    (hCutoff : saturatingSub now (saturatingMul 300 2) < floodTime) :
    s.cache.swept now 300 = s.cache.seen := by
  rw [JobNonceCache.swept]
  split
  · apply Registry.retain_eq_self
    rw [h.entries]
    intro entry hEntry
    obtain ⟨i, -, rfl⟩ := List.mem_map.1 hEntry
    exact decide_eq_true hCutoff
  · rfl

theorem Flooded.size {n : Nat} (h : s.Flooded n) : s.cache.seen.size = n := by
  rw [Registry.size, h.entries, List.length_map, List.length_reverse, List.length_range]

theorem Flooded.contains {n : Nat} (h : s.Flooded n) (ts : UInt64) (random : BitVec 128)
    (hNew : n ≤ random.toNat ∨ ts ≠ floodTime) :
    s.cache.seen.contains (freshNonce ts random) = false := by
  rw [← Bool.not_eq_true, Registry.contains_iff]
  rintro ⟨stamp, hEntry⟩
  rw [h.entries, List.mem_map] at hEntry
  obtain ⟨i, hi, hSame⟩ := hEntry
  rw [List.mem_reverse, List.mem_range] at hi
  have hNonce := congrArg (nonceTimestamp ∘ Prod.fst) hSame
  simp only [Function.comp_apply, nonceTimestamp_freshNonce, Option.some.injEq] at hNonce
  subst hNonce
  obtain hLarge | hOther := hNew
  · have hRandom := freshNonce_injective _ (congrArg Prod.fst hSame)
    have hNat := congrArg BitVec.toNat hRandom
    rw [BitVec.toNat_ofNat] at hNat
    have hMod := Nat.mod_le i (2 ^ 128)
    omega
  · exact hOther rfl

/-- At the hard cap the whole second goes as soon as it is as old as the window. -/
theorem Flooded.capped {now : UInt64} (h : s.Flooded JobNonceCache.hardCap)
    (hCutoff : ¬ saturatingSub now 300 < floodTime) :
    JobNonceCache.capped now 300 s.cache.seen = .empty := by
  rw [JobNonceCache.capped, if_pos h.size.ge]
  apply Registry.retain_eq_empty
  rw [h.entries]
  intro entry hEntry
  obtain ⟨i, -, rfl⟩ := List.mem_map.1 hEntry
  exact decide_eq_false hCutoff

/-- The next result of the flood is accepted, and none is swept. -/
theorem Flooded.step (digest : Sha256) (mac : Hmac) {n : Nat} (h : s.Flooded n)
    (hn : n < JobNonceCache.hardCap) :
    ∃ s', s.step digest mac 300 (signedCall digest mac floodTime floodTime n) = some s' ∧
      s'.Flooded (n + 1) := by
  have hSwept : s.cache.swept floodTime 300 = s.cache.seen := h.swept (by decide)
  have hRandom : (BitVec.ofNat 128 n).toNat = n := by
    rw [BitVec.toNat_ofNat]
    rw [JobNonceCache.hardCap] at hn
    omega
  have hNew := h.contains floodTime (.ofNat 128 n) (.inl hRandom.ge)
  have hCapped : JobNonceCache.capped floodTime 300 s.cache.seen = s.cache.seen := by
    rw [JobNonceCache.capped, if_neg]
    rw [h.size]
    omega
  have hStep := step_signedCall digest mac 300 floodTime floodTime n h.clock (by decide)
    (hSwept.symm ▸ hNew)
  rw [hSwept, hCapped] at hStep
  refine ⟨_, hStep, ⟨UInt64.le_refl floodTime, ?_, ?_⟩⟩
  · rw [Registry.entries_insert_of_fresh hNew, h.entries, List.range_succ]
    simp
  · simp [h.accepted, List.range_succ]

theorem replay_floodCalls (digest : Sha256) (mac : Hmac) {n : Nat} (hn : n ≤ JobNonceCache.hardCap) :
    ∃ s, replay (step digest mac 300) (fun _ _ => True) (floodCalls digest mac n) initial = some s ∧
      s.Flooded n := by
  induction n with
  | zero => exact ⟨initial, rfl, by decide, rfl, rfl⟩
  | succ n ih =>
      obtain ⟨s, hReplay, hFlooded⟩ := ih (by omega)
      obtain ⟨s', hStep, hNext⟩ := hFlooded.step digest mac hn
      refine ⟨s', ?_, hNext⟩
      rw [floodCalls, List.range_succ, List.map_append, List.map_singleton]
      exact (replay_snoc hReplay trivial).trans hStep

/-- Up to the hard cap the flood is a run of whatever calls are allowed below it. -/
theorem run_flood (digest : Sha256) (mac : Hmac) (allowed : Verifier → VerifyCall → Prop) {n : Nat}
    (hAllowed : ∀ s i, s.cache.seen.size < JobNonceCache.hardCap →
      allowed s (signedCall digest mac floodTime floodTime i))
    (hn : n ≤ JobNonceCache.hardCap) :
    ∃ s, Run (Verifier.step digest mac 300) allowed initial s ∧ s.Flooded n := by
  induction n with
  | zero => exact ⟨initial, .refl, by decide, rfl, rfl⟩
  | succ n ih =>
      obtain ⟨s, hRun, hFlooded⟩ := ih (by omega)
      obtain ⟨s', hStep, hNext⟩ := hFlooded.step digest mac hn
      exact ⟨s', hRun.tail ⟨_, hAllowed s n (by rw [hFlooded.size]; omega), hStep⟩, hNext⟩

/-- Among as many nonces as the cache holds, the first is refused a second time. When their second
has left the window, the next result sweeps them all. -/
theorem nonce_single_use_flood :
    ∃ full refused s : Verifier, full.Flooded JobNonceCache.hardCap ∧
      full.step sampleDigest sampleHmac 300
        (signedCall sampleDigest sampleHmac floodTime (floodTime + 100) 0) = some refused ∧
      refused.accepted = full.accepted ∧
      refused.step sampleDigest sampleHmac 300
        (signedCall sampleDigest sampleHmac (floodTime + 301) (floodTime + 301) 0) = some s ∧
      s.accepted.length = JobNonceCache.hardCap + 1 ∧ s.cache.seen.size = 1 ∧
      Run (step sampleDigest sampleHmac 300) (Spares sampleDigest sampleHmac 300) initial s ∧
      s.SingleUse 300 := by
  obtain ⟨full, hRun, hFlooded⟩ := run_flood sampleDigest sampleHmac
    (Spares sampleDigest sampleHmac 300) (fun s i hSize =>
      spares_signedCall sampleDigest sampleHmac (by decide) fun _ hFull =>
        absurd hSize (Nat.not_lt.2 (hFull.trans (s.cache.size_swept_le _ _)))) le_rfl
  have hKept : full.cache.swept (floodTime + 100) 300 = full.cache.seen :=
    hFlooded.swept (by decide)
  have hSeen : full.cache.seen.contains (freshNonce floodTime (.ofNat 128 0)) = true := by
    rw [Registry.contains_iff, hFlooded.entries]
    exact ⟨floodTime, List.mem_map.2 ⟨0, by simp [JobNonceCache.hardCap], rfl⟩⟩
  have hRefused := step_signedCall_again sampleDigest sampleHmac 300 floodTime (floodTime + 100) 0
    (UInt64.le_trans hFlooded.clock (by decide)) (by decide) (hKept.symm ▸ hSeen)
  rw [hKept] at hRefused
  have hSecond := hRun.tail ⟨_, spares_signedCall sampleDigest sampleHmac (by decide) fun hNew =>
    absurd (hKept.symm ▸ hSeen) (Bool.eq_false_iff.1 hNew), hRefused⟩
  have hLater : JobNonceCache.swept ⟨full.cache.seen⟩ (floodTime + 301) 300 = full.cache.seen :=
    hFlooded.swept (by decide)
  have hNew := hFlooded.contains (floodTime + 301) (.ofNat 128 0) (.inr (by decide))
  have hStep := step_signedCall sampleDigest sampleHmac 300 (floodTime + 301) (floodTime + 301) 0
    (s := ⟨⟨full.cache.seen⟩, floodTime + 100, full.accepted⟩)
    (show floodTime + 100 ≤ floodTime + 301 by decide) (by decide) (hLater.symm ▸ hNew)
  rw [hLater, hFlooded.capped (by decide)] at hStep
  have hSwept := hSecond.tail ⟨_, spares_signedCall sampleDigest sampleHmac (by decide) fun _ _ => by
    rw [hLater, hFlooded.entries]
    intro entry hEntry
    obtain ⟨i, -, rfl⟩ := List.mem_map.1 hEntry
    exact (show floodTime.toNat + (300 : UInt64).toNat ≠ (floodTime + 301).toNat by decide), hStep⟩
  have hLength : full.accepted.length = JobNonceCache.hardCap := by
    rw [hFlooded.accepted, List.length_map, List.length_reverse, List.length_range]
  exact ⟨full, _, _, hFlooded, hRefused, rfl, hStep, congrArg Nat.succ hLength, rfl, hSwept,
    nonce_single_use (by decide) hSwept⟩

/-- At the hard cap the sweep drops the whole second that is exactly as old as the window, and its
first result is accepted again in that very second. -/
theorem hard_cap_readmits_nonce :
    ∃ s, replay (step sampleDigest sampleHmac 300) (fun _ _ => True)
        (floodCalls sampleDigest sampleHmac JobNonceCache.hardCap ++
          [signedCall sampleDigest sampleHmac (floodTime + 300) (floodTime + 300) 0] ++
          [signedCall sampleDigest sampleHmac floodTime (floodTime + 300) 0]) initial = some s ∧
      ¬ s.SingleUse 300 := by
  obtain ⟨s, hReplay, hFlooded⟩ := replay_floodCalls sampleDigest sampleHmac le_rfl
  have hSwept : s.cache.swept (floodTime + 300) 300 = s.cache.seen := hFlooded.swept (by decide)
  have hNew := hFlooded.contains (floodTime + 300) (.ofNat 128 0) (.inr (by decide))
  have hFlush := step_signedCall sampleDigest sampleHmac 300 (floodTime + 300) (floodTime + 300) 0
    (UInt64.le_trans hFlooded.clock (by decide)) (by decide) (hSwept.symm ▸ hNew)
  rw [hSwept, hFlooded.capped (by decide), ← replay_snoc hReplay trivial] at hFlush
  have hForgotten : (JobNonceCache.swept
      ⟨.insert (freshNonce (floodTime + 300) (.ofNat 128 0)) (floodTime + 300) .empty⟩
      (floodTime + 300) 300).contains (freshNonce floodTime (.ofNat 128 0)) = false := by decide
  have hAgain := step_signedCall sampleDigest sampleHmac 300 floodTime (floodTime + 300) 0
    (s := ⟨_, floodTime + 300,
      ⟨freshNonce (floodTime + 300) (.ofNat 128 0), floodTime + 300⟩ :: s.accepted⟩)
    (UInt64.le_refl _) (by decide) hForgotten
  rw [← replay_snoc hFlush trivial] at hAgain
  refine ⟨_, hAgain, ?_⟩
  rw [SingleUse, List.pairwise_cons]
  rintro ⟨hLater, -⟩
  have hFirst : (⟨freshNonce floodTime (.ofNat 128 0), floodTime⟩ : Acceptance) ∈ s.accepted := by
    rw [hFlooded.accepted]
    exact List.mem_map.2 ⟨0, by simp [JobNonceCache.hardCap], rfl⟩
  have hTwice := hLater _ (List.mem_cons_of_mem _ hFirst) rfl floodTime
    (nonceTimestamp_freshNonce floodTime (.ofNat 128 0))
  exact absurd hTwice (by decide)

end Flood

end Verifier

end TalosWorkflow
