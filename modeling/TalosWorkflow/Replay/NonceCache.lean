import TalosWorkflow.Library.Registry
import TalosWorkflow.Replies

/-!
# The nonce cache

How the signed messages are verified, and the process-wide cache that lets each
nonce pass once. HMAC-SHA256 is a parameter.
-/

namespace TalosWorkflow

section Clocks

/-- Seconds since the Unix epoch; `none` on a clock that stands before it. -/
abbrev ClockReading := Option UInt64

/-- `saturating_sub` on 64 bits. -/
def saturatingSub (a b : UInt64) : UInt64 := if b ≤ a then a - b else 0

/-- `saturating_mul` on 64 bits. -/
def saturatingMul (a b : UInt64) : UInt64 :=
  if a.toNat * b.toNat ≤ usizeMax then a * b else UInt64.ofNat usizeMax

@[simp]
theorem toNat_saturatingSub (a b : UInt64) : (saturatingSub a b).toNat = a.toNat - b.toNat := by
  rw [saturatingSub]
  split
  · rename_i h
    exact UInt64.toNat_sub_of_le _ _ h
  · rename_i h
    rw [UInt64.le_iff_toNat_le] at h
    rw [UInt64.toNat_zero]
    omega

theorem toNat_saturatingMul (a b : UInt64) :
    (saturatingMul a b).toNat = min (a.toNat * b.toNat) usizeMax := by
  rw [saturatingMul]
  split
  · rename_i h
    rw [UInt64.toNat_mul, Nat.min_eq_left h, Nat.mod_eq_of_lt]
    rw [usizeMax] at h
    omega
  · rename_i h
    rw [Nat.min_eq_right (by omega)]
    rfl

end Clocks

section Cache

structure JobNonceCache where
  seen : Registry String UInt64

namespace JobNonceCache

def new : JobNonceCache := ⟨.empty⟩

def hardCap : Nat := 200000

/-- Below this size the ordinary sweep is skipped. -/
def sweepThreshold : Nat := 1024

variable (cache : JobNonceCache) (now maxAgeSecs : UInt64)

/-- The ordinary sweep, with twice the window as slack. -/
def swept : Registry String UInt64 :=
  if sweepThreshold < cache.seen.size then
    cache.seen.retain (saturatingSub now (saturatingMul maxAgeSecs 2) < ·)
  else cache.seen

/-- The hard-cap sweep, down to the window. -/
def capped (seen : Registry String UInt64) : Registry String UInt64 :=
  if hardCap ≤ seen.size then seen.retain (saturatingSub now maxAgeSecs < ·) else seen

def checkAndRecord (clock : ClockReading) (nonce : String) (ts : UInt64) : Bool × JobNonceCache :=
  let now := clock.getD ts
  let seen := cache.swept now maxAgeSecs
  if seen.contains nonce then (false, ⟨seen⟩)
  else (true, ⟨(capped now maxAgeSecs seen).insert nonce ts⟩)

theorem size_swept_le : (cache.swept now maxAgeSecs).size ≤ cache.seen.size := by
  rw [swept]
  split
  · exact List.length_filter_le _ _
  · exact le_rfl

theorem contains_swept {nonce : String} (h : cache.seen.contains nonce = false) :
    (cache.swept now maxAgeSecs).contains nonce = false := by
  rw [swept]
  split
  · exact Registry.contains_retain h
  · exact h

variable {now maxAgeSecs} in
theorem contains_capped {seen : Registry String UInt64} {nonce : String}
    (h : seen.contains nonce = false) : (capped now maxAgeSecs seen).contains nonce = false := by
  rw [capped]
  split
  · exact Registry.contains_retain h
  · exact h

theorem checkAndRecord_new {nonce : String} (h : cache.seen.contains nonce = false)
    (clock : ClockReading) (ts : UInt64) :
    (cache.checkAndRecord maxAgeSecs clock nonce ts).1 = true := by
  simp only [checkAndRecord, cache.contains_swept (clock.getD ts) maxAgeSecs h,
    Bool.false_eq_true, if_false]

theorem contains_checkAndRecord {nonce other : String} (h : cache.seen.contains nonce = false)
    (hNe : nonce ≠ other) (clock : ClockReading) (ts : UInt64) :
    (cache.checkAndRecord maxAgeSecs clock other ts).2.seen.contains nonce = false := by
  have hSwept := cache.contains_swept (clock.getD ts) maxAgeSecs h
  rw [checkAndRecord]
  split
  · exact hSwept
  · exact Registry.contains_insert_ne (contains_capped hSwept) hNe

end JobNonceCache

end Cache

section Checks

/-- HMAC-SHA256: the tag of a message under a key. -/
abbrev Hmac := List UInt8 → List UInt8 → List UInt8

def maxFutureSkewSecs : UInt64 := 5

/-- `splitn(2, ':')`, when it yields two parts. -/
def splitNonce (nonce : String) : Option (List Char × List Char) :=
  match nonce.toList.span (· ≠ ':') with
  | (seconds, _ :: random) => some (seconds, random)
  | (_, []) => none

variable (field nonce : String)

/-- The timestamp is parsed before the hexadecimal part is looked at. -/
def parseNonce : Except String UInt64 :=
  match splitNonce nonce with
  | none => .error ("malformed " ++ field)
  | some (seconds, random) =>
      match parseU64 seconds with
      | none => .error ("invalid timestamp in " ++ field)
      | some ts => if isHexText random then .ok ts else .error ("invalid hex in " ++ field)

/-- Pipeline results look at the hexadecimal part first. -/
def parseNonceHexFirst : Except String UInt64 :=
  match splitNonce nonce with
  | none => .error ("malformed " ++ field)
  | some (seconds, random) =>
      if isHexText random then
        match parseU64 seconds with
        | none => .error ("invalid timestamp in " ++ field)
        | some ts => .ok ts
      else .error ("invalid hex in " ++ field)

def checkFreshness (ts now maxAgeSecs : UInt64) : Except String Unit :=
  if maxAgeSecs < saturatingSub now ts then
    .error (field ++ " is too old (" ++ toString (saturatingSub now ts) ++ " s, max " ++
      toString maxAgeSecs ++ ")")
  else if maxFutureSkewSecs < saturatingSub ts now then
    .error (field ++ " is in the future (" ++ toString (saturatingSub ts now) ++ " s ahead, max " ++
      toString maxFutureSkewSecs ++ ")")
  else .ok ()

def checkSignature (mac : Hmac) (key payload signature : List UInt8) : Except String Unit :=
  if mac key payload = signature then .ok () else .error "HMAC signature verification failed"

/-- The checks ahead of the cache: the form of the nonce, its freshness and the signature. -/
def checkSigned (parse : String → String → Except String UInt64) (mac : Hmac)
    (key payload signature : List UInt8) (now maxAgeSecs : UInt64) : Except String UInt64 := do
  let ts ← parse field nonce
  checkFreshness field ts now maxAgeSecs
  checkSignature mac key payload signature
  return ts

def recordNonce (cache : JobNonceCache) (clock : ClockReading) (ts maxAgeSecs : UInt64) :
    Except String Unit × JobNonceCache :=
  match cache.checkAndRecord maxAgeSecs clock nonce ts with
  | (true, cache) => (.ok (), cache)
  | (false, cache) => (.error (field ++ " already seen (replay attempt within " ++
      toString maxAgeSecs ++ "-second window)"), cache)

end Checks

section Signatures

/-- Stand-ins for SHA-256 and HMAC-SHA256 in runs on given inputs. -/
def sampleDigest : Sha256 := fun bytes => .ofNat 256 bytes.length

def sampleHmac : Hmac := fun key payload => key ++ payload

variable (digest : Sha256) (mac : Hmac) (key : List UInt8) (ts : UInt64) (random : BitVec 128)

/-- The nonce is drawn first, since the signature covers it. -/
def JobRequest.sign (req : JobRequest) : JobRequest :=
  let req := { req with jobNonce := freshNonce ts random }
  { req with signature := mac key (req.signingPayload digest) }

def PipelineJobRequest.sign (req : PipelineJobRequest) : PipelineJobRequest :=
  let req := { req with jobNonce := freshNonce ts random }
  { req with signature := mac key (req.signingPayload digest) }

def JobResult.sign (result : JobResult) : JobResult :=
  let result := { result with resultNonce := freshNonce ts random }
  { result with signature := mac key (result.signingPayload digest) }

def PipelineJobResult.sign (result : PipelineJobResult) : PipelineJobResult :=
  let result := { result with resultNonce := freshNonce ts random }
  { result with signature := mac key (result.signingPayload digest) }

end Signatures

section Messages

/-- What a message is verified with. The clock is read twice. -/
structure Verification where
  key : List UInt8
  checkedAt : ClockReading
  recordedAt : ClockReading

variable (digest : Sha256) (mac : Hmac) (maxAgeSecs : UInt64)

def JobRequest.check (req : JobRequest) (v : Verification) : Except String UInt64 :=
  checkSigned "job_nonce" req.jobNonce parseNonce mac v.key (req.signingPayload digest)
    req.signature (v.checkedAt.getD 0) maxAgeSecs

def PipelineJobRequest.check (req : PipelineJobRequest) (v : Verification) :
    Except String UInt64 :=
  checkSigned "job_nonce" req.jobNonce parseNonce mac v.key (req.signingPayload digest)
    req.signature (v.checkedAt.getD 0) maxAgeSecs

def JobResult.verifyNoReplay (result : JobResult) (v : Verification) : Except String UInt64 :=
  checkSigned "result_nonce" result.resultNonce parseNonce mac v.key
    (result.signingPayload digest) result.signature (v.checkedAt.getD 0) maxAgeSecs

def PipelineJobResult.verifyNoReplay (result : PipelineJobResult) (v : Verification) :
    Except String UInt64 :=
  checkSigned "result_nonce" result.resultNonce parseNonceHexFirst mac v.key
    (result.signingPayload digest) result.signature (v.checkedAt.getD 0) maxAgeSecs

def verifyOnce (field nonce : String) (check : Except String UInt64) (v : Verification)
    (cache : JobNonceCache) : Except String Unit × JobNonceCache :=
  match check with
  | .error e => (.error e, cache)
  | .ok ts => recordNonce field nonce cache v.recordedAt ts maxAgeSecs

def JobRequest.verify (req : JobRequest) (v : Verification) :
    JobNonceCache → Except String Unit × JobNonceCache :=
  verifyOnce maxAgeSecs "job_nonce" req.jobNonce (req.check digest mac maxAgeSecs v) v

def PipelineJobRequest.verify (req : PipelineJobRequest) (v : Verification) :
    JobNonceCache → Except String Unit × JobNonceCache :=
  verifyOnce maxAgeSecs "job_nonce" req.jobNonce (req.check digest mac maxAgeSecs v) v

def JobResult.verify (result : JobResult) (v : Verification) :
    JobNonceCache → Except String Unit × JobNonceCache :=
  verifyOnce maxAgeSecs "result_nonce" result.resultNonce
    (result.verifyNoReplay digest mac maxAgeSecs v) v

def PipelineJobResult.verify (result : PipelineJobResult) (v : Verification) :
    JobNonceCache → Except String Unit × JobNonceCache :=
  verifyOnce maxAgeSecs "result_nonce" result.resultNonce
    (result.verifyNoReplay digest mac maxAgeSecs v) v

inductive SignedMessage where
  | jobRequest (req : JobRequest)
  | jobResult (result : JobResult)
  | pipelineJobRequest (req : PipelineJobRequest)
  | pipelineJobResult (result : PipelineJobResult)

namespace SignedMessage

def nonce : SignedMessage → String
  | .jobRequest req => req.jobNonce
  | .jobResult result => result.resultNonce
  | .pipelineJobRequest req => req.jobNonce
  | .pipelineJobResult result => result.resultNonce

def check (v : Verification) : SignedMessage → Except String UInt64
  | .jobRequest req => req.check digest mac maxAgeSecs v
  | .jobResult result => result.verifyNoReplay digest mac maxAgeSecs v
  | .pipelineJobRequest req => req.check digest mac maxAgeSecs v
  | .pipelineJobResult result => result.verifyNoReplay digest mac maxAgeSecs v

def verify (v : Verification) : SignedMessage → JobNonceCache → Except String Unit × JobNonceCache
  | .jobRequest req => req.verify digest mac maxAgeSecs v
  | .jobResult result => result.verify digest mac maxAgeSecs v
  | .pipelineJobRequest req => req.verify digest mac maxAgeSecs v
  | .pipelineJobResult result => result.verify digest mac maxAgeSecs v

end SignedMessage

end Messages

section Specifications

variable {digest : Sha256} {mac : Hmac} {maxAgeSecs : UInt64} {field nonce : String}

theorem splitNonce_timestamp (nonce : String) :
    nonceTimestamp nonce = (splitNonce nonce).bind fun parts =>
      if isHexText parts.2 then parseU64 parts.1 else none := by
  rw [nonceTimestamp, splitNonce]
  cases nonce.toList.span (· ≠ ':') with
  | mk seconds rest => cases rest <;> rfl

theorem parseNonce_ok {ts : UInt64} :
    parseNonce field nonce = .ok ts ↔ nonceTimestamp nonce = some ts := by
  rw [splitNonce_timestamp, parseNonce]
  cases splitNonce nonce with
  | none => simp
  | some parts =>
      cases hSeconds : parseU64 parts.1 with
      | none => simp [hSeconds]
      | some seconds => cases hHex : isHexText parts.2 <;> simp [hSeconds, hHex]

theorem parseNonceHexFirst_ok {ts : UInt64} :
    parseNonceHexFirst field nonce = .ok ts ↔ nonceTimestamp nonce = some ts := by
  rw [splitNonce_timestamp, parseNonceHexFirst]
  cases splitNonce nonce with
  | none => simp
  | some parts =>
      cases hSeconds : parseU64 parts.1 with
      | none => cases hHex : isHexText parts.2 <;> simp [hSeconds, hHex]
      | some seconds => cases hHex : isHexText parts.2 <;> simp [hSeconds, hHex]

/-- At this clock a message of this time is neither too old nor in the future. -/
def WithinWindow (maxAgeSecs now ts : UInt64) : Prop :=
  now.toNat ≤ ts.toNat + maxAgeSecs.toNat ∧ ts.toNat ≤ now.toNat + maxFutureSkewSecs.toNat

instance (maxAgeSecs now ts : UInt64) : Decidable (WithinWindow maxAgeSecs now ts) :=
  inferInstanceAs (Decidable (_ ∧ _))

theorem checkFreshness_ok {ts now : UInt64} :
    checkFreshness field ts now maxAgeSecs = .ok () ↔ WithinWindow maxAgeSecs now ts := by
  rw [checkFreshness, WithinWindow]
  split
  · rename_i h
    rw [UInt64.lt_iff_toNat_lt, toNat_saturatingSub] at h
    simp only [reduceCtorEq, false_iff]
    omega
  · rename_i hOld
    rw [UInt64.lt_iff_toNat_lt, toNat_saturatingSub] at hOld
    split
    · rename_i h
      rw [UInt64.lt_iff_toNat_lt, toNat_saturatingSub] at h
      simp only [reduceCtorEq, false_iff]
      omega
    · rename_i h
      rw [UInt64.lt_iff_toNat_lt, toNat_saturatingSub] at h
      simp only [true_iff]
      omega

theorem checkSignature_ok {key payload signature : List UInt8} :
    checkSignature mac key payload signature = .ok () ↔ mac key payload = signature := by
  rw [checkSignature]
  split <;> simpa

theorem checkSigned_ok {parse : String → String → Except String UInt64}
    {key payload signature : List UInt8} {now ts : UInt64} :
    checkSigned field nonce parse mac key payload signature now maxAgeSecs = .ok ts ↔
      parse field nonce = .ok ts ∧ checkFreshness field ts now maxAgeSecs = .ok () ∧
        mac key payload = signature := by
  rw [← checkSignature_ok, checkSigned]
  simp only [bind, Except.bind]
  split
  · rename_i e hParse
    simp [hParse]
  · rename_i parsed hParse
    cases hFresh : checkFreshness field parsed now maxAgeSecs with
    | error e =>
        simp only [reduceCtorEq, hParse, Except.ok.injEq, false_iff]
        rintro ⟨rfl, hFresh', -⟩
        rw [hFresh] at hFresh'
        cases hFresh'
    | ok =>
        cases hSigned : checkSignature mac key payload signature with
        | error e => simp
        | ok =>
            constructor
            · intro h
              cases h
              exact ⟨hParse, hFresh, rfl⟩
            · rintro ⟨hSame, -, -⟩
              cases hParse.symm.trans hSame
              rfl

variable {v : Verification} {message : SignedMessage}

/-- What a worker has signed passes the checks while it is fresh. -/
theorem JobResult.verifyNoReplay_sign {result : JobResult} {ts : UInt64} {random : BitVec 128}
    (h : checkFreshness "result_nonce" ts (v.checkedAt.getD 0) maxAgeSecs = .ok ()) :
    (result.sign digest mac v.key ts random).verifyNoReplay digest mac maxAgeSecs v = .ok ts :=
  checkSigned_ok.2 ⟨parseNonce_ok.2 (nonceTimestamp_freshNonce ts random), h, rfl⟩

theorem PipelineJobResult.verifyNoReplay_sign {result : PipelineJobResult} {ts : UInt64}
    {random : BitVec 128}
    (h : checkFreshness "result_nonce" ts (v.checkedAt.getD 0) maxAgeSecs = .ok ()) :
    (result.sign digest mac v.key ts random).verifyNoReplay digest mac maxAgeSecs v = .ok ts :=
  checkSigned_ok.2 ⟨parseNonceHexFirst_ok.2 (nonceTimestamp_freshNonce ts random), h, rfl⟩

/-- Whichever message passes, its nonce has the form with a timestamp, and is within the window. -/
theorem SignedMessage.check_ok {ts : UInt64} (h : message.check digest mac maxAgeSecs v = .ok ts) :
    nonceTimestamp message.nonce = some ts ∧ WithinWindow maxAgeSecs (v.checkedAt.getD 0) ts := by
  cases message with
  | pipelineJobResult result =>
      obtain ⟨hParse, hFresh, -⟩ := checkSigned_ok.1 h
      exact ⟨parseNonceHexFirst_ok.1 hParse, checkFreshness_ok.1 hFresh⟩
  | jobRequest | jobResult | pipelineJobRequest =>
      obtain ⟨hParse, hFresh, -⟩ := checkSigned_ok.1 h
      exact ⟨parseNonce_ok.1 hParse, checkFreshness_ok.1 hFresh⟩

theorem SignedMessage.verify_of_error {e : String} (cache : JobNonceCache)
    (h : message.check digest mac maxAgeSecs v = .error e) :
    message.verify digest mac maxAgeSecs v cache = (.error e, cache) := by
  cases message <;> exact congrArg (fun check => verifyOnce maxAgeSecs _ _ check v cache) h

/-- A message that passes its checks is accepted just when its nonce is new to the cache. -/
theorem SignedMessage.verify_of_ok {ts : UInt64} (cache : JobNonceCache)
    (h : message.check digest mac maxAgeSecs v = .ok ts) :
    ((message.verify digest mac maxAgeSecs v cache).1 = .ok () ↔
      (cache.checkAndRecord maxAgeSecs v.recordedAt message.nonce ts).1 = true) ∧
    (message.verify digest mac maxAgeSecs v cache).2 =
      (cache.checkAndRecord maxAgeSecs v.recordedAt message.nonce ts).2 := by
  have hOnce : ∃ field, message.verify digest mac maxAgeSecs v cache =
      recordNonce field message.nonce cache v.recordedAt ts maxAgeSecs := by
    cases message <;>
      exact ⟨_, congrArg (fun check => verifyOnce maxAgeSecs _ _ check v cache) h⟩
  obtain ⟨field, hOnce⟩ := hOnce
  rw [hOnce, recordNonce]
  generalize cache.checkAndRecord maxAgeSecs v.recordedAt message.nonce ts = answer
  obtain ⟨fresh, after⟩ := answer
  cases fresh <;> simp

theorem SignedMessage.verify_new {ts : UInt64}
    (h : message.check digest mac maxAgeSecs v = .ok ts) :
    (message.verify digest mac maxAgeSecs v .new).1 = .ok () :=
  (SignedMessage.verify_of_ok .new h).1.2 (JobNonceCache.new.checkAndRecord_new maxAgeSecs rfl _ _)

theorem SignedMessage.withinWindow_of_verify {ts : UInt64} {random : BitVec 128}
    {cache : JobNonceCache} (hNonce : message.nonce = freshNonce ts random)
    (h : (message.verify digest mac maxAgeSecs v cache).1 = .ok ()) :
    WithinWindow maxAgeSecs (v.checkedAt.getD 0) ts := by
  cases hCheck : message.check digest mac maxAgeSecs v with
  | error e =>
      rw [SignedMessage.verify_of_error cache hCheck] at h
      cases h
  | ok stamp =>
      obtain ⟨hStamp, hWindow⟩ := SignedMessage.check_ok hCheck
      rw [hNonce, nonceTimestamp_freshNonce] at hStamp
      cases hStamp
      exact hWindow

theorem SignedMessage.contains_verify {cache : JobNonceCache} {nonce : String}
    (h : cache.seen.contains nonce = false) (hNe : nonce ≠ message.nonce) :
    (message.verify digest mac maxAgeSecs v cache).2.seen.contains nonce = false := by
  cases hCheck : message.check digest mac maxAgeSecs v with
  | error e =>
      rw [SignedMessage.verify_of_error cache hCheck]
      exact h
  | ok ts =>
      rw [(SignedMessage.verify_of_ok cache hCheck).2]
      exact cache.contains_checkAndRecord maxAgeSecs h hNe v.recordedAt ts

/-- With a signature that matches, what is left of the checks is the freshness. -/
theorem checkSigned_signed {key payload : List UInt8} {now ts : UInt64}
    (hNonce : nonceTimestamp nonce = some ts) :
    checkSigned field nonce parseNonce mac key payload (mac key payload) now maxAgeSecs =
      (checkFreshness field ts now maxAgeSecs).map fun _ => ts := by
  cases hFresh : checkFreshness field ts now maxAgeSecs with
  | ok _ => exact checkSigned_ok.2 ⟨parseNonce_ok.2 hNonce, hFresh, rfl⟩
  | error e =>
      simp only [checkSigned, bind, Except.bind, parseNonce_ok.2 hNonce, hFresh]
      rfl

/-- A message whose nonce is new to the cache is refused by its checks alone. -/
theorem verifyOnce_new {cache : JobNonceCache} (h : cache.seen.contains nonce = false)
    (check : Except String UInt64) :
    (verifyOnce maxAgeSecs field nonce check v cache).1 = check.map fun _ => () := by
  cases check with
  | error e => rfl
  | ok ts =>
      have hNew := cache.checkAndRecord_new maxAgeSecs h v.recordedAt ts
      rw [verifyOnce, recordNonce]
      generalize cache.checkAndRecord maxAgeSecs v.recordedAt nonce ts = answer at hNew
      obtain ⟨fresh, after⟩ := answer
      cases hNew
      rfl

end Specifications

end TalosWorkflow
