import TalosWorkflow.Metering.Limits

/-!
# Calls for one module

What the limit of a module is worth for any sequence of checks, whatever else
is counted or evicted between them.
-/

namespace TalosWorkflow

variable {H : Host}

/-- The counters of a process, and the calls for one of its modules with the last one in front. -/
structure Meter where
  now : Nat
  windows : Table Window
  calls : List Window.Call

inductive MeterAction (H : Host) where
  | elapse (duration : Nat)
  | evict
  | check (E : ParallelWorkflowEngine H) (nodeId : Uuid)

namespace Meter

def initial : Meter := ⟨0, ∅, []⟩

/-- Checks for other modules go on beside the ones that are listed. -/
def step (moduleId : Uuid) (m : Meter) : MeterAction H → Option Meter
  | .elapse duration => some { m with now := m.now + duration }
  | .evict => some { m with windows := evictStaleRateLimits m.now m.windows }
  | .check E nodeId =>
      let checked := E.checkRateLimit m.now m.windows nodeId
      some { m with
        windows := checked.2
        calls :=
          if E.resolveModuleId nodeId = moduleId then
            { time := m.now
              start := ((checked.2.lookup moduleId).map Window.start).getD m.now
              admitted := checked.1.isNone } :: m.calls
          else m.calls }

/-- The engines keep their counters in memory and have the limit loaded for the module, and its
windows count fewer calls than the counter can hold. -/
def Limited (moduleId : Uuid) (limit : Int) (m : Meter) : MeterAction H → Prop
  | .check E nodeId => E.rateLimitStore = none ∧ (E.resolveModuleId nodeId = moduleId →
      E.rateLimits.lookup moduleId = some limit ∧
        (m.calls.map Window.Call.start).count
          (Window.roll rateLimitWindow m.now (m.windows.lookup moduleId)).start + 1 < UInt32.size)
  | _ => True

/-- Windows are told apart by their starts. Each admits no more calls than the limit, a call that
comes after its predecessor's window is admitted, and a span of a window holds twice the limit. -/
structure MeetsLimit (limit : Nat) (calls : List Window.Call) : Prop where
  resets : calls.Pairwise fun later earlier =>
    earlier.start = later.start ∨ earlier.start + rateLimitWindow < later.start
  counted : ∀ c ∈ calls, c.start ≤ c.time ∧ c.time ≤ c.start + rateLimitWindow
  window : ∀ start, calls.countP (fun c => c.admitted && c.start == start) ≤ limit
  first : ∀ c ∈ calls.getLast?, c.admitted = true
  renewed : calls.IsChain fun later earlier =>
    earlier.start + rateLimitWindow < later.time → later.admitted = true
  span : ∀ since, calls.countP (fun c => c.admitted &&
    decide (since ≤ c.time ∧ c.time ≤ since + rateLimitWindow)) ≤ 2 * limit

/-- What the counters keep of the calls. -/
def Keeps (moduleId : Uuid) (limit : Int) (m : Meter) : Prop :=
  Window.Logged rateLimitWindow m.now limit.toNat (m.windows.lookup moduleId) m.calls

variable {moduleId : Uuid} {limit : Int} {m t : Meter}

theorem checkRateLimit_other {E : ParallelWorkflowEngine H} {nodeId : Uuid} (now : Nat)
    (windows : Table Window) (h : E.resolveModuleId nodeId ≠ moduleId) :
    (E.checkRateLimit now windows nodeId).2.lookup moduleId = windows.lookup moduleId := by
  rw [ParallelWorkflowEngine.checkRateLimit]
  split
  · rfl
  · exact AList.lookup_insert_ne h.symm

theorem checkRateLimit_limited {E : ParallelWorkflowEngine H} {nodeId : Uuid} (now : Nat)
    (windows : Table Window) (hModule : E.resolveModuleId nodeId = moduleId)
    (hLimit : E.rateLimits.lookup moduleId = some limit) (hPositive : 0 < limit) :
    (E.checkRateLimit now windows nodeId).1.isNone =
        (Window.call rateLimitWindow now limit.toNat (windows.lookup moduleId)).admitted ∧
      (E.checkRateLimit now windows nodeId).2.lookup moduleId =
        some (Window.record rateLimitWindow now (windows.lookup moduleId)) := by
  subst hModule
  have hMetered : E.meteredWindow now windows nodeId = some (limit,
      Window.record rateLimitWindow now (windows.lookup (E.resolveModuleId nodeId))) := by
    rw [ParallelWorkflowEngine.meteredWindow, hLimit]
    exact if_neg (Int.not_le.2 hPositive)
  simp only [ParallelWorkflowEngine.checkRateLimit, hMetered]
  refine ⟨?_, AList.lookup_insert _⟩
  rw [Window.call]
  split
  · rename_i hOver
    exact (decide_eq_false (Nat.not_le.2 hOver)).symm
  · rename_i hWithin
    exact (decide_eq_true (Nat.le_of_not_lt hWithin)).symm

theorem Keeps.step (hPositive : 0 < limit) (h : m.Keeps moduleId limit)
    {action : MeterAction H} (hLimited : Limited moduleId limit m action)
    (hStep : Meter.step moduleId m action = some t) : t.Keeps moduleId limit := by
  cases action with
  | elapse duration =>
      cases hStep
      exact h.elapse duration
  | evict =>
      cases hStep
      unfold Keeps
      dsimp only
      obtain hSame | ⟨hGone, hStale⟩ := lookup_evict m.now m.windows moduleId
      · rw [hSame]
        exact h
      · rw [hGone]
        refine Window.Logged.forget h fun w hWindow => ?_
        have hOld := hStale w hWindow
        have hLonger : rateLimitWindow < rateLimitStale := by decide
        omega
  | check E nodeId =>
      cases hStep
      unfold Keeps
      dsimp only
      split
      · rename_i hModule
        obtain ⟨-, hCounts⟩ := hLimited
        obtain ⟨hLimit, hRoom⟩ := hCounts hModule
        obtain ⟨hAdmitted, hWindow⟩ :=
          checkRateLimit_limited m.now m.windows hModule hLimit hPositive
        rw [hAdmitted, hWindow]
        exact Window.Logged.call_logged h hRoom (Int.lt_toNat.2 hPositive)
      · rename_i hOther
        rw [checkRateLimit_other m.now m.windows hOther]
        exact h

theorem Keeps.meetsLimit (h : m.Keeps moduleId limit) : MeetsLimit limit.toNat m.calls :=
  ⟨h.spread, h.timely, h.count_admitted, h.first, h.renewed, h.count_span⟩

end Meter

/-- Whatever is evicted or counted beside them, the calls for a module meet its limit. -/
theorem calls_meet_limit {moduleId : Uuid} {limit : Int} (hPositive : 0 < limit) {m : Meter}
    (hRun : Run (Meter.step (H := H) moduleId) (Meter.Limited moduleId limit) Meter.initial m) :
    Meter.MeetsLimit limit.toNat m.calls :=
  (hRun.invariant (Meter.Keeps moduleId limit)
    (fun _ _ _ hLimited hKeeps hStep => hKeeps.step hPositive hLimited hStep)
      Window.Logged.nil).meetsLimit

section Samples

/-- Module 7 is called twice in its window, and again after it. -/
theorem calls_meet_limit_once :
    ∃ m : Meter, m.calls.map Window.Call.admitted = [true, false, true] ∧
      Meter.MeetsLimit 1 m.calls := by
  let E := meteredEngine loneNodes
  have hLimit : E.rateLimits.lookup 7 = some 1 := rfl
  have hFirst : Run (Meter.step 7) (Meter.Limited 7 1) Meter.initial _ :=
    .single ⟨.check E 1, ⟨rfl, fun _ => ⟨hLimit, by decide⟩⟩, rfl⟩
  have hSecond := hFirst.tail ⟨.check E 2, ⟨rfl, fun _ => ⟨hLimit, by decide⟩⟩, rfl⟩
  have hElapsed := hSecond.tail ⟨.elapse (rateLimitWindow + 1), trivial, rfl⟩
  have hThird := hElapsed.tail ⟨.check E 3, ⟨rfl, fun _ => ⟨hLimit, by decide⟩⟩, rfl⟩
  exact ⟨_, by decide, calls_meet_limit Int.one_pos hThird⟩

end Samples

end TalosWorkflow
