import Mathlib.Data.List.Chain
import Mathlib.Data.List.Count
import Mathlib.Data.List.Pairwise

/-!
# Fixed windows

Requests are counted in windows of a fixed span, and a request is admitted as
long as the window has not counted more than the limit. A log of the windows
that have admitted a request shows what the limit is worth.
-/

namespace TalosWorkflow

/-- The counter is one of a machine: it wraps around. -/
structure Window where
  start : Nat
  count : UInt32
  deriving DecidableEq

namespace Window

section Definitions

variable (span now : Nat)

/-- The window that a request falls into. A window is replaced once its span is over. -/
def roll : Option Window → Window
  | none => ⟨now, 0⟩
  | some w => if span < now - w.start then ⟨now, 0⟩ else w

def record (window : Option Window) : Window :=
  let w := roll span now window
  { w with count := w.count + 1 }

/-- The log of one limited key: the start of the window of each request that was admitted. The
windows lie apart, and all but the one in force are over. -/
structure Keeps (limit : Nat) (window : Option Window) (log : List Nat) : Prop where
  bounded : ∀ start, log.count start ≤ limit
  inForce : ∀ w, window = some w → w.start ≤ now ∧ log.count w.start ≤ w.count.toNat ∧
    ∀ start ∈ log, start = w.start ∨ start + span < w.start
  lapsed : window = none → ∀ start ∈ log, start + span < now

end Definitions

variable {span now limit : Nat} {window : Option Window} {log : List Nat}

theorem countP_or_le {α : Type*} (p q : α → Bool) (l : List α) :
    l.countP (fun a => p a || q a) ≤ l.countP p + l.countP q := by
  induction l with
  | nil => exact Nat.le_refl 0
  | cons a l ih =>
      rw [List.countP_cons, List.countP_cons, List.countP_cons]
      cases p a <;> cases q a <;> simp only [Bool.or_true, Bool.or_false, Bool.false_eq_true,
        if_true, if_false] <;> omega

theorem roll_cases (span now : Nat) (window : Option Window) :
    window = some (roll span now window) ∨
      roll span now window = ⟨now, 0⟩ ∧ ∀ w, window = some w → w.start + span < now := by
  cases window with
  | none => exact .inr ⟨rfl, fun w h => (by cases h)⟩
  | some w =>
      rw [roll]
      split
      · rename_i hOver
        refine .inr ⟨rfl, ?_⟩
        rintro _ ⟨⟩
        omega
      · exact .inl rfl

theorem now_le_roll (span now : Nat) (window : Option Window) :
    now ≤ (roll span now window).start + span := by
  cases window with
  | none => exact Nat.le_add_right now span
  | some w =>
      rw [roll]
      split
      · exact Nat.le_add_right now span
      · omega

namespace Keeps

theorem nil (limit : Nat) : Keeps span now limit none [] :=
  ⟨fun _ => Nat.zero_le _, fun w h => (by cases h), fun _ start h => (by cases h)⟩

/-- Every start lies in the past, and more than a span ago unless its window is in force. -/
theorem le_now (h : Keeps span now limit window log) {start : Nat} (hMem : start ∈ log) :
    start ≤ now := by
  cases hWindow : window with
  | none =>
      have hOver := h.lapsed hWindow start hMem
      omega
  | some w =>
      obtain ⟨hPast, -, hApart⟩ := h.inForce w hWindow
      obtain rfl | hEarlier := hApart start hMem
      · exact hPast
      · omega

theorem elapse (h : Keeps span now limit window log) (elapsed : Nat) :
    Keeps span (now + elapsed) limit window log where
  bounded := h.bounded
  inForce w hWindow := by
    obtain ⟨hPast, hCount, hApart⟩ := h.inForce w hWindow
    exact ⟨by omega, hCount, hApart⟩
  lapsed hNone start hMem := by
    have hOver := h.lapsed hNone start hMem
    omega

/-- A window that is over can be forgotten. -/
theorem forget (h : Keeps span now limit window log)
    (hOver : ∀ w, window = some w → w.start + span < now) : Keeps span now limit none log where
  bounded := h.bounded
  inForce w hWindow := by cases hWindow
  lapsed _ start hMem := by
    cases hWindow : window with
    | none => exact h.lapsed hWindow start hMem
    | some w =>
        have hGone := hOver w hWindow
        obtain ⟨-, -, hApart⟩ := h.inForce w hWindow
        obtain rfl | hEarlier := hApart start hMem
        · exact hGone
        · omega

theorem perm (h : Keeps span now limit window log) {log' : List Nat} (hPerm : log.Perm log') :
    Keeps span now limit window log' where
  bounded start := hPerm.count_eq start ▸ h.bounded start
  inForce w hWindow := by
    obtain ⟨hPast, hCount, hApart⟩ := h.inForce w hWindow
    exact ⟨hPast, hPerm.count_eq w.start ▸ hCount, fun start hMem =>
      hApart start (hPerm.mem_iff.2 hMem)⟩
  lapsed hNone start hMem := h.lapsed hNone start (hPerm.mem_iff.2 hMem)

/-- After a window has been opened, it is the one in force. -/
theorem opened (h : Keeps span now limit window log) :
    Keeps span now limit (some (roll span now window)) log := by
  obtain hSame | ⟨hNew, hOver⟩ := roll_cases span now window
  · rw [← hSame]
    exact h
  · have hGone := (h.forget hOver).lapsed rfl
    rw [hNew]
    refine ⟨h.bounded, ?_, fun hNone => (by cases hNone)⟩
    rintro _ ⟨⟩
    have hFresh : now ∉ log := fun hMem => by
      have hEarlier := hGone now hMem
      omega
    exact ⟨Nat.le_refl now, Nat.le_of_eq (List.count_eq_zero_of_not_mem hFresh),
      fun start hMem => .inr (hGone start hMem)⟩

theorem count_record (hRoom : (roll span now window).count.toNat + 1 < UInt32.size) :
    (record span now window).count.toNat = (roll span now window).count.toNat + 1 := by
  rw [record, UInt32.toNat_add]
  exact Nat.mod_eq_of_lt hRoom

theorem refused (h : Keeps span now limit window log)
    (hRoom : (roll span now window).count.toNat + 1 < UInt32.size) :
    Keeps span now limit (some (record span now window)) log := by
  refine ⟨h.bounded, ?_, fun hNone => (by cases hNone)⟩
  rintro _ ⟨⟩
  obtain ⟨hPast, hCount, hApart⟩ := h.opened.inForce _ rfl
  refine ⟨hPast, ?_, hApart⟩
  rw [count_record hRoom]
  exact Nat.le_succ_of_le hCount

/-- A request is admitted if the window has counted no more than the limit. -/
theorem admitted (h : Keeps span now limit window log)
    (hRoom : (roll span now window).count.toNat + 1 < UInt32.size)
    (hLimit : (record span now window).count.toNat ≤ limit) :
    Keeps span now limit (some (record span now window)) ((record span now window).start :: log) := by
  obtain ⟨hPast, hCount, hApart⟩ := h.opened.inForce _ rfl
  have hCounted := count_record hRoom
  refine ⟨fun start => ?_, ?_, fun hNone => (by cases hNone)⟩
  · rw [List.count_cons]
    split
    · rename_i hStart
      obtain rfl := beq_iff_eq.1 hStart
      have hSame : log.count (record span now window).start ≤ (roll span now window).count.toNat :=
        hCount
      omega
    · exact h.bounded start
  · rintro _ ⟨⟩
    refine ⟨hPast, ?_, fun start hMem => ?_⟩
    · rw [List.count_cons_self, hCounted]
      exact Nat.succ_le_succ hCount
    · obtain rfl | hOld := List.mem_cons.1 hMem
      · exact .inl rfl
      · exact hApart start hOld

end Keeps

/-- A request with the time it came at, the start of the window that counted it and the answer. -/
structure Call where
  time : Nat
  start : Nat
  admitted : Bool
  deriving DecidableEq

/-- The windows that have admitted the calls. -/
def admittedStarts (log : List Call) : List Nat := (log.filter Call.admitted).map Call.start

def call (span now limit : Nat) (window : Option Window) : Call where
  time := now
  start := (record span now window).start
  admitted := (record span now window).count.toNat ≤ limit

/-- The calls up to now, the last one in front, and the window that they have left. -/
structure Logged (span now limit : Nat) (window : Option Window) (log : List Call) : Prop where
  admits : Keeps span now limit window (admittedStarts log)
  counts : Keeps span now UInt32.size window (log.map Call.start)
  exact : ∀ w, window = some w → w.count.toNat = (log.map Call.start).count w.start
  timely : ∀ c ∈ log, c.start ≤ c.time ∧ c.time ≤ c.start + span
  spread : log.Pairwise fun later earlier =>
    earlier.start = later.start ∨ earlier.start + span < later.start
  renewed : log.IsChain fun later earlier =>
    earlier.start + span < later.time → later.admitted = true
  first : ∀ c ∈ log.getLast?, c.admitted = true

namespace Logged

variable {calls : List Call}

theorem nil : Logged span now limit none [] where
  admits := .nil limit
  counts := .nil _
  exact w h := by cases h
  timely c h := by cases h
  spread := .nil
  renewed := .nil
  first c h := by cases h

theorem elapse (h : Logged span now limit window calls) (elapsed : Nat) :
    Logged span (now + elapsed) limit window calls :=
  { h with admits := h.admits.elapse elapsed, counts := h.counts.elapse elapsed }

theorem forget (h : Logged span now limit window calls)
    (hOver : ∀ w, window = some w → w.start + span < now) : Logged span now limit none calls :=
  { h with
    admits := h.admits.forget hOver
    counts := h.counts.forget hOver
    exact := fun w hNone => by cases hNone }

/-- The next call falls into the window in force, or opens one with a count of its own. -/
theorem roll_count (h : Logged span now limit window calls) :
    (roll span now window).count.toNat =
      (calls.map Call.start).count (roll span now window).start := by
  obtain hSame | ⟨hNew, hOver⟩ := roll_cases span now window
  · exact h.exact _ hSame
  · have hFresh : now ∉ calls.map Call.start := fun hMem => by
      have hGone := (h.counts.forget hOver).lapsed rfl now hMem
      omega
    rw [hNew, List.count_eq_zero_of_not_mem hFresh]
    rfl

/-- The call before has left its window behind, and so have all earlier ones. -/
theorem fresh_of_head (h : Logged span now limit window calls) {earlier : Call} (hHead : earlier ∈ calls.head?)
    (hOver : earlier.start + span < now) :
    ∀ c ∈ calls, c.start ≠ (roll span now window).start := by
  have hCovers := now_le_roll span now window
  cases calls with
  | nil => cases hHead
  | cons last rest =>
      cases hHead
      intro c hc
      obtain rfl | hc := List.mem_cons.1 hc
      · omega
      · have hEarlier := List.rel_of_pairwise_cons h.spread hc
        omega

section Calls

variable (h : Logged span now limit window calls)
  (hRoom : (calls.map Call.start).count (roll span now window).start + 1 < UInt32.size)

include h hRoom

theorem record_count : (record span now window).count.toNat =
    (calls.map Call.start).count (roll span now window).start + 1 := by
  rw [Keeps.count_record (h.roll_count ▸ hRoom), h.roll_count]

/-- A call that opens a window is admitted. -/
theorem call_admitted (hLimit : 0 < limit)
    (hFresh : ∀ c ∈ calls, c.start ≠ (roll span now window).start) :
    (call span now limit window).admitted = true := by
  have hZero : (calls.map Call.start).count (roll span now window).start = 0 := by
    apply List.count_eq_zero_of_not_mem
    intro hMem
    obtain ⟨c, hc, hStart⟩ := List.mem_map.1 hMem
    exact hFresh c hc hStart
  rw [call, h.record_count hRoom, hZero]
  exact decide_eq_true hLimit

theorem call_logged (hLimit : 0 < limit) :
    Logged span now limit (some (record span now window))
      (call span now limit window :: calls) where
  admits := by
    have hCount : (roll span now window).count.toNat + 1 < UInt32.size := h.roll_count ▸ hRoom
    rw [admittedStarts, List.filter_cons]
    split
    · rename_i hAdmitted
      exact h.admits.admitted hCount (of_decide_eq_true hAdmitted)
    · exact h.admits.refused hCount
  counts := by
    have hCount : (roll span now window).count.toNat + 1 < UInt32.size := h.roll_count ▸ hRoom
    exact h.counts.admitted hCount (Nat.le_of_lt (UInt32.toNat_lt _))
  exact := by
    rintro _ ⟨⟩
    rw [h.record_count hRoom, List.map_cons]
    exact List.count_cons_self.symm
  timely := by
    refine List.forall_mem_cons.2 ⟨⟨?_, now_le_roll span now window⟩, h.timely⟩
    exact (h.counts.opened.inForce _ rfl).1
  spread := by
    refine List.pairwise_cons.2 ⟨fun c hc => ?_, h.spread⟩
    exact (h.counts.opened.inForce _ rfl).2.2 c.start (List.mem_map_of_mem hc)
  renewed := by
    refine List.isChain_cons.2 ⟨fun earlier hHead hOver => ?_, h.renewed⟩
    exact h.call_admitted hRoom hLimit (h.fresh_of_head hHead hOver)
  first := by
    cases calls with
    | nil =>
        rintro c ⟨⟩
        exact h.call_admitted hRoom hLimit fun c hc => absurd hc List.not_mem_nil
    | cons last rest => exact h.first

end Calls

/-- Two windows are the same or lie apart. -/
theorem apart (h : Logged span now limit window calls) {c d : Call} (hc : c ∈ calls)
    (hd : d ∈ calls) :
    c.start = d.start ∨ c.start + span < d.start ∨ d.start + span < c.start := by
  refine List.Pairwise.forall_of_forall_of_flip (R := fun c d : Call =>
    c.start = d.start ∨ c.start + span < d.start ∨ d.start + span < c.start)
      (fun c _ => .inl rfl) (h.spread.imp fun hSpread => ?_) (h.spread.imp fun hSpread => ?_) hc hd
  · exact hSpread.imp Eq.symm .inr
  · exact hSpread.imp id .inl

/-- The windows that counted the calls of a span are at most two. -/
theorem two_starts (h : Logged span now limit window calls) (since : Nat) :
    ∃ s t, ∀ c ∈ calls, since ≤ c.time → c.time ≤ since + span → c.start = s ∨ c.start = t := by
  by_cases hSome : ∃ c ∈ calls, since ≤ c.time ∧ c.time ≤ since + span
  · obtain ⟨c, hc, hAfter, hBefore⟩ := hSome
    by_cases hOther : ∃ d ∈ calls, (since ≤ d.time ∧ d.time ≤ since + span) ∧ d.start ≠ c.start
    · obtain ⟨d, hd, ⟨hAfter', hBefore'⟩, hNe⟩ := hOther
      refine ⟨c.start, d.start, fun e he hAfter'' hBefore'' => ?_⟩
      have hcd := h.apart hc hd
      have hce := h.apart hc he
      have hde := h.apart hd he
      have hc := h.timely c hc
      have hd := h.timely d hd
      have he := h.timely e he
      omega
    · refine ⟨c.start, c.start, fun e he hAfter' hBefore' => .inl ?_⟩
      by_contra hNe
      exact hOther ⟨e, he, ⟨hAfter', hBefore'⟩, hNe⟩
  · exact ⟨0, 0, fun c hc hAfter hBefore => absurd ⟨c, hc, hAfter, hBefore⟩ hSome⟩

theorem count_admitted (h : Logged span now limit window calls) (start : Nat) :
    calls.countP (fun c => c.admitted && c.start == start) ≤ limit := by
  have hBound := h.admits.bounded start
  rw [admittedStarts, List.count, List.countP_map, List.countP_filter] at hBound
  refine (List.countP_mono_left fun c _ hc => ?_).trans hBound
  rwa [Bool.and_comm] at hc

/-- A span takes the calls of two windows at most. -/
theorem count_span (h : Logged span now limit window calls) (since : Nat) :
    calls.countP (fun c => c.admitted && decide (since ≤ c.time ∧ c.time ≤ since + span)) ≤
      2 * limit := by
  obtain ⟨s, t, hStarts⟩ := h.two_starts since
  calc
    _ ≤ calls.countP (fun c => (c.admitted && c.start == s) || (c.admitted && c.start == t)) := by
      refine List.countP_mono_left fun c hc hSpan => ?_
      rw [Bool.and_eq_true, decide_eq_true_eq] at hSpan
      obtain ⟨hAdmitted, hAfter, hBefore⟩ := hSpan
      rw [hAdmitted, Bool.true_and, Bool.true_and, Bool.or_eq_true, beq_iff_eq, beq_iff_eq]
      exact hStarts c hc hAfter hBefore
    _ ≤ calls.countP (fun c => c.admitted && c.start == s) +
        calls.countP (fun c => c.admitted && c.start == t) := countP_or_le _ _ _
    _ ≤ 2 * limit := by
      have hFirst := h.count_admitted s
      have hSecond := h.count_admitted t
      omega

end Logged

end Window

end TalosWorkflow
