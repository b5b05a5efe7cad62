import TalosWorkflow.Documents.Trigger
import TalosWorkflow.Entries.Endings
import TalosWorkflow.Exits.Context

/-!
# Calls of the engine

The public entry points: the checks before a run, and the race of the run
against a cancellation token and the deadline of the workflow.
-/

namespace TalosWorkflow

open Multigraph

variable {H : Host}

inductive RunError where
  | secretsResolverMissing
  | moduleFetcherMissing
  | userContextRequired
  | graphCyclic
  | timeout (secs : UInt64)
  | cancelled
  | execution (message : String)
  deriving DecidableEq

inductive CallEnd where
  | returned (result : Except RunError WorkflowContext)
  | panicked

/-- One poll of a call: the token is looked at first, then the scheduler takes steps until it has to
wait, and the clock is looked at last. -/
structure Poll where
  cancelled : Bool
  actions : List Action
  elapsed : Bool

/-- An engine with the setting that only its entry points read. -/
structure CallableEngine (H : Host) extends ParallelWorkflowEngine H where
  executionTimeoutSecs : UInt64

section Race

variable (R : Reactor H)

/-- What the future of the scheduler is ready with. -/
def Reactor.ended (s : State) : Option CallEnd :=
  match s.status with
  | .panicked => some .panicked
  | _ => (R.returned s).map fun result => .returned (result.mapError .execution)

/-- `none` stands for polls that the scheduler cannot answer so. -/
def Reactor.runWithWorkflowTimeout (secs : UInt64) (cancel : Option H.CancellationToken) :
    List Poll → State → Option (State × Option CallEnd)
  | [], s => some (s, none)
  | poll :: rest, s =>
      if cancel.isSome && poll.cancelled then some (s, some (.returned (.error .cancelled)))
      else if R.graph.isCyclic then
        some (s, some (.returned (.error (.execution "Workflow contains a cycle"))))
      else
        match replay R.step (fun _ _ => True) poll.actions s with
        | none => none
        | some t =>
            match R.ended t with
            | some e => some (t, some e)
            | none =>
                if 0 < secs ∧ poll.elapsed then
                  some (t, some (.returned (.error (.timeout secs))))
                else runWithWorkflowTimeout secs cancel rest t

end Race

namespace ParallelWorkflowEngine

variable (E : ParallelWorkflowEngine H)

def hasModuleNode : Bool := E.nodeMeta.entries.any fun entry => entry.2.moduleId.isSome

def precheckRunnable : Except RunError Unit :=
  if E.secretsResolver.isNone then .error .secretsResolverMissing
  else if E.hasModuleNode && E.moduleFetcher.isNone then .error .moduleFetcherMissing
  else if E.hasModuleNode && E.userId.isNone then .error .userContextRequired
  else if E.graph.isCyclic then .error .graphCyclic
  else .ok ()

end ParallelWorkflowEngine

namespace CallableEngine

variable (E : CallableEngine H) (executionId : Uuid)

def setExecutionTimeoutSecs (secs : UInt64) : CallableEngine H :=
  { E with executionTimeoutSecs := secs }

/-- A duration is a number of nanoseconds below `2 ^ 64` seconds. -/
def setExecutionTimeout (timeout : Option Nat) : CallableEngine H :=
  E.setExecutionTimeoutSecs (match timeout with
    | some nanos => UInt64.ofNat (nanos / 1000000000)
    | none => 0)

def runWithSeedWithTransportCancellable (initialResults : Table Json)
    (cancel : Option H.CancellationToken) (polls : List Poll) :
    Option (State × Option CallEnd) :=
  let R := E.reactor executionId initialResults
  match E.precheckRunnable with
  | .error e => some (R.initialState initialResults, some (.returned (.error e)))
  | .ok () =>
      R.runWithWorkflowTimeout E.executionTimeoutSecs cancel polls (R.initialState initialResults)

def runWithSeedWithTransport (initialResults : Table Json) (polls : List Poll) :
    Option (State × Option CallEnd) :=
  E.runWithSeedWithTransportCancellable executionId initialResults E.cancellationToken polls

def runWithTransportCancellable (cancel : Option H.CancellationToken) (polls : List Poll) :
    Option (State × Option CallEnd) :=
  E.runWithSeedWithTransportCancellable executionId ∅ cancel polls

def runWithTransport (polls : List Poll) : Option (State × Option CallEnd) :=
  E.runWithTransportCancellable executionId E.cancellationToken polls

/-- The engine after the trigger has been wired, and the seeds of its run. -/
def withTriggerInput (fresh : Uuid) (triggerInput : Json) : Option (CallableEngine H × Table Json) :=
  (E.ensureTriggerNodeWiredToRoots fresh).map fun wired =>
    ({ E with toParallelWorkflowEngine := wired.1 }, (∅ : Table Json).insert wired.2 triggerInput)

def runWithTriggerInputTransportCancellable (fresh : Uuid) (triggerInput : Json)
    (cancel : Option H.CancellationToken) (polls : List Poll) :
    Option (State × Option CallEnd) :=
  match E.withTriggerInput fresh triggerInput with
  | some (wired, seeds) => wired.runWithSeedWithTransportCancellable executionId seeds cancel polls
  | none => some ((E.reactor executionId ∅).initialState ∅, some .panicked)

def runWithTriggerInputTransport (fresh : Uuid) (triggerInput : Json) (polls : List Poll) :
    Option (State × Option CallEnd) :=
  E.runWithTriggerInputTransportCancellable executionId fresh triggerInput E.cancellationToken polls

end CallableEngine

section Checks

variable {E : ParallelWorkflowEngine H}

structure ParallelWorkflowEngine.Ready (E : ParallelWorkflowEngine H) : Prop where
  resolver : E.secretsResolver.isSome
  fetcher : E.hasModuleNode = true → E.moduleFetcher.isSome
  user : E.hasModuleNode = true → E.userId.isSome
  acyclic : E.graph.Acyclic

def ParallelWorkflowEngine.Lacks (E : ParallelWorkflowEngine H) : RunError → Prop
  | .secretsResolverMissing => E.secretsResolver = none
  | .moduleFetcherMissing => E.hasModuleNode = true ∧ E.moduleFetcher = none
  | .userContextRequired => E.hasModuleNode = true ∧ E.userId = none
  | .graphCyclic => ¬ E.graph.Acyclic
  | _ => False

theorem ready_of_precheck (h : E.precheckRunnable = .ok ()) : E.Ready := by
  unfold ParallelWorkflowEngine.precheckRunnable at h
  split at h
  · cases h
  · rename_i hResolver
    split at h
    · cases h
    · rename_i hFetcher
      split at h
      · cases h
      · rename_i hUser
        split at h
        · cases h
        · rename_i hCyclic
          refine ⟨?_, ?_, ?_, ?_⟩
          · simpa [Option.isSome_iff_ne_none] using hResolver
          · intro hModule
            simpa [hModule, Option.isSome_iff_ne_none] using hFetcher
          · intro hModule
            simpa [hModule, Option.isSome_iff_ne_none] using hUser
          · rw [isCyclic_iff, not_not] at hCyclic
            exact hCyclic

theorem lacks_of_precheck {e : RunError} (h : E.precheckRunnable = .error e) : E.Lacks e := by
  unfold ParallelWorkflowEngine.precheckRunnable at h
  split at h
  · rename_i hResolver
    cases h
    exact Option.isNone_iff_eq_none.1 hResolver
  · split at h
    · rename_i hFetcher
      cases h
      rw [Bool.and_eq_true, Option.isNone_iff_eq_none] at hFetcher
      exact hFetcher
    · split at h
      · rename_i hUser
        cases h
        rw [Bool.and_eq_true, Option.isNone_iff_eq_none] at hUser
        exact hUser
      · split at h
        · rename_i hCyclic
          cases h
          exact isCyclic_iff.1 hCyclic
        · cases h

end Checks

section Races

variable {R : Reactor H} {secs : UInt64} {cancel : Option H.CancellationToken} {s t : State}

theorem running_of_not_ended (h : R.ended s = none) : s.status = .running := by
  unfold Reactor.ended Reactor.returned at h
  cases hStatus : s.status with
  | running => rfl
  | paused | failed message | panicked => simp [hStatus] at h

/-- The polls ahead of this one leave the race open, and the scheduler in state `t`. -/
def Reactor.ComesTo (R : Reactor H) (secs : UInt64) (cancel : Option H.CancellationToken)
    (polls : List Poll) (s : State) (poll : Poll) (t : State) : Prop :=
  ∃ earlier later, polls = earlier ++ poll :: later ∧
    R.runWithWorkflowTimeout secs cancel earlier s = some (t, none)

theorem comesTo_first {poll : Poll} {rest : List Poll} :
    R.ComesTo secs cancel (poll :: rest) s poll s :=
  ⟨[], rest, rfl, rfl⟩

/-- How a race over these polls ends: by the last poll it comes to, or by the scheduler. -/
inductive Raced (R : Reactor H) (secs : UInt64) (cancel : Option H.CancellationToken)
    (polls : List Poll) (s t : State) : CallEnd → Prop
  | cancelled (poll : Poll) (hComes : R.ComesTo secs cancel polls s poll t)
      (hRunning : t.status = .running) (hToken : cancel.isSome)
      (hTripped : poll.cancelled = true) :
      Raced R secs cancel polls s t (.returned (.error .cancelled))
  | timeout (poll : Poll) (before : State) (hComes : R.ComesTo secs cancel polls s poll before)
      (hSteps : replay R.step (fun _ _ => True) poll.actions before = some t)
      (hRunning : t.status = .running) (hCap : 0 < secs) (hElapsed : poll.elapsed = true) :
      Raced R secs cancel polls s t (.returned (.error (.timeout secs)))
  | ended (e : CallEnd) (hEnded : R.ended t = some e) : Raced R secs cancel polls s t e

theorem Raced.later {polls : List Poll} {poll : Poll} {mid : State} {e : CallEnd}
    (hOpen : ∀ rest, R.runWithWorkflowTimeout secs cancel (poll :: rest) s =
      R.runWithWorkflowTimeout secs cancel rest mid)
    (h : Raced R secs cancel polls mid t e) : Raced R secs cancel (poll :: polls) s t e := by
  have hComes : ∀ {last u}, R.ComesTo secs cancel polls mid last u →
      R.ComesTo secs cancel (poll :: polls) s last u := by
    rintro last u ⟨earlier, later, rfl, hEarlier⟩
    exact ⟨poll :: earlier, later, rfl, (hOpen earlier).trans hEarlier⟩
  cases h with
  | cancelled last hLast hRunning hToken hTripped =>
      exact .cancelled last (hComes hLast) hRunning hToken hTripped
  | timeout last before hLast hSteps hRunning hCap hElapsed =>
      exact .timeout last before (hComes hLast) hSteps hRunning hCap hElapsed
  | ended _ hEnded => exact .ended e hEnded

/-- The steps of a race make up one run of the scheduler. -/
theorem run_of_race (hAcyclic : R.graph.Acyclic) {polls : List Poll} {e : Option CallEnd}
    (hRunning : s.status = .running)
    (h : R.runWithWorkflowTimeout secs cancel polls s = some (t, e)) :
    Run R.step (fun _ _ => True) s t ∧
      ∀ end', e = some end' → Raced R secs cancel polls s t end' := by
  have hPlain : R.graph.isCyclic = false := by
    rw [← Bool.not_eq_true, isCyclic_iff, not_not]
    exact hAcyclic
  induction polls generalizing s with
  | nil =>
      cases h
      exact ⟨.refl, fun _ h => by cases h⟩
  | cons poll rest ih =>
      rw [Reactor.runWithWorkflowTimeout] at h
      split at h
      · rename_i hCancelled
        cases h
        rw [Bool.and_eq_true] at hCancelled
        refine ⟨.refl, fun _ h => ?_⟩
        cases h
        exact .cancelled poll comesTo_first hRunning hCancelled.1 hCancelled.2
      · rename_i hCancelled
        rw [hPlain, if_neg Bool.false_ne_true] at h
        split at h
        · cases h
        · rename_i mid hMid
          have hFirst := replay_run hMid
          split at h
          · rename_i e' hEnded
            cases h
            refine ⟨hFirst, fun _ h => ?_⟩
            cases h
            exact .ended e' hEnded
          · rename_i hOpen
            have hStill := running_of_not_ended hOpen
            split at h
            · rename_i hElapsed
              cases h
              refine ⟨hFirst, fun _ h => ?_⟩
              cases h
              exact .timeout poll s comesTo_first hMid hStill hElapsed.1 hElapsed.2
            · rename_i hInTime
              obtain ⟨hRest, hEnds⟩ := ih hStill h
              refine ⟨hFirst.trans hRest, fun end' hEnd => (hEnds end' hEnd).later fun others => ?_⟩
              simp only [Reactor.runWithWorkflowTimeout, hCancelled, hPlain, hMid, hOpen, hInTime,
                Bool.false_eq_true, if_false]

/-- A race without a winner has only taken the steps of its polls. -/
theorem replay_of_race {polls : List Poll}
    (h : R.runWithWorkflowTimeout secs cancel polls s = some (t, none)) :
    replay R.step (fun _ _ => True) (polls.flatMap (·.actions)) s = some t := by
  induction polls generalizing s with
  | nil =>
      cases h
      rfl
  | cons poll rest ih =>
      rw [Reactor.runWithWorkflowTimeout] at h
      split at h
      · cases h
      · split at h
        · cases h
        · split at h
          · cases h
          · rename_i mid hMid
            split at h
            · cases h
            · split at h
              · cases h
              · rw [List.flatMap_cons, replay_append hMid]
                exact ih h

end Races

section Calls

variable (E : CallableEngine H) (executionId : Uuid) (initialResults : Table Json)
  (cancel : Option H.CancellationToken)

/-- What the end of a call over these polls says about the engine, the run and the last poll. -/
def CallableEngine.Explains (polls : List Poll) (s : State) : CallEnd → Prop
  | .returned (.ok context) =>
      E.Ready ∧ E.Runs executionId initialResults (fun _ _ _ => True) s ∧
        (E.reactor executionId initialResults).returned s = some (.ok context)
  | .returned (.error (.timeout secs)) =>
      E.Ready ∧ E.Runs executionId initialResults (fun _ _ _ => True) s ∧ s.status = .running ∧
        secs = E.executionTimeoutSecs ∧ 0 < secs ∧
          ∃ earlier poll later before, polls = earlier ++ poll :: later ∧ poll.elapsed = true ∧
            E.runWithSeedWithTransportCancellable executionId initialResults cancel earlier =
              some (before, none) ∧
            replay (E.reactor executionId initialResults).step (fun _ _ => True) poll.actions before =
              some s
  | .returned (.error .cancelled) =>
      E.Ready ∧ E.Runs executionId initialResults (fun _ _ _ => True) s ∧ s.status = .running ∧
        cancel.isSome ∧
          ∃ earlier poll later, polls = earlier ++ poll :: later ∧ poll.cancelled = true ∧
            E.runWithSeedWithTransportCancellable executionId initialResults cancel earlier =
              some (s, none)
  | .returned (.error (.execution message)) =>
      E.Ready ∧ E.Runs executionId initialResults (fun _ _ _ => True) s ∧
        s.status = .failed message
  | .returned (.error e) =>
      E.Lacks e ∧ s = (E.reactor executionId initialResults).initialState initialResults
  | .panicked =>
      E.Ready ∧ E.Runs executionId initialResults (fun _ _ _ => True) s ∧ s.status = .panicked

variable {E executionId initialResults cancel} {polls : List Poll}

theorem explains_of_lacks {s : State} {e : RunError} (hLacks : E.Lacks e)
    (hStart : s = (E.reactor executionId initialResults).initialState initialResults) :
    E.Explains executionId initialResults cancel polls s (.returned (.error e)) := by
  cases e with
  | secretsResolverMissing | moduleFetcherMissing | userContextRequired | graphCyclic =>
      exact ⟨hLacks, hStart⟩
  | timeout | cancelled | execution => cases hLacks

theorem explains_of_ended {s : State} {e : CallEnd} (hReady : E.Ready)
    (hRun : E.Runs executionId initialResults (fun _ _ _ => True) s)
    (hEnded : (E.reactor executionId initialResults).ended s = some e) :
    E.Explains executionId initialResults cancel polls s e := by
  unfold Reactor.ended at hEnded
  split at hEnded
  · rename_i hPanicked
    cases hEnded
    exact ⟨hReady, hRun, hPanicked⟩
  · obtain ⟨result, hReturned, rfl⟩ := Option.map_eq_some_iff.1 hEnded
    cases result with
    | ok context => exact ⟨hReady, hRun, hReturned⟩
    | error message =>
        refine ⟨hReady, hRun, ?_⟩
        unfold Reactor.returned at hReturned
        split at hReturned
        · split at hReturned <;> cases hReturned
        · cases hReturned
        · cases hReturned
          assumption
        · cases hReturned

variable (E executionId initialResults cancel)

/-- The end of a call is what its kind says, whatever the polls find: a context comes from a
scheduler that has returned it, on an engine that passes every check and has no cycle; a failed
check comes before the first step; a cancellation and a timeout come with the poll that finds the
token tripped or the time elapsed. -/
theorem call_end_explained (polls : List Poll) (s : State) (e : CallEnd)
    (hCall : E.runWithSeedWithTransportCancellable executionId initialResults cancel polls =
      some (s, some e)) :
    E.Explains executionId initialResults cancel polls s e := by
  unfold CallableEngine.runWithSeedWithTransportCancellable at hCall
  cases hCheck : E.precheckRunnable with
  | error e' =>
      rw [hCheck] at hCall
      cases hCall
      exact explains_of_lacks (lacks_of_precheck hCheck) rfl
  | ok _ =>
      rw [hCheck] at hCall
      have hReady := ready_of_precheck hCheck
      obtain ⟨hSteps, hRaced⟩ := run_of_race (R := E.reactor executionId initialResults)
        hReady.acyclic rfl hCall
      have hRun : E.Runs executionId initialResults (fun _ _ _ => True) s :=
        ⟨hReady.acyclic, hSteps⟩
      have hOpen : ∀ earlier t, (E.reactor executionId initialResults).runWithWorkflowTimeout
          E.executionTimeoutSecs cancel earlier
          ((E.reactor executionId initialResults).initialState initialResults) = some (t, none) →
            E.runWithSeedWithTransportCancellable executionId initialResults cancel earlier =
              some (t, none) := by
        intro earlier t hEarlier
        unfold CallableEngine.runWithSeedWithTransportCancellable
        rw [hCheck]
        exact hEarlier
      cases hRaced e rfl with
      | cancelled poll hComes hRunning hToken hTripped =>
          obtain ⟨earlier, later, hPolls, hEarlier⟩ := hComes
          exact ⟨hReady, hRun, hRunning, hToken, earlier, poll, later, hPolls, hTripped,
            hOpen earlier s hEarlier⟩
      | timeout poll before hComes hSteps hRunning hCap hElapsed =>
          obtain ⟨earlier, later, hPolls, hEarlier⟩ := hComes
          exact ⟨hReady, hRun, hRunning, rfl, hCap, earlier, poll, later, before, hPolls, hElapsed,
            hOpen earlier before hEarlier, hSteps⟩
      | ended _ hEnded => exact explains_of_ended hReady hRun hEnded

/-- A call that is polled to some effect returns: over all polls that leave it open, the scheduler
takes at most `stepBound` steps. -/
theorem open_call_bounded (polls : List Poll) (s : State)
    (hCall : E.runWithSeedWithTransportCancellable executionId initialResults cancel polls =
      some (s, none)) :
    (polls.map fun poll => poll.actions.length).sum ≤ E.stepBound executionId initialResults := by
  unfold CallableEngine.runWithSeedWithTransportCancellable at hCall
  cases hCheck : E.precheckRunnable with
  | error e =>
      rw [hCheck] at hCall
      cases hCall
  | ok _ =>
      rw [hCheck] at hCall
      have hReplay := replay_of_race hCall
      have hLength := steps_le_stepBound (ready_of_precheck hCheck).acyclic hReplay
      rwa [List.length_flatMap] at hLength

end Calls

section Samples

/-- A module in front of a collecting node, with a deadline of five seconds. -/
def cappedEngine : CallableEngine (bareHost true) :=
  { ParallelWorkflowEngine.new with
    graph := ⟨[21, 22], [⟨0, 1, {}⟩], by decide⟩
    nodeMeta := nodeTable [(21, moduleNode), (22, systemNode .collect)]
    secretsResolver := some
      { resolveModuleSecrets := fun _ => .ok ∅
        resolveByPaths := fun _ _ => .ok ∅
        resolveLlmKeys := fun _ => .ok ∅ }
    moduleFetcher := some { fetch := fun _ _ => .error "no such module" }
    userId := some 4
    executionTimeoutSecs := 5 }

/-- The module is dispatched, and its future does not return in time. -/
def latePolls : List Poll := [⟨false, [.pop .accepted], false⟩, ⟨false, [], true⟩]

def CallEnd.error? : CallEnd → Option RunError
  | .returned (.error e) => some e
  | _ => none

theorem call_end_explained_timeout :
    ∃ s e, cappedEngine.runWithTransport 9 latePolls = some (s, some e) ∧
      e.error? = some (.timeout 5) ∧
        cappedEngine.Explains 9 ∅ cappedEngine.cancellationToken latePolls s e := by
  have hView : (cappedEngine.runWithTransport 9 latePolls).map
      (fun result => result.2.bind CallEnd.error?) = some (some (.timeout 5)) := by
    decide
  obtain ⟨⟨s, e⟩, hCall, hError⟩ := Option.map_eq_some_iff.1 hView
  obtain ⟨e, rfl, hError⟩ := Option.bind_eq_some_iff.1 hError
  exact ⟨s, e, hCall, hError, call_end_explained cappedEngine 9 ∅ _ latePolls s e hCall⟩

theorem open_call_bounded_in_flight :
    ∃ s, cappedEngine.runWithTransport 9 [⟨false, [.pop .accepted], false⟩] = some (s, none) ∧
      1 ≤ cappedEngine.stepBound 9 ∅ := by
  have hView : (cappedEngine.runWithTransport 9 [⟨false, [.pop .accepted], false⟩]).map
      (fun result => result.2.isNone) = some true := by
    decide
  obtain ⟨⟨s, e⟩, hCall, hOpen⟩ := Option.map_eq_some_iff.1 hView
  rw [Option.isNone_iff_eq_none] at hOpen
  subst hOpen
  exact ⟨s, hCall, open_call_bounded cappedEngine 9 ∅ _ _ s hCall⟩

/-- A cap below one second is no cap. -/
example (E : CallableEngine H) : (E.setExecutionTimeout (some 999999999)).executionTimeoutSecs = 0 :=
  rfl

end Samples

end TalosWorkflow
