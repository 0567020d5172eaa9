import Gcit.Flow.Retries
import Gcit.Poll.Cooldown
import Gcit.Supervisor.PollTask
import Gcit.Supervisor.Seeds

/-! # A trigger that a reload cut off

While the quota is used up, the dispatcher holds a trigger back, and a reload
ends the wait with `Cancelled`. The text of that error leaves the commit to the
next generation. That generation compares with the SHA it reads from the mirror,
and the poll loop has sent the observation of the commit right behind the
trigger: once the writer has published it, the commit is no change any more.
-/

namespace Gcit.Supervisor

open Std Gcit Gcit.Git Gcit.Poll Gcit.Library Gcit.Github Gcit.Flow

section Cancelled

variable (crates : DispatchCrates) (params : FlowDispatchParams) (trigger : TriggerSignal)
  (env : TriggerEnv)

/-- The call ends in `Cancelled`, and none of its attempts got as far as a POST. -/
def CutOff : Prop :=
  ∃ dp, dispatchParams crates params trigger env = .ok dp ∧
    dispatchWithRetry crates.http params.client dp DISPATCH_MAX_ATTEMPTS env.attempts =
      some (.error .cancelled) ∧
    ∀ a ∈ attemptsOf crates params env dp, (dispatchRequest crates.http dp a).isOk = false

variable {crates params trigger env}

theorem CutOff.handleTrigger_eq (h : CutOff crates params trigger env) :
    handleTrigger crates params trigger env =
      some ⟨none, none, .error (.fromGithubError crates.formats "dispatch" .cancelled)⟩ := by
  obtain ⟨dp, hdp, hcancelled, -⟩ := h
  simp only [handleTrigger, hdp, executeDispatchAndCorrelate, execute, hcancelled, Option.map_some]

theorem CutOff.createdRuns_eq (h : CutOff crates params trigger env) :
    createdRuns crates params trigger env = 0 := by
  obtain ⟨dp, hdp, -, hunsent⟩ := h
  simp only [createdRuns, hdp]
  rw [List.countP_eq_zero]
  intro a ha
  simp [createsRun, hunsent a ha]

end Cancelled

def publishedSha (disk : Option State) (d : Daemon) (f : String) : Option ObjectId :=
  recordedSha ((Writer.loadOrInit disk).applyAll (d.ledger.received.take d.ledger.published)) f

variable {crates : Crates}

theorem seed_eq_publishedSha {config : Config} {disk : Option State} {now : DateTime}
    {observed : List Observation} {events : List Event} {d d' : Daemon} {e : Event}
    (hrun : Transition.run (Daemon.step crates) (boot config disk now observed) events = some d)
    (hspawn : d.step crates e = some d') {t : Task} (ht : t ∈ d'.runtime.joinSet)
    (hnew : t.token = d.runtime.nextToken) : t.initialLastSha = publishedSha disk d t.flow := by
  obtain ⟨-, hseed⟩ := (Fresh.run crates hrun).spawned (Daemon.step_change hspawn) ht hnew
  have hmirror : Writer.MirrorTracks (Writer.loadOrInit disk) d.writer d.ledger :=
    (Delivers.run crates hrun).mirror
  have hvalue : d.writer.mirror.value = (Writer.loadOrInit disk).applyAll
      (d.ledger.received.take d.ledger.published) := hmirror.mirror
  rw [hseed, readPersistedLastSha_eq hmirror.unpoisoned, hvalue]
  rfl

theorem compareSha_trigger {last : Option ObjectId} {s : ObjectId} :
    (compareSha last s).trigger = true ↔ ∃ old, last = some old ∧ old ≠ s := by
  cases last with
  | none => simp [compareSha]
  | some old => simp [compareSha]

/-- A call for the commit `s` is cut off before its first POST. Whenever a
generation of the flow is started later and the upstream keeps `s`, its first
successful cycle past the cooldown window emits a trigger for `s` if and only if
the state that the writer had published by the start shows another SHA, and the
cycle looks the ref up. -/
theorem cancelled_trigger_fires_again_iff (dispatch : DispatchCrates) (params : FlowDispatchParams)
    (trigger : TriggerSignal) (env : TriggerEnv) (crates : Crates) (config : Config)
    (disk : Option State) (now : DateTime) (observed : List Observation) (events : List Event)
    (e : Event) (d d' : Daemon) (t : Task) (lastErrors : LastErrors) (cycles : List PollEvent)
    (l l' : Loop) (net : Network) (at_ : DateTime) (o : PollOutcome)
    (hcut : CutOff dispatch params trigger env)
    (hrun : Transition.run (Daemon.step crates) (boot config disk now observed) events = some d)
    (hspawn : d.step crates e = some d') (ht : t ∈ d'.runtime.joinSet)
    (hnew : t.token = d.runtime.nextToken) (hflow : t.flow = params.flowName)
    (hloop : Transition.run (Loop.step crates.toUrlCrates t.buildPollParams)
      (.start t.initialLastSha t.initialLastDispatchedAt lastErrors) cycles = some l)
    (hwaiting : Transition.Along (Loop.step crates.toUrlCrates t.buildPollParams)
      (Loop.Waiting crates.toUrlCrates t.buildPollParams trigger.observedSha)
      (.start t.initialLastSha t.initialLastDispatchedAt lastErrors) cycles)
    (hkeeps : KeepsSha trigger.observedSha net)
    (hcooled : isCooledDown l.lastDispatchedAt at_ t.effective.cooldown = true)
    (hok : (l.pollCycle crates.toUrlCrates t.buildPollParams net).1 = .ok o)
    (hstep : l.step crates.toUrlCrates t.buildPollParams (.polled net at_) = some l') :
    handleTrigger dispatch params trigger env =
        some ⟨none, none, .error (.fromGithubError dispatch.formats "dispatch" .cancelled)⟩ ∧
      createdRuns dispatch params trigger env = 0 ∧
      ((∃ observation, l'.pc = .sendTrigger ⟨trigger.observedSha, at_⟩ observation) ↔
        (∃ old, publishedSha disk d params.flowName = some old ∧ old ≠ trigger.observedSha) ∧
          Loop.LooksUp crates.toUrlCrates t.buildPollParams l net) := by
  refine ⟨hcut.handleTrigger_eq, hcut.createdRuns_eq, ?_⟩
  have hstart : Loop.Standing trigger.observedSha
      (compareSha t.initialLastSha trigger.observedSha).trigger
      (.start t.initialLastSha t.initialLastDispatchedAt lastErrors) := ⟨rfl, trivial⟩
  have hstanding := Transition.invariant_along (fun _ _ _ h hw hs => Loop.standing_step h hw hs)
    hstart hwaiting hloop
  rw [Loop.cooled_cycle_fires_iff hkeeps hcooled hok hstep, hstanding.change, compareSha_trigger,
    seed_eq_publishedSha hrun hspawn ht hnew, hflow]

def linuxFlow : FlowConfig := kernelFlow "linux" "linux.git" "refs/heads/master"

/-- The reload gives the flow another workflow; its source stays. -/
def nightlyFlow : FlowConfig := { linuxFlow with action.workflow := "nightly.yml" }

def linuxPoll : PollParams where
  flowName := "linux"
  url := kernelTree "linux.git"
  refName := "refs/heads/master"
  effectivePoll := effectivePoll {} {} .grokmirror
  rateBucket := true
  octo := true
  reqwest := true

def masterAt (fp : String) (n : Fin 16) : Network := manifestCycle fp (.ok (.refreshed (.repeated n)))

def movedTrigger : TriggerSignal := ⟨.repeated 11, seconds 10⟩

def movedObservation : StateUpdate :=
  .pollObservation "linux" (.repeated 11) (seconds 10) (some (seconds 10)) (some (seconds 310))

/-- The quota is used up until its reset, and the token is cancelled during the wait. -/
def deferredAttempt : Attempt :=
  { attemptAt (seconds 10) accepted true with
    snapshot := ⟨some 0, some 5000, some (seconds 1000), some (seconds 10)⟩
    cancelWins := true }

def deferredCall : TriggerEnv := callAt (.repeated 1) [deferredAttempt] []

theorem cutOff_deferredCall : CutOff plainCrates mainFlow movedTrigger deferredCall :=
  ⟨⟨"owner/repo", "ci.yml", "refs/heads/main", .repeated 1, ∅⟩, rfl, rfl, by decide +kernel⟩

/-- The head is recorded, moves, and is observed again; the writer gets this far
before the reload, which then comes up to the spawn. -/
def cutOffRun (published : List Event) : List Event :=
  [.spawnNext .ready, .finalize,
    .observe (0, .poll) (.pollObservation "linux" (.repeated 10) 0 none none)] ++ writerRound ++
  [.tick (seconds 10), .observe (0, .poll) movedObservation] ++ published ++
  [.reload (.ok (oneFlow nightlyFlow)), .finish (0, .poll) .returned,
    .finish (0, .dispatcher) .returned, .drainJoin (0, .poll), .drainJoin (0, .dispatcher),
    .drainDone, .pushConfig]

def respawned (initialLastSha : ObjectId) (initialLastDispatchedAt : Option DateTime) : Task :=
  ⟨nightlyFlow, .poll, 1, effectivePoll {} {} .grokmirror, some initialLastSha,
    initialLastDispatchedAt, none⟩

/-- The writer has not published the observation when the flow is started again. -/
theorem cancelled_trigger_fires_again :
    ∃ d d' l l' observation, Transition.run (Daemon.step kernelCrates) (boot (oneFlow linuxFlow) none 0 [])
        (cutOffRun []) = some d ∧
      d.step kernelCrates (.spawnNext .ready) = some d' ∧
      respawned (.repeated 10) none ∈ d'.runtime.joinSet ∧
      Transition.run (Loop.step kernelCrates.toUrlCrates linuxPoll)
        (.start (some (.repeated 10)) none ∅) [.wake, .acquired] = some l ∧
      l.step kernelCrates.toUrlCrates linuxPoll (.polled (masterAt "ab" 11) (seconds 400)) = some l' ∧
      l'.pc = .sendTrigger ⟨.repeated 11, seconds 400⟩ observation := by
  obtain ⟨d, hrun, d', hspawn, hmem, hnew, hpublished⟩ :
      ∃ d ∈ Transition.run (Daemon.step kernelCrates) (boot (oneFlow linuxFlow) none 0 [])
        (cutOffRun []), ∃ d' ∈ d.step kernelCrates (.spawnNext .ready),
        respawned (.repeated 10) none ∈ d'.runtime.joinSet ∧ 1 = d.runtime.nextToken ∧
        publishedSha none d "linux" = some (.repeated 10) := by
    decide +kernel
  obtain ⟨-, -, hfires⟩ := cancelled_trigger_fires_again_iff plainCrates mainFlow movedTrigger
    deferredCall kernelCrates (oneFlow linuxFlow) none 0 [] (cutOffRun []) (.spawnNext .ready) d d'
    (respawned (.repeated 10) none) ∅ [.wake, .acquired] _ _ (masterAt "ab" 11) (seconds 400)
    (.refreshed (.repeated 11)) cutOff_deferredCall hrun hspawn hmem hnew rfl rfl
    ⟨trivial, trivial, trivial⟩ ⟨by simp [masterAt, manifestCycle], by
      simp [masterAt, manifestCycle, movedTrigger]⟩ (by decide +kernel) (by decide +kernel) rfl
  obtain ⟨observation, hpc⟩ := hfires.mpr
    ⟨⟨.repeated 10, hpublished, by decide⟩, .inr ⟨"ab", by decide +kernel, by decide +kernel⟩⟩
  exact ⟨d, d', _, _, observation, hrun, hspawn, hmem, rfl, rfl, hpc⟩

/-- The whole story of one swallowed commit: the loop emits the trigger and sends
its observation, the dispatcher takes the trigger, the reload cuts it off, and the
next generation, seeded with the observed SHA, sees no change. -/
theorem cancelled_trigger_is_swallowed :
    (∃ p, Transition.run (Pair.step kernelCrates.toUrlCrates linuxPoll) (.start none none ∅)
        [.poll .wake, .poll .acquired, .poll (.polled (masterAt "aa" 10) 0),
          .poll (.stateAccepted 0), .poll .wake, .poll .acquired,
          .poll (.polled (masterAt "ab" 11) (seconds 10)), .poll .triggerAccepted, .receive,
          .poll (.stateAccepted (seconds 10)), .cancel] = some p ∧
      p.handled = [⟨movedTrigger, some 0⟩] ∧ p.observed = [(0, movedObservation)] ∧
      p.cancelled = true ∧ p.dispatcher = .handling) ∧
    CutOff plainCrates mainFlow movedTrigger deferredCall ∧
    ∃ d d' l l', Transition.run (Daemon.step kernelCrates) (boot (oneFlow linuxFlow) none 0 [])
        (cutOffRun writerRound) = some d ∧
      d.step kernelCrates (.spawnNext .ready) = some d' ∧
      respawned (.repeated 11) (some (seconds 10)) ∈ d'.runtime.joinSet ∧
      Transition.run (Loop.step kernelCrates.toUrlCrates linuxPoll)
        (.start (some (.repeated 11)) (some (seconds 10)) ∅) [.wake, .acquired] = some l ∧
      KeepsSha (.repeated 11) (masterAt "ab" 11) ∧
      isCooledDown l.lastDispatchedAt (seconds 400) linuxPoll.effectivePoll.cooldown = true ∧
      (l.pollCycle kernelCrates.toUrlCrates linuxPoll (masterAt "ab" 11)).1 =
        .ok (.refreshed (.repeated 11)) ∧
      l.step kernelCrates.toUrlCrates linuxPoll (.polled (masterAt "ab" 11) (seconds 400)) = some l' ∧
      ¬ ∃ signal observation, l'.pc = .sendTrigger signal observation := by
  have hpair : ∃ p ∈ Transition.run (Pair.step kernelCrates.toUrlCrates linuxPoll) (.start none none ∅)
        [.poll .wake, .poll .acquired, .poll (.polled (masterAt "aa" 10) 0),
          .poll (.stateAccepted 0), .poll .wake, .poll .acquired,
          .poll (.polled (masterAt "ab" 11) (seconds 10)), .poll .triggerAccepted, .receive,
          .poll (.stateAccepted (seconds 10)), .cancel],
      p.handled = [⟨movedTrigger, some 0⟩] ∧ p.observed = [(0, movedObservation)] ∧
        p.cancelled = true ∧ p.dispatcher = .handling := by
    decide +kernel
  obtain ⟨d, hrun, d', hspawn, hmem⟩ :
      ∃ d ∈ Transition.run (Daemon.step kernelCrates) (boot (oneFlow linuxFlow) none 0 [])
        (cutOffRun writerRound), ∃ d' ∈ d.step kernelCrates (.spawnNext .ready),
        respawned (.repeated 11) (some (seconds 10)) ∈ d'.runtime.joinSet := by
    decide +kernel
  refine ⟨hpair, cutOff_deferredCall, d, d', _, _, hrun, hspawn, hmem, rfl,
    ⟨by simp [masterAt, manifestCycle], by simp [masterAt, manifestCycle]⟩, by decide +kernel,
    by decide +kernel, rfl, ?_⟩
  rintro ⟨signal, observation, hpc⟩
  cases hpc

end Gcit.Supervisor
