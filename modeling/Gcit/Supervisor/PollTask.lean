import Gcit.Supervisor.Daemon

/-! # The loop behind a poll task

The daemon knows a poll task by what it may send. Opened up, the task is the poll
loop, started with the parameters and the seed of its spawn. Whatever that loop
hands to the state queue is a step the daemon has for the task, so what holds
over all runs of the daemon holds of the daemon with the loops inside.
-/

namespace Gcit.Supervisor

open Std Gcit Gcit.Git Gcit.Poll Gcit.Library Gcit.Library.Channel

def Task.buildPollParams (t : Task) : PollParams where
  flowName := t.flow
  url := t.config.source.url
  refName := t.config.source.refName
  effectivePoll := t.effective
  rateBucket := true
  octo := true
  reqwest := true

def pendingUpdate : Poll.Pc → Option StateUpdate
  | .sendTrigger _ update | .sendObservation _ update | .sendState update _ => some update
  | _ => none

def SendsOwn (params : PollParams) (l : Loop) : Prop :=
  ∀ u, pendingUpdate l.pc = some u → u.flow = params.flowName ∧ Daemon.isPollUpdate u = true

variable {urls : UrlCrates} {params : PollParams} {l l' : Loop}

theorem sendsOwn_of_idle (h : pendingUpdate l.pc = none) : SendsOwn params l := by
  intro u hu
  rw [h] at hu
  cases hu

theorem handleOutcome_sendsOwn (now : DateTime) (outcome : PollOutcome) {u : StateUpdate}
    (h : pendingUpdate (l.handleOutcome params now outcome) = some u) :
    u.flow = params.flowName ∧ Daemon.isPollUpdate u = true := by
  cases outcome with
  | refreshed sha =>
    simp only [Loop.handleOutcome, Loop.handleRefreshed] at h
    split at h
    · split at h <;> cases h <;> exact ⟨rfl, rfl⟩
    · cases h
      exact ⟨rfl, rfl⟩
  | unchanged | unbornRef =>
    cases h
    exact ⟨rfl, rfl⟩

theorem afterPoll_sendsOwn (now : DateTime)
    (result : Except PollCycleError PollOutcome × Option String) :
    SendsOwn params (l.afterPoll params now result) := by
  obtain ⟨result, fingerprint⟩ := result
  cases result with
  | error e =>
    cases e with
    | cancelled | failed => exact sendsOwn_of_idle rfl
  | ok outcome => exact fun u hu => handleOutcome_sendsOwn now outcome hu

theorem step_sendsOwn {e : PollEvent} (h : SendsOwn params l)
    (hstep : l.step urls params e = some l') : SendsOwn params l' := by
  cases e with
  | wake | acquired =>
    simp only [Loop.step, Option.ite_none_right_eq_some, Option.some.injEq] at hstep
    obtain ⟨-, rfl⟩ := hstep
    exact sendsOwn_of_idle rfl
  | polled net now =>
    simp only [Loop.step, Option.ite_none_right_eq_some, Option.some.injEq] at hstep
    obtain ⟨-, rfl⟩ := hstep
    exact afterPoll_sendsOwn now _
  | triggerAccepted =>
    -- the observation that waited behind the trigger is the one now being sent
    cases hpc : l.pc with
    | sendTrigger signal observation =>
      simp only [Loop.step, hpc, Option.some.injEq] at hstep
      subst hstep
      exact fun u hu => h u (by rw [hpc]; exact hu)
    | _ => simp [Loop.step, hpc] at hstep
  | cancelled | triggerClosed | stateAccepted | stateClosed =>
    -- the loop goes back to sleep or exits
    have hidle : pendingUpdate l'.pc = none := by
      cases hpc : l.pc <;> simp only [Loop.step, hpc] at hstep <;> grind [pendingUpdate]
    exact sendsOwn_of_idle hidle

theorem run_sendsOwn {lastSha : Option ObjectId} {lastDispatchedAt : Option DateTime}
    {lastErrors : LastErrors} {events : List PollEvent}
    (hrun : Transition.run (Loop.step urls params)
      (Loop.start lastSha lastDispatchedAt lastErrors) events = some l) : SendsOwn params l :=
  Transition.invariant_run (fun _ _ _ h hstep => step_sendsOwn h hstep) (sendsOwn_of_idle rfl) hrun

/-- Wherever the loop of a running poll task has come to, the daemon can take the
update it sends as soon as the queue has room, and learns what was observed at
the source the task polls. -/
theorem Daemon.observe_of_loop {crates : Crates} {d : Daemon} {id : Token × FlowRole} {t : Task}
    (ht : d.pollTask? id = some t) {lastErrors : LastErrors} {events : List PollEvent}
    (hrun : Transition.run (Loop.step crates.toUrlCrates t.buildPollParams)
      (Loop.start t.initialLastSha t.initialLastDispatchedAt lastErrors) events = some l)
    {u : StateUpdate} (hu : pendingUpdate l.pc = some u)
    {queue : Mpsc StateUpdate STATE_QUEUE} (hqueue : d.stateQueue.send? u = some queue) :
    d.step crates (.observe id u) = some { d with
      stateQueue := queue
      sent := d.sent ++ [u]
      observed := d.observed ++ Daemon.observations t u } := by
  obtain ⟨hflow, hpoll⟩ := run_sendsOwn hrun u hu
  have hown : u.flow = t.flow ∧ Daemon.isPollUpdate u = true := ⟨hflow, hpoll⟩
  simp only [Daemon.step, ht, Option.bind_some, if_pos hown, Daemon.send?, hqueue,
    Option.map_some, Daemon.noteObservation]

end Gcit.Supervisor
