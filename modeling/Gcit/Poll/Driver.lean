import Gcit.Poll.Loop

/-! # The poll loop under an arbitrary executor

`run_with_executor` is generic in the executor: a cycle may return any outcome at
any time. `Loop.drive` takes that outcome from the event; the production loop is
the case where the outcome is that of `pollOne`. A trace keeps what the two
channels accepted, in order.
-/

namespace Gcit.Poll

open Gcit Gcit.Git Gcit.Library

inductive DriveEvent where
  | wake
  | acquired
  | cancelled
  | cycled (result : Except PollCycleError PollOutcome × Option String) (now : DateTime)
  | triggerAccepted
  | triggerClosed
  | stateAccepted (now : DateTime)
  | stateClosed

inductive Output where
  | trigger (signal : TriggerSignal)
  | update (u : StateUpdate)
  deriving DecidableEq

namespace Loop

variable (urls : UrlCrates) (params : PollParams)

def drive (l : Loop) : DriveEvent → Option Loop
  | .wake => if l.pc = .sleeping then some { l with pc := .acquiring } else none
  | .acquired => if l.pc = .acquiring then some { l with pc := .polling } else none
  | .cancelled => match l.pc with
    | .sleeping => some { l with pc := .exited }
    | .acquiring => if params.rateBucket then some { l with pc := .exited } else none
    | .sendTrigger .. => some { l with pc := .exited }
    | _ => none
  | .cycled result now => if l.pc = .polling then some (l.afterPoll params now result) else none
  | .triggerAccepted => match l.pc with
    | .sendTrigger signal observation => some { l with pc := .sendObservation signal observation }
    | _ => none
  | .triggerClosed => match l.pc with
    | .sendTrigger .. => some { l with pc := .exited }
    | _ => none
  | .stateAccepted now => match l.pc with
    | .sendObservation signal _ => some { l.finishTrigger params signal with pc := .sleeping }
    | .sendState _ next => some { l.finishArm params now next with pc := .sleeping }
    | _ => none
  | .stateClosed => match l.pc with
    | .sendObservation .. => some { l with pc := .exited }
    | .sendState .. => some { l with pc := .exited }
    | _ => none

def driveEvent (l : Loop) : PollEvent → DriveEvent
  | .wake => .wake
  | .acquired => .acquired
  | .cancelled => .cancelled
  | .polled net now => .cycled (l.pollCycle urls params net) now
  | .triggerAccepted => .triggerAccepted
  | .triggerClosed => .triggerClosed
  | .stateAccepted now => .stateAccepted now
  | .stateClosed => .stateClosed

theorem step_eq_drive (l : Loop) (e : PollEvent) :
    l.step urls params e = l.drive params (l.driveEvent urls params e) := by
  cases e <;> rfl

def output (l : Loop) : DriveEvent → List Output
  | .triggerAccepted => match l.pc with
    | .sendTrigger signal _ => [.trigger signal]
    | _ => []
  | .stateAccepted _ => match l.pc with
    | .sendObservation _ update => [.update update]
    | .sendState update _ => [.update update]
    | _ => []
  | _ => []

end Loop

/-- The loop has nothing to hand to a channel. -/
def Pc.Idle : Pc → Prop
  | .sendTrigger .. | .sendObservation .. | .sendState .. => False
  | _ => True

/-- Everything a step of the loop does to what it remembers and to the channels. -/
inductive Moves (params : PollParams) (l l' : Loop) : DriveEvent → List Output → Prop where
  | quiet {e : DriveEvent} (hpc : l'.pc.Idle)
      (hlost : ∀ signal u, l.pc = .sendObservation signal u → l'.pc = .exited)
      (hlive : l.pc ≠ .exited)
      (hsha : l'.lastSha = l.lastSha) (hat : l'.lastDispatchedAt = l.lastDispatchedAt) :
      Moves params l l' e []
  | fire {result : Except PollCycleError PollOutcome × Option String} {now : DateTime}
      {sha old : ObjectId} {until_ : Option DateTime} (hpoll : l.pc = .polling)
      (hold : l.lastSha = some old) (hne : old ≠ sha)
      (hcool : isCooledDown l.lastDispatchedAt now params.effectivePoll.cooldown = true)
      (hpc : l'.pc = .sendTrigger ⟨sha, now⟩
        (.pollObservation params.flowName sha now (some now) until_))
      (hsha : l'.lastSha = l.lastSha) (hat : l'.lastDispatchedAt = l.lastDispatchedAt) :
      Moves params l l' (.cycled result now) []
  | observe {result : Except PollCycleError PollOutcome × Option String} {now : DateTime}
      {sha : ObjectId} (hpoll : l.pc = .polling)
      (hsame : l.lastSha = none ∨ l.lastSha = some sha)
      (hpc : l'.pc = .sendState (.pollObservation params.flowName sha now none none) (.advance sha))
      (hsha : l'.lastSha = l.lastSha) (hat : l'.lastDispatchedAt = l.lastDispatchedAt) :
      Moves params l l' (.cycled result now) []
  | refresh {result : Except PollCycleError PollOutcome × Option String} {now : DateTime}
      {next : AfterSend} (hpoll : l.pc = .polling) (hnext : next = .keep ∨ next = .unborn)
      (hpc : l'.pc = .sendState (.pollTimestamp params.flowName now) next)
      (hsha : l'.lastSha = l.lastSha) (hat : l'.lastDispatchedAt = l.lastDispatchedAt) :
      Moves params l l' (.cycled result now) []
  | accept {signal : TriggerSignal} {u : StateUpdate} (hpc : l.pc = .sendTrigger signal u)
      (hpc' : l'.pc = .sendObservation signal u)
      (hsha : l'.lastSha = l.lastSha) (hat : l'.lastDispatchedAt = l.lastDispatchedAt) :
      Moves params l l' .triggerAccepted [.trigger signal]
  | confirm {signal : TriggerSignal} {u : StateUpdate} {now : DateTime}
      (hpc : l.pc = .sendObservation signal u) (hpc' : l'.pc = .sleeping)
      (hsha : l'.lastSha = some signal.observedSha)
      (hat : l'.lastDispatchedAt = some signal.observedAt) :
      Moves params l l' (.stateAccepted now) [.update u]
  | advance {u : StateUpdate} {sha : ObjectId} {now : DateTime}
      (hpc : l.pc = .sendState u (.advance sha)) (hpc' : l'.pc = .sleeping)
      (hsha : l'.lastSha = some sha) (hat : l'.lastDispatchedAt = l.lastDispatchedAt) :
      Moves params l l' (.stateAccepted now) [.update u]
  | keep {u : StateUpdate} {next : AfterSend} {now : DateTime} (hpc : l.pc = .sendState u next)
      (hnext : next = .keep ∨ next = .unborn) (hpc' : l'.pc = .sleeping)
      (hsha : l'.lastSha = l.lastSha) (hat : l'.lastDispatchedAt = l.lastDispatchedAt) :
      Moves params l l' (.stateAccepted now) [.update u]

namespace Loop

variable {params : PollParams} {l l' : Loop}

theorem maybeClearLastError_fields (params : PollParams) (l : Loop) :
    (l.maybeClearLastError params).lastSha = l.lastSha ∧
      (l.maybeClearLastError params).lastDispatchedAt = l.lastDispatchedAt := by
  unfold maybeClearLastError
  split <;> exact ⟨rfl, rfl⟩

theorem handleOutcome_moves {result : Except PollCycleError PollOutcome × Option String}
    {now : DateTime} (outcome : PollOutcome) (hpoll : l.pc = .polling)
    (hpc : l'.pc = l.handleOutcome params now outcome) (hsha : l'.lastSha = l.lastSha)
    (hat : l'.lastDispatchedAt = l.lastDispatchedAt) :
    Moves params l l' (.cycled result now) [] := by
  cases outcome with
  | refreshed sha =>
    simp only [handleOutcome, handleRefreshed] at hpc
    cases hlast : l.lastSha with
    | none =>
      rw [hlast] at hpc
      exact .observe hpoll (.inl hlast) hpc hsha hat
    | some old =>
      rw [hlast] at hpc
      rcases eq_or_ne old sha with rfl | hne
      · simp only [compareSha, bne_self_eq_false, Bool.false_eq_true, if_false] at hpc
        exact .observe hpoll (.inr hlast) hpc hsha hat
      · have htrigger : (compareSha (some old) sha).trigger = true := by simpa [compareSha] using hne
        rw [if_pos htrigger] at hpc
        split at hpc
        · next hcool => exact .fire hpoll hlast hne hcool hpc hsha hat
        · exact .refresh hpoll (.inl rfl) hpc hsha hat
  | unchanged => exact .refresh hpoll (.inl rfl) hpc hsha hat
  | unbornRef => exact .refresh hpoll (.inr rfl) hpc hsha hat

theorem afterPoll_moves {result : Except PollCycleError PollOutcome × Option String}
    {now : DateTime} (hpoll : l.pc = .polling) (hl' : l.afterPoll params now result = l') :
    Moves params l l' (.cycled result now) [] := by
  obtain ⟨result, fingerprint⟩ := result
  subst hl'
  cases result with
  | error e =>
    cases e with
    | cancelled => exact .quiet trivial (by simp [hpoll]) (by simp [hpoll]) rfl rfl
    | failed message => exact .quiet trivial (by simp [hpoll]) (by simp [hpoll]) rfl rfl
  | ok outcome => exact handleOutcome_moves outcome hpoll rfl rfl rfl

theorem finishArm_moves {u : StateUpdate} {next : AfterSend} {now : DateTime}
    (hpc : l.pc = .sendState u next)
    (hl' : { l.finishArm params now next with pc := .sleeping } = l') :
    Moves params l l' (.stateAccepted now) [.update u] := by
  subst hl'
  cases next with
  | advance sha =>
    obtain ⟨hsha, hat⟩ := maybeClearLastError_fields params
      { l with lastSha := some sha }
    exact .advance hpc rfl hsha hat
  | keep =>
    obtain ⟨hsha, hat⟩ := maybeClearLastError_fields params l
    exact .keep hpc (.inl rfl) rfl hsha hat
  | unborn => exact .keep hpc (.inr rfl) rfl rfl rfl

theorem drive_moves {e : DriveEvent} (h : l.drive params e = some l') :
    Moves params l l' e (l.output e) := by
  cases e with
  | wake =>
    obtain ⟨hpc, rfl⟩ := Transition.guard_eq_some.mp h
    exact .quiet trivial (by simp [hpc]) (by simp [hpc]) rfl rfl
  | acquired =>
    obtain ⟨hpc, rfl⟩ := Transition.guard_eq_some.mp h
    exact .quiet trivial (by simp [hpc]) (by simp [hpc]) rfl rfl
  | cancelled =>
    cases hpc : l.pc <;> simp only [drive, hpc] at h
    case sleeping | sendTrigger =>
      cases h
      exact .quiet trivial (by simp [hpc]) (by simp [hpc]) rfl rfl
    case acquiring =>
      obtain ⟨-, rfl⟩ := Transition.guard_eq_some.mp h
      exact .quiet trivial (by simp [hpc]) (by simp [hpc]) rfl rfl
    all_goals cases h
  | cycled result now =>
    obtain ⟨hpc, hl'⟩ := Transition.guard_eq_some.mp h
    exact afterPoll_moves hpc hl'
  | triggerAccepted =>
    cases hpc : l.pc <;> simp only [drive, hpc] at h
    case sendTrigger signal u =>
      cases h
      simp only [output, hpc]
      exact .accept hpc rfl rfl rfl
    all_goals cases h
  | triggerClosed =>
    cases hpc : l.pc <;> simp only [drive, hpc] at h
    case sendTrigger =>
      cases h
      exact .quiet trivial (by simp [hpc]) (by simp [hpc]) rfl rfl
    all_goals cases h
  | stateAccepted now =>
    cases hpc : l.pc <;> simp only [drive, hpc] at h
    case sendObservation signal u =>
      cases h
      simp only [output, hpc]
      obtain ⟨hsha, hat⟩ := maybeClearLastError_fields params
        { l with lastDispatchedAt := some signal.observedAt, lastSha := some signal.observedSha }
      exact .confirm hpc rfl hsha hat
    case sendState u next =>
      simp only [output, hpc]
      exact finishArm_moves hpc (Option.some.inj h)
    all_goals cases h
  | stateClosed =>
    cases hpc : l.pc <;> simp only [drive, hpc] at h
    case sendObservation | sendState =>
      cases h
      exact .quiet trivial (fun _ _ _ => rfl) (by simp [hpc]) rfl rfl
    all_goals cases h

end Loop

structure Traced where
  loop : Loop
  log : List Output

namespace Traced

def start (lastSha : Option ObjectId) (lastDispatchedAt : Option DateTime)
    (lastErrors : LastErrors) : Traced := ⟨.start lastSha lastDispatchedAt lastErrors, []⟩

def drive (params : PollParams) (s : Traced) (e : DriveEvent) : Option Traced :=
  (s.loop.drive params e).map fun l => ⟨l, s.log ++ s.loop.output e⟩

def accepted (s : Traced) : List TriggerSignal := s.log.filterMap fun
  | .trigger signal => some signal
  | .update _ => none

def persisted (s : Traced) : List ObjectId := s.log.filterMap fun
  | .update (.pollObservation _ sha ..) => some sha
  | _ => none

theorem drive_eq_some {params : PollParams} {s s' : Traced} {e : DriveEvent}
    (h : s.drive params e = some s') :
    ∃ out, s'.log = s.log ++ out ∧ Moves params s.loop s'.loop e out := by
  obtain ⟨l, hl, rfl⟩ := Option.map_eq_some_iff.mp h
  exact ⟨s.loop.output e, rfl, Loop.drive_moves hl⟩

end Traced

end Gcit.Poll
