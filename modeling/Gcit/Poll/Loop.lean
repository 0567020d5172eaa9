import Gcit.Library.Transition
import Gcit.Poll.Executor

/-! # The poll loop

`Loop.step` is `run_with_executor` cut at its await points. An event says which
branch of a select was ready, what the network answered and what the clock
showed; whether the token is cancelled and whether a channel has room is left
to the system the loop is part of.
-/

namespace Gcit.Poll

open Std Gcit Gcit.Git

structure TriggerSignal where
  observedSha : ObjectId
  observedAt : DateTime
  deriving DecidableEq

structure FlowLastError where
  at_ : DateTime
  kind : String
  message : String
  retryAt : Option DateTime
  deriving DecidableEq

abbrev LastErrors := ExtTreeMap String FlowLastError

def recordLastError (map : LastErrors) (flow kind message : String) (retryAt : Option DateTime)
    (now : DateTime) : LastErrors :=
  map.insert flow ⟨now, kind, message, retryAt⟩

inductive AfterSend where
  | advance (sha : ObjectId)
  | keep
  | unborn
  deriving DecidableEq

inductive Pc where
  | sleeping
  | acquiring
  | polling
  | sendTrigger (signal : TriggerSignal) (observation : StateUpdate)
  | sendObservation (signal : TriggerSignal) (observation : StateUpdate)
  | sendState (update : StateUpdate) (next : AfterSend)
  | exited
  deriving DecidableEq

structure Loop where
  lastSha : Option ObjectId
  lastDispatchedAt : Option DateTime
  lastErrorCleared : Bool
  fingerprint : Option String
  lastErrors : LastErrors
  pc : Pc
  deriving DecidableEq

def Loop.start (initialLastSha : Option ObjectId) (initialLastDispatchedAt : Option DateTime)
    (lastErrors : LastErrors) : Loop :=
  ⟨initialLastSha, initialLastDispatchedAt, false, none, lastErrors, .sleeping⟩

/-- A clock that moved back lets the dispatch through. -/
def isCooledDown (lastDispatchedAt : Option DateTime) (now : DateTime) (cooldown : Duration) :
    Bool :=
  match lastDispatchedAt with
  | none => true
  | some t => if now < t then true else decide ((cooldown : Int) ≤ now - t)

/-- `chrono::Duration::from_std`, which fails above `i64::MAX` milliseconds. -/
def durationFromStd (d : Duration) : Option Int :=
  if d ≤ 9223372036854775807 * 1000000 then some d else none

def unbornRefMessage (flow url refName : String) : String :=
  "ref " ++ refName ++ " not found at " ++ url ++
    " — verify the ref exists upstream, wait if it's still being pushed, or update flow." ++
    flow ++ ".source.ref"

inductive PollEvent where
  | wake
  | acquired
  | cancelled
  | polled (net : Network) (now : DateTime)
  | triggerAccepted
  | triggerClosed
  | stateAccepted (now : DateTime)
  | stateClosed

namespace Loop

variable (urls : UrlCrates) (params : PollParams)

def pollCycle (l : Loop) (net : Network) : Except PollCycleError PollOutcome × Option String :=
  pollOne urls (autoDetect urls params.url) params l.fingerprint net

/-- Where `handle_refreshed` first waits. -/
def handleRefreshed (l : Loop) (sha : ObjectId) (now : DateTime) : Pc :=
  let diff := compareSha l.lastSha sha
  if diff.trigger then
    if isCooledDown l.lastDispatchedAt now params.effectivePoll.cooldown then
      .sendTrigger ⟨sha, now⟩ (.pollObservation params.flowName sha now (some now)
        ((durationFromStd params.effectivePoll.cooldown).map fun d => now + d))
    else .sendState (.pollTimestamp params.flowName now) .keep
  else .sendState (.pollObservation params.flowName sha now none none) (.advance diff.observed)

def handleUnchanged (now : DateTime) : Pc := .sendState (.pollTimestamp params.flowName now) .keep

def handleUnbornRef (now : DateTime) : Pc := .sendState (.pollTimestamp params.flowName now) .unborn

def handleOutcome (l : Loop) (now : DateTime) : PollOutcome → Pc
  | .refreshed sha => l.handleRefreshed params sha now
  | .unchanged => handleUnchanged params now
  | .unbornRef => handleUnbornRef params now

def recordPollFailure (l : Loop) (message : String) (now : DateTime) : Loop :=
  { l with
    lastErrors := recordLastError l.lastErrors params.flowName "git_poll_failed" message none now
    lastErrorCleared := false }

def maybeClearLastError (l : Loop) : Loop :=
  if l.lastErrorCleared then l
  else { l with lastErrors := l.lastErrors.erase params.flowName, lastErrorCleared := true }

def finishArm (l : Loop) (now : DateTime) : AfterSend → Loop
  | .advance sha => { l with lastSha := some sha }.maybeClearLastError params
  | .keep => l.maybeClearLastError params
  | .unborn => l.recordPollFailure params
      (unbornRefMessage params.flowName params.url params.refName) now

def finishTrigger (l : Loop) (signal : TriggerSignal) : Loop :=
  { l with lastDispatchedAt := some signal.observedAt, lastSha := some signal.observedSha
    }.maybeClearLastError params

/-- The loop body from the end of `poll_cycle` to its next wait. -/
def afterPoll (l : Loop) (now : DateTime) :
    Except PollCycleError PollOutcome × Option String → Loop
  | (.error .cancelled, fingerprint) => { l with fingerprint := fingerprint, pc := .exited }
  | (.error (.failed message), fingerprint) =>
    { l.recordPollFailure params message now with fingerprint := fingerprint, pc := .sleeping }
  | (.ok outcome, fingerprint) =>
    { l with fingerprint := fingerprint, pc := l.handleOutcome params now outcome }

def step (l : Loop) : PollEvent → Option Loop
  | .wake => if l.pc = .sleeping then some { l with pc := .acquiring } else none
  | .acquired => if l.pc = .acquiring then some { l with pc := .polling } else none
  | .cancelled => match l.pc with
    | .sleeping => some { l with pc := .exited }
    | .acquiring => if params.rateBucket then some { l with pc := .exited } else none
    | .sendTrigger .. => some { l with pc := .exited }
    | _ => none
  | .polled net now =>
    if l.pc = .polling then some (l.afterPoll params now (l.pollCycle urls params net)) else none
  | .triggerAccepted => match l.pc with
    | .sendTrigger signal observation => some { l with pc := .sendObservation signal observation }
    | _ => none
  | .triggerClosed => match l.pc with
    | .sendTrigger .. => some { l with pc := .exited }
    | _ => none
  | .stateAccepted now => match l.pc with
    | .sendObservation signal _ => some { l.finishTrigger params signal with pc := .sleeping }
    | .sendState _ next => some { l.finishArm params now next with pc := .sleeping }
    | _ => none
  | .stateClosed => match l.pc with
    | .sendObservation .. => some { l with pc := .exited }
    | .sendState .. => some { l with pc := .exited }
    | _ => none

end Loop

end Gcit.Poll
