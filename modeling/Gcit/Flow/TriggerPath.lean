import Gcit.Library.Channel
import Gcit.Poll.Loop

/-! # From the poll loop to the dispatcher

The two tasks of one flow, the bounded trigger channel between them, the cancel
token and the registry's copy of the sender. A select is unbiased, so every
branch that is ready is an enabled event. Each trigger of the poll loop gets the
next number when the channel accepts it; the numbers are read by no task.
-/

namespace Gcit.Flow

open Std Gcit Gcit.Git Gcit.Poll Gcit.Library Gcit.Library.Channel

def TRIGGER_QUEUE : Nat := 8

inductive DispatcherPc where
  | waiting
  | handling
  | draining
  | drainHandling
  | drainingMonitors
  | exited
  deriving DecidableEq, Repr

structure DispatchError where
  kind : String
  message : String
  retryAt : Option DateTime
  deriving DecidableEq

/-- A queued signal; `origin` numbers the signals of the poll loop. -/
structure Message where
  signal : TriggerSignal
  origin : Option Nat
  deriving DecidableEq

structure Pair where
  loop : Loop
  channel : Mpsc Message TRIGGER_QUEUE
  dispatcher : DispatcherPc
  monitors : Nat
  cancelled : Bool
  registrySender : Bool
  stateOpen : Bool
  nextTrigger : Nat
  /-- The observations the state writer was sent, with the trigger each belongs to. -/
  observed : List (Nat × StateUpdate)
  /-- What was passed to `handle_trigger`, in order. -/
  handled : List Message
  deriving DecidableEq

def Pair.start (initialLastSha : Option ObjectId) (initialLastDispatchedAt : Option DateTime)
    (lastErrors : LastErrors) : Pair where
  loop := .start initialLastSha initialLastDispatchedAt lastErrors
  channel := .empty Message TRIGGER_QUEUE
  dispatcher := .waiting
  monitors := 0
  cancelled := false
  registrySender := true
  stateOpen := true
  nextTrigger := 0
  observed := []
  handled := []

inductive Event where
  | poll (e : PollEvent)
  | cancel
  | dropHandle
  | stateWriterGone
  | manualTrigger (signal : TriggerSignal)
  | seeCancel
  | receive
  | closed
  | joinMonitor
  | handleDone (spawned : Bool) (failure : Option DispatchError) (now : DateTime)
  | tryReceive
  | drainEmpty
  | exit

namespace Pair

variable (urls : UrlCrates) (params : PollParams)

/-- The poll loop may lose a race against cancellation only once the token is cancelled. -/
def pollGuard (s : Pair) : PollEvent → Bool
  | .cancelled => s.cancelled
  | .polled net _ =>
    s.cancelled || (s.loop.pollCycle urls params net).1 ≠ .error .cancelled
  | .triggerClosed => !s.channel.open_
  | .stateAccepted _ => s.stateOpen
  | .stateClosed => !s.stateOpen
  | .wake | .acquired | .triggerAccepted => true

def acceptTrigger (s : Pair) : Option Pair :=
  match s.loop.pc with
  | .sendTrigger signal _ =>
    (s.channel.send? ⟨signal, some s.nextTrigger⟩).map fun channel =>
      { s with channel := channel, nextTrigger := s.nextTrigger + 1 }
  | _ => none

def noteObservation (s : Pair) : Pair :=
  match s.loop.pc with
  | .sendObservation _ observation =>
    { s with observed := s.observed ++ [(s.nextTrigger - 1, observation)] }
  | _ => s

def stepPoll (s : Pair) (e : PollEvent) : Option Pair :=
  if s.pollGuard urls params e then
    (s.loop.step urls params e).bind fun loop => match e with
      | .triggerAccepted => s.acceptTrigger.map fun s => { s with loop := loop }
      | .stateAccepted _ => some { s.noteObservation with loop := loop }
      | _ => some { s with loop := loop }
  else none

def handOver (s : Pair) (pc : DispatcherPc) : Option Pair :=
  s.channel.recv?.map fun (message, channel) =>
    { s with channel := channel, handled := s.handled ++ [message], dispatcher := pc }

/-- `handle_trigger` returned: it may have spawned a monitor, or failed. -/
def finishHandling (s : Pair) (pc : DispatcherPc) (spawned : Bool)
    (failure : Option DispatchError) (now : DateTime) : Pair :=
  let lastErrors := match failure with
    | none => s.loop.lastErrors
    | some e => recordLastError s.loop.lastErrors params.flowName e.kind e.message e.retryAt now
  { s with
    dispatcher := pc
    monitors := if spawned then s.monitors + 1 else s.monitors
    loop := { s.loop with lastErrors := lastErrors } }

def step (s : Pair) : Event → Option Pair
  | .poll e => s.stepPoll urls params e
  | .cancel => some { s with cancelled := true }
  | .dropHandle => some { s with registrySender := false }
  | .stateWriterGone => some { s with stateOpen := false }
  | .manualTrigger signal =>
    if s.registrySender then
      (s.channel.send? ⟨signal, none⟩).map fun channel => { s with channel := channel }
    else none
  | .seeCancel =>
    if s.dispatcher = .waiting ∧ s.cancelled = true then some { s with dispatcher := .draining }
    else none
  | .receive => if s.dispatcher = .waiting then s.handOver .handling else none
  | .closed =>
    -- `recv` answers `None` once every sender is gone and the queue is empty.
    if s.dispatcher = .waiting ∧ s.channel.queue = [] ∧ s.registrySender = false ∧
        s.loop.pc = .exited then
      some { s with dispatcher := .drainingMonitors }
    else none
  | .joinMonitor =>
    if (s.dispatcher = .waiting ∨ s.dispatcher = .drainingMonitors) ∧ 0 < s.monitors then
      some { s with monitors := s.monitors - 1 }
    else none
  | .handleDone spawned failure now => match s.dispatcher with
    | .handling => some (s.finishHandling params .waiting spawned failure now)
    | .drainHandling => some (s.finishHandling params .draining spawned failure now)
    | _ => none
  | .tryReceive => if s.dispatcher = .draining then s.handOver .drainHandling else none
  | .drainEmpty =>
    if s.dispatcher = .draining ∧ s.channel.queue = [] then
      some { s with dispatcher := .drainingMonitors }
    else none
  | .exit =>
    -- Either every monitor was joined or the drain timed out.
    if s.dispatcher = .drainingMonitors then
      some { s with dispatcher := .exited, channel := s.channel.dropReceiver }
    else none

end Pair

end Gcit.Flow
