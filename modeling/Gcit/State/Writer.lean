import Gcit.Library.Transition
import Gcit.State.Apply

/-! # The state writer thread

`run` and `runMirrored` are the two drain loops as small-step machines: one
event for each receive, each applied update, each write and each publication,
so that other threads may look at the disk and at the mirror in between. Which
updates a receive returns and how a write ends are chosen by the event.
-/

namespace Gcit.Writer

open Gcit.Library

def BATCH_LIMIT : Nat := 64

/-- A write either replaces the file or leaves it alone. It may also replace the
file and then fail, when the mode or the directory cannot be made durable. -/
inductive PersistResult where
  | ok
  | err (replaced : Bool)
  deriving DecidableEq, Repr

def PersistResult.replaces : PersistResult → Bool
  | .ok => true
  | .err replaced => replaced

def atomicWriteJson (disk : Option State) (value : State) (r : PersistResult) : Option State :=
  if r.replaces then some value else disk

def loadOrInit (disk : Option State) : State := disk.getD State.default

/-- A lock is poisoned by a panic under it; no code that takes this lock panics there. -/
structure Mutex (α : Type) where
  value : α
  poisoned : Bool
  deriving DecidableEq

def Mutex.set {α : Type} (m : Mutex α) (a : α) : Mutex α :=
  if m.poisoned then m else { m with value := a }

inductive Pc where
  | recv
  | apply
  | write
  | publish
  | finalWrite
  | finalPublish
  | exited
  deriving DecidableEq, Repr

structure Frame where
  state : State
  buffer : List StateUpdate
  dirty : Bool
  pc : Pc
  disk : Option State
  deriving DecidableEq

structure MirroredFrame extends Frame where
  mirror : Mutex State
  deriving DecidableEq

inductive Event where
  | receive (batch : List StateUpdate)
  | closed
  | apply
  | persist (result : PersistResult)
  | publish
  deriving DecidableEq

def run (w : Frame) : Event → Option Frame
  | .receive batch =>
    if w.pc = .recv ∧ 0 < batch.length ∧ batch.length ≤ BATCH_LIMIT then
      some { w with buffer := batch, pc := .apply }
    else none
  | .closed =>
    if w.pc = .recv then some { w with pc := if w.dirty then .finalWrite else .exited } else none
  | .apply =>
    if w.pc = .apply then match w.buffer with
      | u :: rest => some { w with state := w.state.apply u, buffer := rest }
      | [] => some { w with dirty := true, pc := .write }
    else none
  | .persist r => match w.pc with
    | .write => some { w with
        disk := atomicWriteJson w.disk w.state r
        dirty := if r = .ok then false else w.dirty
        pc := .recv }
    | .finalWrite => some { w with disk := atomicWriteJson w.disk w.state r, pc := .exited }
    | _ => none
  | .publish => none

def runMirrored (w : MirroredFrame) : Event → Option MirroredFrame
  | .receive batch =>
    if w.pc = .recv ∧ 0 < batch.length ∧ batch.length ≤ BATCH_LIMIT then
      some { w with buffer := batch, pc := .apply }
    else none
  | .closed =>
    if w.pc = .recv then some { w with pc := if w.dirty then .finalWrite else .exited } else none
  | .apply =>
    if w.pc = .apply then match w.buffer with
      | u :: rest => some { w with state := w.state.apply u, buffer := rest }
      | [] => some { w with dirty := true, pc := .write }
    else none
  | .persist r => match w.pc with
    | .write => some { w with
        disk := atomicWriteJson w.disk w.state r
        dirty := if r = .ok then false else w.dirty
        pc := if r = .ok then .publish else .recv }
    | .finalWrite => some { w with
        disk := atomicWriteJson w.disk w.state r
        pc := if r = .ok then .finalPublish else .exited }
    | _ => none
  | .publish => match w.pc with
    | .publish => some { w with mirror := w.mirror.set w.state, pc := .recv }
    | .finalPublish => some { w with mirror := w.mirror.set w.state, pc := .exited }
    | _ => none

def spawn (disk : Option State) : Frame := ⟨loadOrInit disk, [], false, .recv, disk⟩

/-- Panics, here `none`, on a mirror that is already poisoned. -/
def spawnWithMirror (disk : Option State) (mirror : Mutex State) : Option MirroredFrame :=
  if mirror.poisoned then none
  else some { spawn disk with mirror := { mirror with value := loadOrInit disk } }

/-- What a history of events amounts to, with no state in it: the updates
received, and how many of them the disk, the last successful write and the
mirror reflect. -/
structure Ledger where
  received : List StateUpdate := []
  onDisk : Nat := 0
  confirmed : Nat := 0
  published : Nat := 0
  lastPersist : Option PersistResult := none

namespace Ledger

def record (l : Ledger) : Event → Ledger
  | .receive batch => { l with received := l.received ++ batch }
  | .persist r => { l with
      onDisk := if r.replaces then l.received.length else l.onDisk
      confirmed := if r = .ok then l.received.length else l.confirmed
      lastPersist := some r }
  | .publish => { l with published := l.confirmed }
  | .closed | .apply => l

def of (events : List Event) : Ledger := events.foldl record {}

def stateAt (l : Ledger) (initial : State) (n : Nat) : State := initial.applyAll (l.received.take n)

end Ledger

end Gcit.Writer
